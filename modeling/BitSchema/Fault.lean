import BitSchema.Report
import BitSchema.Text.Quoted

/-!
# Faults

Everything that can end an operation.  Most faults are reports; the others are failures of a single
step, such as a missing file, a division by zero or an index outside a buffer, and have a fixed
wording (`Fault.message`).
-/

namespace BitSchema

open Text

inductive Sequence where
  | bytes | list | scopes | text
  /-- What a template is filled with, of which the place is asked for. -/
  | fillings (place : Nat)
deriving DecidableEq, Repr

inductive Change where
  | assign | delete | freeze
deriving DecidableEq, Repr

/-- **Faults.** What ends an operation. -/
inductive Fault where
  /-- A report to the user. -/
  | report (r : Report)
  /-- A broken assumption of the compiler, with its report. -/
  | broken (r : Report)
  /-- A buffer shorter than the message it should hold. -/
  | notEnoughBytes
  | fileMissing (path : String)
  | isDirectory (path : String)
  | notDirectory (path : String)
  /-- A path, or a component of it, that is longer than paths can be. -/
  | pathTooLong (path : String)
  /-- A path with the character number zero. -/
  | pathInvalid
  /-- No path where one is needed. -/
  | noPath
  /-- A file that has to be loaded first. -/
  | fileUnread (path : String)
  | divisionByZero
  /-- A size in bits whose size in bytes is not representable. -/
  | quotientTooLarge
  | negativeShift
  /-- A number has more digits than numbers can have. -/
  | numberTooLarge
  /-- A number has more digits than there is room for. -/
  | outOfMemory
  | byteRange
  | indexRange (of : Sequence)
  /-- An index is larger than indices can be. -/
  | indexSize
  /-- A place of a list that should be written does not exist. -/
  | assignmentRange
  | emptyPop
  /-- An import that stands where nothing may be imported has no file to blame. -/
  | noFile
  | frozen (change : Change)
  /-- An attribute does not allow what is tried with it. -/
  | badAttribute (text : String)
  /-- An operation that the language-neutral dialect leaves open. -/
  | notImplemented
  /-- Values of a kind have no form in the output format. -/
  | notSerializable (kind : String)
  /-- A value does not fit the place where it stands. -/
  | mismatch (text : String)
  /-- A node is not of the wanted kind. -/
  | wrongKind (node kind : String)
  /-- The linter's answer is asked for, and the linter is switched off. -/
  | lintSkipped
  /-- A numeral with more digits than numerals may have, and how many it has if it was to be read. -/
  | tooManyDigits (count : Option Nat)
  /-- A thing of the given kind does not have what is asked of it. -/
  | noAttribute (owner name : String)
  /-- A value of the right sort that makes no sense. -/
  | badValue (text : String)
  /-- References that lead in a circle. -/
  | tooDeep
  | unknownKey (key : String)
  | unknownName (name : String)
  | unknownModule (name : String)
  | notInModule (unit name : String)
  /-- What a written module raises, by the name of its kind. -/
  | raised (kind text : String)
deriving DecidableEq, Repr

def isIndex (k : Int) : Bool := -9223372036854775808 ≤ k && k < 9223372036854775808

namespace Fault

def noElement (of : Sequence) (k : Int) : Fault := if isIndex k then .indexRange of else .indexSize

def internal (text : String) : Fault := .report (.ofInternal text)

/-- **Wording.** -/
def message : Fault → String
  | .report r => r.shown
  | .broken r => r.shown
  | .notEnoughBytes => ""
  | .fileMissing p => "[Errno 2] No such file or directory: " ++ quote p
  | .isDirectory p => "[Errno 21] Is a directory: " ++ quote p
  | .notDirectory p => "[Errno 20] Not a directory: " ++ quote p
  | .pathTooLong p => "[Errno 36] File name too long: " ++ quote p
  | .pathInvalid => "embedded null byte"
  | .noPath => "expected str, bytes or os.PathLike object, not list"
  | .fileUnread p => "File not loaded: " ++ quote p
  | .divisionByZero => "integer division or modulo by zero"
  | .quotientTooLarge => "integer division result too large for a float"
  | .negativeShift => "negative shift count"
  | .numberTooLarge => "too many digits in integer"
  | .outOfMemory => ""
  | .byteRange => "byte must be in range(0, 256)"
  | .indexRange .bytes => "bytearray index out of range"
  | .indexRange .list => "list index out of range"
  | .indexRange .scopes => "tuple index out of range"
  | .indexRange .text => "string index out of range"
  | .indexRange (.fillings n) =>
    "Replacement index " ++ toString n ++ " out of range for positional args tuple"
  | .indexSize => "cannot fit 'int' into an index-sized integer"
  | .assignmentRange => "list assignment index out of range"
  | .emptyPop => "pop from empty list"
  | .noFile => "'NoneType' object has no attribute 'filepath'"
  | .frozen .assign => "Cant setattr on frozen instance"
  | .frozen .delete => "Cant delattr on frozen instance"
  | .frozen .freeze => "Cannot freeze frozen instance"
  | .badAttribute text => text
  | .notImplemented => ""
  | .notSerializable kind => "Object of type " ++ kind ++ " is not JSON serializable"
  | .mismatch text => text
  | .wrongKind node kind => "Cant cast " ++ node ++ " to " ++ kind
  | .lintSkipped =>
    "cannot access local variable 'lint_warnings' where it is not associated with a value"
  | .tooManyDigits count =>
    "Exceeds the limit (4300 digits) for integer string conversion" ++
      (match count with
      | some n => ": value has " ++ toString n ++ " digits"
      | none => "") ++ "; use sys.set_int_max_str_digits() to increase the limit"
  | .noAttribute owner name => "'" ++ owner ++ "' object has no attribute '" ++ name ++ "'"
  | .badValue text => text
  | .tooDeep => "maximum recursion depth exceeded"
  | .unknownKey key => key
  | .unknownName name => "name '" ++ name ++ "' is not defined"
  | .unknownModule name => "No module named '" ++ name ++ "'"
  | .notInModule unit name => "module '" ++ unit ++ "' has no attribute '" ++ name ++ "'"
  | .raised _ text => text

end Fault

end BitSchema
