import BitSchema.Numeral
import BitSchema.Schema.Options
import BitSchema.Text.Case

/-!
# Dialects

A dialect is a language in which a schema can be written out.  The neutral dialect is what all languages
have in common; what it leaves open fails with `Fault.notImplemented`.

This module holds what needs no definition of a schema: comments, literals, shifts and the case of names.
-/

namespace BitSchema

open Text

/-- **Dialects.** -/
inductive Dialect where
  | neutral | c | go | python
deriving DecidableEq, Repr

/-! ### Cases of names -/

/-- How names of a kind are written: in several styles one after the other.  A rule that is none is kept
with its description. -/
inductive CaseRule where
  | styles (ss : List CaseStyle)
  | invalid (shown : String)
deriving DecidableEq, Repr

abbrev CaseRules := List (Kind × CaseRule)

def CaseRules.apply (rules : CaseRules) (word : String) (kind : Kind) : Except Fault String :=
  match rules.lookup kind with
  | none => .ok word
  | some (.styles ss) => .ok (ss.foldl (fun w s => s.apply w) word)
  | some (.invalid shown) => .error (.internal ("invalid case_style mapping value " ++ shown))

namespace Dialect

def choose {α : Type} (c go python : α) : Dialect → Except Fault α
  | .neutral => .error .notImplemented
  | .c => .ok c
  | .go => .ok go
  | .python => .ok python

def caseRules : Dialect → Except Fault CaseRules :=
  choose
    [(.constant, .styles [.upper]), (.typeAlias, .styles [.pascal]), (.enum, .styles [.pascal]),
     (.enumField, .styles [.snake, .upper]), (.message, .styles [.pascal])]
    [(.typeAlias, .styles [.pascal]), (.constant, .styles [.upper]),
     (.enumField, .styles [.snake, .upper]), (.message, .styles [.pascal]),
     (.messageField, .styles [.pascal])]
    [(.constant, .styles [.upper]), (.enumField, .styles [.snake, .upper])]

def cased (l : Dialect) (word : String) (kind : Kind) : Except Fault String := do
  CaseRules.apply (← l.caseRules) word kind

/-! ### Lines -/

def indentUnit : Dialect → Except Fault String := choose " " "\t" " "

def comment (content : String) : Dialect → Except Fault String :=
  choose ("// " ++ content) ("// " ++ content) ("# " ++ content)

def docstring (contents : List String) : Dialect → Except Fault (List String)
  | .python => .ok ("\"\"\"" :: contents ++ ["\"\"\""])
  | l => contents.mapM fun c => l.comment c

def locationMark (line : Int) : String := s!"@@L{line}"

/-! ### Literals -/

def boolValue (b : Bool) : Dialect → Except Fault String :=
  choose (if b then "true" else "false") (if b then "true" else "false")
    (if b then "True" else "False")

def strValue (s : String) : Dialect → Except Fault String :=
  choose ("\"" ++ s ++ "\"") ("\"" ++ s ++ "\"") ("\"" ++ s ++ "\"")

def intValue (n : Int) : Dialect → Except Fault String
  | .neutral => .error .notImplemented
  | _ => Numeral.ofInt n

def literal (v : Literal) (l : Dialect) : Except Fault String :=
  match v with
  | .bool b => l.boolValue b
  | .int n => l.intValue n
  | .str s => l.strValue s

/-! ### Shifts -/

/-- A shift to the left by what is written in `n`. -/
def leftShift (n : String) : String := "<< " ++ n

/-- A shift to the right by what is written in `n`. -/
def rightShift (n : String) : String := ">> " ++ n

/-- A shift to the right by `n` bits, to the left if `n` is negative, and nothing if it is zero. -/
def shift (n : Int) : String :=
  if n > 0 then rightShift (toString n) else if n < 0 then leftShift (toString (-n)) else ""

/-! ### Types that need no definition -/

def boolType : Dialect → Except Fault String := choose "bool" "bool" "bool"

def byteType : Dialect → Except Fault String := choose "unsigned char" "byte" "int"

def valueType (k : LiteralKind) : Dialect → Except Fault String
  | .neutral => .error .notImplemented
  | .c => .error .notImplemented
  | .go =>
    .ok (match k with
      | .boolean => "bool"
      | .integer => "int"
      | .string => "string")
  | .python =>
    .ok (match k with
      | .boolean => "bool"
      | .integer => "int"
      | .string => "str")

/-! ### Names across files -/

/-- Whether definitions of an imported file are reached through the name of the file. -/
def importsMembers : Dialect → Except Fault Bool := choose false true true

/-- What stands between the name of an imported file and the name of its definition. -/
def memberSeparator : String := "."

def nestSeparator : String := "_"

def namePrefixOption : Dialect → String
  | .c => "c.name_prefix"
  | _ => ""

def orElse (a b : String) : String := if a.isEmpty then b else a

def pythonModule (file : Def) : Except Fault String := do
  return orElse (← file.strOption "py.module_name") (file.name ++ "_bp")

def importStatement (file : Def) (name : Option String) : Dialect → Except Fault String
  | .neutral => .error .notImplemented
  | .c => .ok ("#include \"" ++ file.name ++ "_bp.h\"")
  | .go => do
    let path := orElse (← file.strOption "go.package_path") (file.name ++ "_bp")
    return match name with
      | some n => if n.isEmpty then s!"import \"{path}\"" else s!"import {n} \"{path}\""
      | none => s!"import \"{path}\""
  | .python => do
    let path ← pythonModule file
    return match name with
      | some n => if n.isEmpty then s!"import {path}" else s!"import {path} as {n}"
      | none => s!"import {path}"

end Dialect

end BitSchema
