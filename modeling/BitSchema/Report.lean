import BitSchema.Text.Lines
import BitSchema.Text.Paint

/-!
# Reports

What the compiler tells its user: errors, which end the work, and warnings, which do not.

A `Problem` is the cause.  A `Report` adds where it was met: the file, the line and the piece of
source text concerned, and perhaps a note that replaces the problem's standing text.  Errors about
source text and lint warnings are *located*: their description starts with the place.

* `Report.description` is the text of a report,
* `Report.shown` lays it out line by line behind `error: ` or `warning: `,
* `Report.painted` is the same in red or yellow.
-/

namespace BitSchema

open Text

inductive Family where
  /-- Errors without a narrower kind. -/
  | general
  /-- Errors of the compiler itself. -/
  | internal
  /-- Errors in the arguments given by the user. -/
  | user
  /-- Errors in the source text that are neither about a token nor about its grammar. -/
  | source
  /-- Errors in a token of the source text. -/
  | token
  /-- Errors in how tokens are put together, and in what they mean. -/
  | grammar
  /-- Errors while writing code. -/
  | rendering
  /-- Warnings without a narrower kind. -/
  | warning
  /-- Warnings about style. -/
  | lint
deriving DecidableEq, Repr

namespace Family

def located : Family → Bool
  | .source | .token | .grammar | .lint => true
  | _ => false

def isWarning : Family → Bool
  | .warning | .lint => true
  | _ => false

def label (f : Family) : String :=
  if f.isWarning then "warning: " else "error: "

def colour (f : Family) : Colour :=
  if f.isWarning then .yellow else .red

end Family

/-- **Problems.** The causes of errors and warnings. -/
inductive Problem where
  | someError
  | internal
  | user
  | noLanguage
  | source
  | token
  | uintWidth
  | intWidth
  | arrayElement
  | escape
  | grammar
  | calculation
  | arrayCapacity
  | duplicateDefinition
  | duplicateImport
  | constantUnknown
  | notConstant
  | typeUnknown
  | notType
  | enumFieldValue
  | enumFieldOverflow
  | duplicateEnumValue
  | cyclicImport
  | aliasTarget
  | fieldNumber
  | duplicateFieldNumber
  | optionUnknown
  | optionValue
  | messageSize
  | aliasInMessage
  | constantInMessage
  | importInMessage
  | nameOutsideSchema
  | statementInMessage
  | aliasInEnum
  | constantInEnum
  | importInEnum
  | optionInEnum
  | enumInEnum
  | messageInEnum
  | fieldInEnum
  | schemaNameMissing
  | extensibleInTraditional
  | rendering
  | languageUnknown
  | noOptimization
  | someWarning
  | lint
  | indent
  | enumName
  | enumZeroMissing
  | enumFieldName
  | messageName
  | fieldName
  | constantName
  | aliasName
deriving DecidableEq, Repr

namespace Problem

def family : Problem → Family
  | .someError => .general
  | .internal => .internal
  | .user | .noLanguage => .user
  | .source => .source
  | .token | .uintWidth | .intWidth | .arrayElement | .escape => .token
  | .rendering | .languageUnknown | .noOptimization => .rendering
  | .someWarning => .warning
  | .lint | .indent | .enumName | .enumZeroMissing | .enumFieldName | .messageName | .fieldName
  | .constantName | .aliasName => .lint
  | _ => .grammar

/-- The text of a problem when nothing more precise is known. -/
def standing : Problem → String
  | .someError => "Some error occurred during bitproto handling."
  | .internal => "Some internal error occurred in bitproto."
  | .user => "User error."
  | .noLanguage => "No language specific."
  | .source => "Some error occurred during bitproto parsing."
  | .token => "Some token error occurred during bitproto lexing."
  | .uintWidth => "Invalid bits capacity for a uint type, should between [1, 64]"
  | .intWidth => "Invalid bits capacity for a int type, should be one of 8,16,32,64."
  | .arrayElement => "Unsupported type to construct an array type."
  | .escape => "Unsupported escaping character."
  | .grammar => "Some grammar error occurred during bitproto grammar parsing."
  | .calculation => "Some error occurred during calculation expression parsing."
  | .arrayCapacity => "Invalid array capacity, should between (0, 65536)."
  | .duplicateDefinition => "Duplicated definition."
  | .duplicateImport => "Duplicated import."
  | .constantUnknown => "Referenced constant not defined."
  | .notConstant => "Referenced not a constant."
  | .typeUnknown => "Referenced type not defined."
  | .notType => "Referenced not a type."
  | .enumFieldValue => "Invalid enum field, should >=0."
  | .enumFieldOverflow => "Enum field value overflows type constraint."
  | .duplicateEnumValue => "Duplicated enum field value."
  | .cyclicImport => "Cyclic proto import."
  | .aliasTarget => "Invalid type to alias."
  | .fieldNumber => "Invalid message field number, should between [1, 255]."
  | .duplicateFieldNumber => "Duplicated message field number."
  | .optionUnknown => "Unsupported option."
  | .optionValue => "Invalid option value."
  | .messageSize => "Message size overflows constraint, should < 65535 bits (about 8kb)."
  | .aliasInMessage => "Unsupported to declare alias type inside message."
  | .constantInMessage => "Unsupported to declare constant inside message."
  | .importInMessage => "Unsupported to import proto inside message."
  | .nameOutsideSchema => "Cannot declare proto name out of global scope."
  | .statementInMessage => "Unsupported statement inside message."
  | .aliasInEnum => "Unsupported to declare alias type inside enum."
  | .constantInEnum => "Unsupported to declare constant inside enum."
  | .importInEnum => "Unsupported to import proto inside enum."
  | .optionInEnum => "Unsupported to declare option inside enum."
  | .enumInEnum => "Unsupported to declare enum inside enum."
  | .messageInEnum => "Unsupported to declare message inside enum."
  | .fieldInEnum => "Unsupported to declare message field inside enum."
  | .schemaNameMissing => "Proto name undefined."
  | .extensibleInTraditional =>
    "Extensible-type grammar found while enforcing traditional mode parsing."
  | .rendering => "Some renderer error occurred during bitproto rendering."
  | .languageUnknown => "Unsupported language to render."
  | .noOptimization => "Language doesn't support optimization mode."
  | .someWarning => "Warning continues processing and leaves a message."
  | .lint => "Some warning occurred during bitproto linting."
  | .indent => "Indent warning."
  | .enumName => "Enum name not pascal case."
  | .enumZeroMissing => "Enum has no field with value 0."
  | .enumFieldName => "Enum field name not upper case."
  | .messageName => "Message name not pascal case."
  | .fieldName => "Message field name not snake case."
  | .constantName => "Constant name not upper case."
  | .aliasName => "Alias name not pascal case."

end Problem

/-- The line a report points to: its number, or a word where no number is known. -/
inductive LineMark where
  | number (n : Int)
  | word (text : String)
deriving DecidableEq, Repr

namespace LineMark

instance : Coe Int LineMark := ⟨.number⟩

instance : Coe Nat LineMark := ⟨fun n => .number n⟩

def shown : LineMark → String
  | .number n => toString n
  | .word text => text

end LineMark

/-- **Reports.** A problem and where it was met. -/
structure Report where
  problem : Problem
  /-- Said in place of the problem's standing text, unless empty. -/
  note : String := ""
  file : String := ""
  token : String := ""
  line : LineMark := .number 0
  /-- What a lint warning proposes; empty if nothing. -/
  suggestion : String := ""
  /-- The language that lacks an optimization mode; empty if unknown. -/
  language : String := ""
  /-- The whole description, unless empty. -/
  text : String := ""
deriving DecidableEq, Repr

namespace Report

/-- The place and the problem: `file:Lline token => note`. -/
def placed (r : Report) : String :=
  let note := if r.note.isEmpty then r.problem.standing else r.note
  let file := if r.file.isEmpty then "" else r.file ++ ":"
  file ++ "L" ++ r.line.shown ++ " " ++ r.token ++ " => " ++ note

def drafted (r : Report) : String :=
  if r.problem.family.located then
    if r.problem.family.isWarning && !r.suggestion.isEmpty then
      r.placed ++ " suggestion => " ++ r.suggestion
    else r.placed
  else if r.problem = .noOptimization && !r.language.isEmpty then
    "Optimization mode for language " ++ r.language ++ " isn't supported."
  else r.problem.standing

/-- **Description.** -/
def description (r : Report) : String :=
  if r.text.isEmpty then r.drafted else r.text

/-- **Layout.** Each line of the description behind the label of the family. -/
def shown (r : Report) : String :=
  "\n".intercalate ((lines r.description).map fun l => r.problem.family.label ++ " " ++ l)

def painted (r : Report) : String :=
  paint r.shown r.problem.family.colour

def ofInternal (text : String) : Report := { problem := .internal, text }

end Report

end BitSchema
