import BitSchema.Schema.Members

/-!
# Options

Messages and files take options.  Which ones, with which kind of value and which values, is listed in
`messageOptions` and `protoOptions`.  An option that is not set has the default value of its
specification.
-/

namespace BitSchema

structure OptionSpec where
  name : String
  /-- The value when the option is not set; its kind is the kind of all values. -/
  default : Literal
  /-- The least and perhaps the greatest number allowed. -/
  bounds : Option (Int × Option Int) := none
  description : String

namespace OptionSpec

/-- Whether a value is one of those allowed among the values of the right kind. -/
def accepts (s : OptionSpec) : Literal → Bool
  | .int n =>
    match s.bounds with
    | none => true
    | some (low, high) => low ≤ n && (high.map (decide <| n ≤ ·)).getD true
  | _ => true

end OptionSpec

def messageOptions : List OptionSpec := [
  { name := "max_bytes"
    default := .int 0
    bounds := some (0, none)
    description := "Setting the maximum limit of number of bytes for target message." }]

def protoOptions : List OptionSpec := [
  { name := "c.struct_packing_alignment"
    default := .int 0
    bounds := some (0, some 8)
    description := "C language struct packing alignment, defaults to 0" },
  { name := "c.name_prefix"
    default := .str ""
    description := "Name prefix of generated C defintions, defaults to empty." },
  { name := "go.package_path"
    default := .str ""
    description := "Package path of current golang package, to be imported, e.g.  github.com/path/to/example" },
  { name := "py.module_name"
    default := .str ""
    description := "Module name of current python module, to be imported, e.g. example_bp" }]

def LiteralKind.word : LiteralKind → String
  | .boolean => "boolean"
  | .integer => "integer"
  | .string => "string"

/-- How a kind of values is named when a value of another kind is met. -/
def LiteralKind.className : LiteralKind → String
  | .boolean => "<class 'bool'>"
  | .integer => "<class 'int'>"
  | .string => "<class 'str'>"

namespace Def

def optionSpecs : Def → List OptionSpec
  | .message _ _ _ => messageOptions
  | .proto _ _ => protoOptions
  | _ => []

def optionSpec? (d : Def) (name : String) : Option OptionSpec :=
  d.optionSpecs.find? fun s => s.name == name

def options (d : Def) : Except Fault (List (String × Def)) :=
  d.select .option false d.header.bound

/-- The option with the given name: as it is set, or else with its default value; nothing if the scope
takes no such option. -/
def option? (d : Def) (name : String) : Except Fault (Option Def) := do
  let set ← d.options
  match Members.get? set name with
  | some o => return some o
  | none =>
    return (d.optionSpec? name).map fun s => .option { name } (some s.default.kind) s.default

def literal? : Def → Option Literal
  | .option _ _ v => some v
  | .constant _ _ v => some v
  | _ => none

def optionOrFail (d : Def) (name : String) : Except Fault Def := do
  match ← d.option? name with
  | some o => return o
  | none =>
    throw (.report { problem := .optionUnknown,
                     note := "get_option_or_raise(" ++ name ++ ") got None" })

/-- The value of an option, which must be of the given kind.  A truth value also serves as an
integer. -/
def optionValue (d : Def) (name : String) (kind : LiteralKind) : Except Fault Literal := do
  let o ← d.optionOrFail name
  match o.literal? with
  | some v =>
    if v.kind = kind || (kind = .integer && v.kind = .boolean) then return v
    else throw (.internal ("option value not " ++ kind.className))
  | none => throw (.internal ("option value not " ++ kind.className))

def intOption (d : Def) (name : String) : Except Fault Int := do
  match ← d.optionValue name .integer with
  | .int n => return n
  | .bool b => return if b then 1 else 0
  | .str _ => return 0

def strOption (d : Def) (name : String) : Except Fault String := do
  match ← d.optionValue name .string with
  | .str s => return s
  | v => return v.shown

end Def

end BitSchema
