import BitSchema.Schema.Size
import BitSchema.Target.Names

/-!
# Types in a dialect

How a type of a schema is written in a language.  Integers take the next width a machine has.  In C an
array can only be declared together with a name, so the name of what is declared is passed along.
-/

namespace BitSchema

namespace Dialect

/-- The bits of the machine integer for a type: 8, 16, 32 or 64 for up to eight bytes. -/
def integerBits (t : Ty) : Except Fault Nat := do
  let nbytes ← t.nbytes
  if nbytes = 1 then return 8
  else if nbytes = 2 then return 16
  else if nbytes = 3 ∨ nbytes = 4 then return 32
  else if 5 ≤ nbytes ∧ nbytes ≤ 8 then return 64
  else return nbytes * 8

def uintType (t : Ty) : Dialect → Except Fault String
  | .neutral => .error .notImplemented
  | .c => do
    let n ← integerBits t
    return s!"uint{n}_t"
  | .go => do
    let n ← integerBits t
    return s!"uint{n}"
  | .python => .ok "int"

def intType (t : Ty) : Dialect → Except Fault String
  | .neutral => .error .notImplemented
  | .c => do
    let n ← integerBits t
    return s!"int{n}_t"
  | .go => do
    let n ← integerBits t
    return s!"int{n}"
  | .python => .ok "int"

def enumType (l : Dialect) (env : Env) (d : Def) : Except Fault String := l.name env d none

def messageType (l : Dialect) (env : Env) (d : Def) : Except Fault String := do
  let name ← l.ownName env d
  return if l = .c then "struct " ++ name else name

def definedType (l : Dialect) (env : Env) (d : Def) : Except Fault String :=
  match d with
  | .enum _ _ _ _ => l.enumType env d
  | .message _ _ _ => l.messageType env d
  | .typeAlias _ _ => l.ownName env d
  | _ => .error (.internal "unknown type for format_type")

/-- **A type**, with the name of what is declared to be of the type, if there is one. -/
def typeText (l : Dialect) (env : Env) (name : Option String) : Ty → Except Fault String
  | .unknown _ _ => .error (.internal "unknown type for format_type")
  | .bool _ => l.boolType
  | .byte _ => l.byteType
  | .uint o cap => l.uintType (.uint o cap)
  | .int o cap => l.intType (.int o cap)
  | .named d => l.definedType env d
  | .array _ element cap _ =>
    match l with
    | .neutral => .error .notImplemented
    | .c =>
      match name with
      | none => .error (.broken (.ofInternal "format_array_type got name=None"))
      | some n => do
        return (← typeText l env none element) ++ s!" {n}[{cap}]"
    | .go => do return s!"[{cap}]" ++ (← typeText l env none element)
    | .python =>
      match element with
      | .byte _ => .ok "bytearray"
      | t => do return "List[" ++ (← typeText l env none t) ++ "]"

def constantTypeOf (l : Dialect) (described : Except Fault String) (node : Ty) :
    Except Fault String :=
  match node with
  | .named (.constant _ (some k) _) => l.valueType k
  | _ => do throw (.internal ("got unexpected constant type " ++ (← described)))

/-- **The type of a constant.** -/
def constantType (l : Dialect) (env : Env) (node : Ty) : Except Fault String :=
  l.constantTypeOf (.ok (env.shownNode node)) node

end Dialect

end BitSchema
