import BitSchema.Target.Types

/-!
# Calls to the C library

Generated C code describes its types to a library by nested calls such as
`BpArray(48, 4 * sizeof(uint16_t), …)`.  Aliases, messages and arrays have functions of their own, which
the library calls back; these are named after the definition, or after the field in whose type an array
stands.
-/

namespace BitSchema.CLibrary

open Dialect

def processorStart : String := "BpXXXProcess"

def jsonStart : String := "BpXXXJsonFormat"

def sizeOf (type : String) : String := s!"sizeof({type})"

/-! ### Names of functions -/

def functionName (start : String) (env : Env) (d : Def) : Except Fault String := do
  return start ++ (← Dialect.c.ownName env d)

/-- A function of an array behind a field or an alias.  `word` names the function in the complaint about
any other definition. -/
def arrayFunctionName (start word : String) (env : Env) (d : Def) : Except Fault String :=
  match d with
  | .field _ _ number => do
    let message ← Dialect.c.ownName env (← env.messageOf d)
    return s!"{start}Array{message}{number}"
  | .typeAlias _ _ => do return start ++ "Array" ++ (← Dialect.c.ownName env d)
  | _ => .error (.internal s!"format_bp_array_{word}_name got unexpected defintion type")

def arrayProcessorName (env : Env) (d : Def) : Except Fault String :=
  arrayFunctionName processorStart "processor" env d

def arrayJsonName (env : Env) (d : Def) : Except Fault String :=
  arrayFunctionName jsonStart "json_formatter" env d

def fieldsInitName (env : Env) (d : Def) : Except Fault String :=
  functionName "BpFieldDescriptorsInit" env d

/-! ### Types -/

def uintCall (t : Ty) : Except Fault String := do
  return s!"BpUint({t.nbits}, " ++ sizeOf (← Dialect.c.uintType t) ++ ")"

def intCall (t : Ty) : Except Fault String := do
  return s!"BpInt({t.nbits}, " ++ sizeOf (← Dialect.c.intType t) ++ ")"

/-- The call for something of `nbits` bits with functions of its own. -/
def functionsCall (word : String) (nbits : Nat) (size processor json : String) : String :=
  s!"{word}({nbits}, {size}, {processor}, {json})"

def messageCall (env : Env) (d : Def) : Except Fault String := do
  let size := sizeOf (← Dialect.c.messageType env d)
  return functionsCall "BpMessage" d.nbits size (← functionName processorStart env d)
    (← functionName jsonStart env d)

def aliasCall (env : Env) (d : Def) : Except Fault String := do
  let size := sizeOf (← Dialect.c.ownName env d)
  return functionsCall "BpAlias" d.nbits size (← functionName processorStart env d)
    (← functionName jsonStart env d)

def enumCall (env : Env) (d : Def) : Except Fault String := do
  return s!"BpEnum({d.nbits}, " ++ sizeOf (← Dialect.c.enumType env d) ++ ")"

/-- The call for an array behind a field or an alias `d`. -/
def arrayCall (env : Env) (t element : Ty) (cap : Nat) (d : Def) : Except Fault String := do
  let size := s!"{cap} * " ++ sizeOf (← Dialect.c.typeText env none element)
  return functionsCall "BpArray" t.nbits size (← arrayProcessorName env d) (← arrayJsonName env d)

/-- **The call for a type**; an array needs the definition `d` in which it stands. -/
def typeCall (env : Env) (t : Ty) (d : Option Def) : Except Fault String :=
  match t with
  | .bool _ => .ok "BpBool()"
  | .byte _ => .ok "BpByte()"
  | .int _ _ => intCall t
  | .uint _ _ => uintCall t
  | .array _ element cap _ =>
    match d with
    | some d => arrayCall env t element cap d
    | none => .error (.broken (.ofInternal "format_bp_array requires defintion"))
  | .named (.enum h o cap ms) => enumCall env (.enum h o cap ms)
  | .named (.typeAlias h target) => aliasCall env (.typeAlias h target)
  | .named (.message h e ms) => messageCall env (.message h e ms)
  | _ => .error (.internal "format_bp_type got unexpected type")

/-! ### Descriptors -/

def boolText (b : Bool) : String := if b then "true" else "false"

def enumDescriptor (d : Def) : Except Fault String := do
  match d.ty? with
  | some t => return "BpEnumDescriptor(" ++ (← uintCall t) ++ ")"
  | none => throw (.internal "format_bp_type got unexpected type")

def messageDescriptor (d : Def) (fields : String) : String :=
  s!"BpMessageDescriptor({boolText d.ext}, {d.fields.length}, {d.nbits}, {fields})"

def aliasDescriptor (env : Env) (d : Def) : Except Fault String := do
  match d.ty? with
  | some t => return "BpAliasDescriptor(" ++ (← typeCall env t (some d)) ++ ")"
  | none => throw (.internal "format_bp_type got unexpected type")

def arrayDescriptor (env : Env) (t : Ty) : Except Fault String :=
  match t with
  | .array _ element cap ext => do
    let call ← typeCall env element none
    return s!"BpArrayDescriptor({boolText ext}, {cap}, {call})"
  | _ => .error (.internal "format_bp_type got unexpected type")

end BitSchema.CLibrary
