import BitSchema.Target.PythonModule
import BitSchema.Text.Escape

/-!
# Written modules

The Python module that is written for a schema file, and what its names mean as far as they stand for classes of
messages, constants and the name maps of enums.
-/

namespace BitSchema.Loading

open PythonLibrary

structure Written where
  name : String
  env : Env
  file : Def
  text : String

/-- **Meanings** of names. -/
inductive Meaning where
  /-- The class of a message. -/
  | message (d : Def)
  | value (v : Literal)
  /-- The names of the fields of an enum by value. -/
  | nameMap (entries : List (Nat × String))

def constantValue : Literal → Literal
  | .str s =>
    match Text.unescape s.toList with
    | .ok cs => .str (String.ofList cs)
    | .error _ => .str s
  | v => v

namespace Written

/-- **The module written for a schema file.** -/
def ofFile (file : Def) : Except Fault Written := do
  let env : Env := ⟨[file]⟩
  let block ← PythonModule.block { env, file, optimized := false, only := [] }
  return { name := file.outputName "", env, file, text := ← block.text .python }

def meaningsOf (w : Written) (d : Def) : Except Fault (List (String × Meaning)) := do
  match d with
  | .message _ _ _ => return [(← Dialect.python.ownName w.env d, .message d)]
  | .constant _ _ v => return [(← Dialect.python.ownName w.env d, .value (constantValue v))]
  | .enum _ _ _ _ =>
    let fields ← d.enumFields.mapM fun f => do return (← Dialect.python.ownName w.env f, f.value)
    let entries := keyed (fields.map fun (n, v) => (v, n))
    return (← nameMap w.env d, .nameMap entries) :: fields.map fun (n, v) => (n, .value (.int v))
  | _ => return []

/-- **What a name means** in a module, if it has one of the meanings above. -/
def meaning? (w : Written) (name : String) : Option Meaning := do
  let ds ← w.file.ownDefinitions.toOption
  let found ← (ds.mapM w.meaningsOf).toOption
  found.flatten.lookup name

def title (w : Written) (d : Def) : String :=
  match Dialect.python.innerName w.env d none with
  | .ok name => name
  | .error _ => d.name

end Written

end BitSchema.Loading
