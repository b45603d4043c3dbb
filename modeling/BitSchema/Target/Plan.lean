import BitSchema.Files.Path
import BitSchema.Target.Block

/-!
# Output plans

What is written for a schema file: its own definitions in order, the files it imports, the name of the
file to write, and the choices made by the user (`OutputPlan`).
-/

namespace BitSchema

def Def.ownDefinitions (file : Def) : Except Fault (List Def) := do
  return (← file.select .boundDefinition true (some file.id)).map (·.2)

def Def.imports (file : Def) : List (String × Def) := file.direct .proto

def Def.outputName (file : Def) (extension : String) : String :=
  let path := file.header.origin.file
  (if path.isEmpty then file.name else Path.stem (Path.baseName path)) ++ "_bp" ++ extension

structure OutputPlan where
  env : Env
  file : Def
  /-- Statements are written out instead of library calls. -/
  optimized : Bool
  /-- Only messages with these names are packed and unpacked, if there are any names. -/
  only : List String

namespace OutputPlan

def includes (p : OutputPlan) (d : Def) : Bool := p.only.isEmpty || p.only.contains d.name

end OutputPlan

def Def.forFields {α : Type} (d : Def) (make : Def → Ty → Except Fault α) : Except Fault (List α) :=
  d.sortedFields.mapM fun f => make f (f.ty?.getD default)

def Block.forDefinitions (ds : List Def) (make : Def → Except Fault (Option Block)) :
    Except Fault (List Block) := do
  return (← ds.mapM make).filterMap fun b => b

end BitSchema
