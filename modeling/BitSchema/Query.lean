import BitSchema.Target.Names
import BitSchema.Workbench

/-!
# Asking the nodes of a schema by name

Nodes of a finished schema know the same names as pieces on a bench (`Kind.knows`).  `Env.attributeOf`
gives the attribute with a name, `Env.answerOf` the answer to a question, and `Env.follow` goes from a
node to another one.  All of them are written down as sketches.
-/

namespace BitSchema

def Literal.sketch : Literal → Sketch
  | .bool b => .bool b
  | .int n => .int n
  | .str s => .text s

def Kind.asked (node : Option Ty) (name : String) : Except Fault Ty :=
  match node with
  | some t => if t.kind.knows name then .ok t else .error (.noAttribute t.kind.label name)
  | none => .error (Content.none.lacks name)

namespace Env

/-! ### Writing nodes down -/

def sketch (env : Env) (d : Def) : Sketch :=
  .record [("kind", .text d.kind.label), ("ref", .text (".".intercalate (env.path d)))]

def sketchType (env : Env) : Ty → Sketch
  | .named d => env.sketch d
  | .array o element cap ext =>
    .record [("kind", .text "Array"), ("token", .text o.token), ("line", .int o.line),
      ("cap", .int cap), ("extensible", .bool ext), ("nbits", .int (Ty.array o element cap ext).nbits),
      ("element", env.sketchType element)]
  | t =>
    .record ([("kind", .text t.kind.label), ("token", .text t.origin.token),
      ("line", .int t.origin.line)] ++
      match t with
      | .uint _ cap | .int _ cap => [("cap", .int cap)]
      | _ => [])

def sketchMembers (env : Env) (ms : List (String × Def)) : Sketch :=
  .list (ms.map fun m => .pair (.text m.1) (env.sketch m.2))

/-! ### Attributes -/

/-- **From a node to another**, which is an attribute of it. -/
def follow (env : Env) (node : Option Ty) (name : String) : Except Fault (Option Ty) := do
  match name, ← Kind.asked node name with
  | "type", .named d => return d.ty?
  | "element_type", .array _ e _ _ => return some e
  | "bound", .named d => return some (.named (← env.boundOrFail d))
  | "message", .named d => return some (.named (← env.messageOf d))
  | "enum", .named d => return some (.named (← env.enumOf d))
  | "_bound", .named d => return (env.bound? d).map .named
  | _, _ => return none

/-- **The attribute of a node with a name.** -/
def attributeOf (env : Env) (node : Option Ty) (name : String) : Except Fault Sketch := do
  let t ← Kind.asked node name
  let d := t.definition
  match name, t with
  | "token", _ => return .text t.origin.token
  | "lineno", _ => return .int t.origin.line
  | "filepath", _ => return .text t.origin.file
  | "name", _ => return .text d.name
  | "indent", _ => return .int d.header.indent
  | "number", _ => return .int d.number
  | "value", _ => return (d.literal?.map Literal.sketch).getD (.int d.value)
  | "extensible", .array _ _ _ e => return .bool e
  | "extensible", _ => return .bool d.ext
  | "cap", .uint _ cap | "cap", .int _ cap | "cap", .array _ _ cap _ => return .int cap
  | "_is_missing", .unknown _ missing => return .bool missing
  | "_is_missing", _ => return .bool false
  | "members", _ => return env.sketchMembers d.members
  | "scope_stack", _ =>
    return .list (d.header.scopes.map fun s => .ofOption env.sketch (env.scope? s.id))
  | "comment_block", _ =>
    return .list (d.header.comments.map fun c =>
      .record [("kind", .text "Comment"), ("token", .text c.source), ("line", .int c.line)])
  | _, t => return .ofOption env.sketchType (← env.follow (some t) name)

/-! ### Questions -/

/-- **The answer to a question without arguments**; listings may be recursive. -/
def answerOf (env : Env) (node : Option Ty) (name : String) (recursive : Bool) :
    Except Fault Sketch := do
  let t ← Kind.asked node name
  let d := t.definition
  let numbered := fun (ds : List Def) =>
    Sketch.list (ds.map fun f => .pair (.int f.number) (env.sketch f))
  match Work.listedKind? name with
  | some k => return env.sketchMembers (← d.select k recursive none)
  | none =>
    match name with
    | "nbits" => return .int (← t.size)
    | "nbytes" => return .int (← bytesOfBits (← t.size))
    | "ahead_nbits" => return .int (← t.lengthBits)
    | "nfields" => return .int d.fields.length
    | "fields" => return .list ((if d.isA .enum then d.enumFields else d.fields).map env.sketch)
    | "sorted_fields" => return .list (d.sortedFields.map env.sketch)
    | "number_to_field" => return numbered d.fields
    | "number_to_field_sorted" => return numbered d.sortedFields
    | "name_to_values" => return .list (d.valuesByName.map fun e => .pair (.text e.1) (.int e.2))
    | "value_to_names" => return .list (d.namesByValue.map fun e => .pair (.int e.1) (.text e.2))
    | "options" | "options_as_dict" => return env.sketchMembers (← d.options)
    | "unwrap" => return .ofOption Literal.sketch d.literal?
    | "type_name" => return .text ((d.kind.literalKind?.map LiteralKind.word).getD "option")
    | "is_frozen" => return .bool t.frozen
    | _ => return .none

end Env

end BitSchema
