import BitSchema.Query

/-!
# Operands

What a dialect is given to write: a node of a schema, a piece on a bench, a kind of definitions or a plain
content.  Whatever it is, it can be shown in a text and asked for an attribute by name.
-/

namespace BitSchema

/-- **Operands.** -/
structure Operand where
  /-- The content; a node of a schema counts as a piece of its kind. -/
  content : Content
  /-- The node, unknown if the operand is none. -/
  node : Ty := default
  kind : Option Kind := none
  /-- The operand as it stands in a text. -/
  shown : Except Fault String
  /-- Fails if the operand does not know an attribute. -/
  ask : String → Except Fault Unit

namespace Operand

def ofContent (c : Content) : Operand :=
  { content := c, shown := ((Work.shown c).run.run {}).1, ask := fun name => .error (c.lacks name) }

def ofKind (k : Kind) : Operand :=
  { content := .bool true, kind := some k
    shown := .ok ("<class 'bitproto._ast." ++ k.label ++ "'>")
    ask := fun name =>
      .error (.badAttribute ("type object '" ++ k.label ++ "' has no attribute '" ++ name ++ "'")) }

def ofNode (env : Env) (t : Ty) : Operand :=
  { content := .piece t.kind 0, node := t, shown := .ok (env.shownNode t)
    ask := fun name => discard (env.answerOf (some t) name false) }

def ofBench (b : Workbench) : Content → Operand
  | .piece k n =>
    { content := .piece k n, node := b.view n, shown := ((Work.shown (.piece k n)).run.run b).1
      ask := fun name => ((Work.ask n name).run.run b).1 }
  | c => ofContent c

instance : Inhabited Operand := ⟨ofContent .none⟩

def isNone (a : Operand) : Bool :=
  match a.content with
  | .none => true
  | _ => false

def definition (a : Operand) : Def := a.node.definition

def isA (a : Operand) (k : Kind) : Bool :=
  match a.content with
  | .piece own _ => own.within k
  | _ => false

def name? (a : Operand) : Except Fault (Option String) :=
  if a.isNone then .ok none else some <$> a.shown

def caseKind? (a : Operand) : Option Kind :=
  if a.kind.isSome then a.kind else if a.content.truth then some .node else none

def start (a : Operand) : Except Fault String :=
  match a.content with
  | .text s => .ok s
  | c => .error (c.refused "+" (.text ""))

def appended (a : Operand) : Except Fault String :=
  match a.content with
  | .text s => .ok s
  | c => .error (.mismatch ("can only concatenate str (not \"" ++ c.sort ++ "\") to str"))

def int (a : Operand) : Int := a.content.number?.getD 0

def counter (a : Operand) : Except Fault Int :=
  match a.content with
  | .list (i :: _) => .ok (i.number?.getD 0)
  | .list [] => .error (.indexRange .list)
  | c => .error (.mismatch ("'" ++ c.sort ++ "' object is not subscriptable"))

end Operand

end BitSchema
