import BitSchema.Workbench.Basic

/-!
# Views of pieces

`Workbench.view` is a piece as a node of a schema, with all it refers to.  It shows what the attributes
say where they make sense; elsewhere it shows the defaults.
-/

namespace BitSchema

def Ty.definition : Ty → Def
  | .named d => d
  | _ => default

namespace Piece

def text (p : Piece) (name : String) : String :=
  match p.get? name with
  | some (.text s) => s
  | _ => ""

/-- An integer attribute; zero if it holds something else. -/
def int (p : Piece) (name : String) : Int :=
  ((p.get? name).bind Content.number?).getD 0

def truth (p : Piece) (name : String) : Bool :=
  ((p.get? name).map Content.truth).getD false

def ref? (p : Piece) (name : String) : Option Nat :=
  match p.get? name with
  | some (.piece _ n) => some n
  | _ => none

def refs (p : Piece) (name : String) : List Nat :=
  (((p.get? name).map Content.items).getD []).filterMap fun
    | .piece _ n => some n
    | _ => none

def members (p : Piece) : List (String × Nat) :=
  (((p.get? "members").map Content.entries).getD []).filterMap fun
    | (.text s, .piece _ n) => some (s, n)
    | _ => none

def literal (p : Piece) : Literal :=
  ((p.get? "value").bind Content.literal?).getD p.kind.defaultLiteral

def origin (p : Piece) : Origin :=
  { token := p.text "token", line := p.int "lineno", file := p.text "filepath" }

end Piece

namespace Workbench

def scopeRef (b : Workbench) (n : Nat) : ScopeRef :=
  match (b.piece? n).map Piece.kind with
  | some .enum => ⟨n, .enum⟩
  | some .message => ⟨n, .message⟩
  | _ => ⟨n, .proto⟩

def comment (b : Workbench) (n : Nat) : Comment :=
  let o := ((b.piece? n).map Piece.origin).getD {}
  ⟨o.token, o.line, o.file⟩

def header (b : Workbench) (n : Nat) (p : Piece) : Header :=
  { origin := p.origin, id := n, name := p.text "name"
    scopes := (p.refs "scope_stack").map b.scopeRef
    comments := (p.refs "comment_block").map b.comment
    indent := p.int "indent"
    bound := p.ref? "_bound"
    frozen := p.closed }

/-- What pieces look like whose references are followed `depth` times. -/
def viewTo (b : Workbench) : Nat → Nat → Ty
  | 0, _ => default
  | depth + 1, n =>
    match b.piece? n with
    | none => default
    | some p =>
      let h := b.header n p
      let target := fun (name : String) => ((p.ref? name).map (b.viewTo depth)).getD default
      let members := p.members.map fun m => (m.1, (b.viewTo depth m.2).definition)
      let cap := (p.int "cap").toNat
      match p.kind with
      | .bool => .bool h.origin
      | .byte => .byte h.origin
      | .uint => .uint h.origin cap
      | .int => .int h.origin cap
      | .array => .array h.origin (target "element_type") cap (p.truth "extensible")
      | .typeAlias => .named (.typeAlias h (target "type"))
      | .enum =>
        let t := target "type"
        .named (.enum h t.origin t.nbits members)
      | .enumField => .named (.enumField h (p.int "value").toNat)
      | .messageField => .named (.field h (target "type") (p.int "number").toNat)
      | .message => .named (.message h (p.truth "extensible") members)
      | .proto => .named (.proto h members)
      | k =>
        if k.within .option then .named (.option h k.literalKind? p.literal)
        else if k.within .constant then .named (.constant h k.literalKind? p.literal)
        else .unknown h.origin (p.truth "_is_missing")

/-- **The view of a piece.**  References that lead in no circle pass each piece once, so as many steps
as there are pieces follow all of them. -/
def view (b : Workbench) (n : Nat) : Ty := b.viewTo b.pieces.length n

def env (b : Workbench) : Env :=
  ⟨(List.range b.pieces.length).filterMap fun n =>
    match b.view n with
    | .named d => if d.isScope then some d else none
    | _ => none⟩

end Workbench

end BitSchema
