import BitSchema.Content
import BitSchema.Schema.Rules

/-!
# Building schemas by hand

A workbench holds the pieces of schemas while they are put together: comments, types and definitions.
Pieces refer to each other by number, so a scope can still take members after other pieces refer to it,
and scopes may even hold each other.

A piece has a kind and attributes.  Nobody checks what is put into an attribute; what makes no sense
there shows when it is used.  The attributes a piece of a kind starts with are listed in `Kind.slots`.

A piece can be closed, and then takes no more changes.  A closed piece remembers the answers it has given
(`Work.remembered`), even if what it refers to changes afterwards.

Work at the bench may fail, and what it has changed until then stays changed.
-/

namespace BitSchema

structure KindSlot where
  name : String
  /-- Its content unless another is given. -/
  initial : Content
  /-- Whether the attribute falls back to its first content when it is taken away. -/
  lasting : Bool := true

/-- **Pieces.** -/
structure Piece where
  kind : Kind
  /-- The attributes. -/
  given : List (String × Content)
  closed : Bool := false

structure Question where
  piece : Nat
  name : String
  args : List Content

namespace Question

def same (a b : Question) : Bool :=
  a.piece == b.piece && a.name == b.name && Content.sameItems a.args b.args

end Question

/-! ### The pieces every bench starts with -/

def missingType : Content := .piece .type 0

def missingUint : Content := .piece .uint 1

def openType : Content := .piece .type 2

namespace Kind

def literalKind? : Kind → Option LiteralKind
  | .integerOption | .integerConstant => some .integer
  | .booleanOption | .booleanConstant => some .boolean
  | .stringOption | .stringConstant => some .string
  | _ => none

def defaultLiteral (k : Kind) : Literal :=
  match k.literalKind? with
  | some .integer => .int 0
  | some .boolean => .bool false
  | some .string => .str ""
  | none => .str "_value_missing"

def nodeSlots : List KindSlot :=
  [⟨"token", .text "", true⟩, ⟨"lineno", .int 0, true⟩, ⟨"filepath", .text "", true⟩]

def definitionSlots : List KindSlot :=
  [⟨"name", .text "", true⟩, ⟨"scope_stack", .tuple [], true⟩, ⟨"comment_block", .tuple [], true⟩,
   ⟨"indent", .int 0, true⟩, ⟨"_bound", .none, true⟩]

def ownSlots (k : Kind) : List KindSlot :=
  match k with
  | .uint | .int => [⟨"cap", .int 0, true⟩]
  | .array => [⟨"element_type", missingType, false⟩, ⟨"cap", .int 0, true⟩]
  | .typeAlias => [⟨"type", missingType, false⟩]
  | .enum => [⟨"type", missingUint, true⟩]
  | .enumField => [⟨"value", .int 0, true⟩]
  | .messageField => [⟨"type", openType, false⟩, ⟨"number", .int 0, true⟩]
  | k =>
    if k.within .option || k.within .constant then
      [⟨"value", .ofLiteral k.defaultLiteral, true⟩]
    else []

/-- **The attributes** of pieces of a kind, in the order of descriptions. -/
def slots (k : Kind) : List KindSlot :=
  nodeSlots ++ (if k.within .definition then definitionSlots else []) ++
    (if k.within .type then [⟨"_is_missing", .bool false, true⟩] else []) ++
    (if k.within .extensibleType then [⟨"extensible", .bool false, true⟩] else []) ++
    (if k.within .scope then [⟨"members", .table [], false⟩] else []) ++ k.ownSlots

def slot? (k : Kind) (name : String) : Option KindSlot :=
  k.slots.find? fun s => s.name == name

end Kind

namespace Piece

def get? (p : Piece) (name : String) : Option Content :=
  match p.given.lookup name with
  | some c => some c
  | none => ((p.kind.slot? name).filter KindSlot.lasting).map KindSlot.initial

def closedName : String := "__frozen__"

def closedWord (p : Piece) : Content := (p.given.lookup closedName).getD (.bool p.closed)

def put (p : Piece) (name : String) (c : Content) : Piece :=
  { p with given := (name, c) :: p.given.filter fun g => g.1 != name }

def erase (p : Piece) (name : String) : Piece :=
  { p with given := p.given.filter fun g => g.1 != name }

end Piece

/-- **Workbenches.** -/
structure Workbench where
  pieces : List Piece := [
    ⟨.type, (Kind.slots .type).map fun s => (s.name, s.initial), false⟩,
    ⟨.uint, (Kind.slots .uint).map fun s => (s.name, s.initial), true⟩,
    ⟨.type, (Kind.slots .type).map fun s => (s.name, s.initial), false⟩]
  /-- The answers of closed pieces. -/
  memory : List (Question × Content) := []

namespace Workbench

def piece? (b : Workbench) (n : Nat) : Option Piece := b.pieces[n]?

def refer (b : Workbench) (n : Nat) : Content :=
  match b.piece? n with
  | some p => .piece p.kind n
  | none => .none

end Workbench

/-- **Work at the bench.** -/
abbrev Work (α : Type) := ExceptT Fault (StateM Workbench) α

namespace Work

def ofExcept {α : Type} (x : Except Fault α) : Work α :=
  match x with
  | .ok a => pure a
  | .error f => throw f

def piece (n : Nat) : Work Piece := do
  match (← get).piece? n with
  | some p => return p
  | none => throw (.unknownKey "")

def replace (n : Nat) (p : Piece) : Work Unit :=
  modify fun b => { b with pieces := b.pieces.set n p }

def lay (p : Piece) : Work Nat := do
  let b ← get
  set { b with pieces := b.pieces ++ [p] }
  return b.pieces.length

/-- **The content of an attribute.** -/
def attributeOf (n : Nat) (name : String) : Work Content := do
  let p ← piece n
  match p.get? name with
  | some c => return c
  | none => throw (.noAttribute p.kind.label name)

def attributeIn (c : Content) (name : String) : Work Content :=
  match c with
  | .piece _ n => attributeOf n name
  | c => throw (c.lacks name)

/-- **Answers are remembered** by closed pieces. -/
def remembered (n : Nat) (name : String) (args : List Content) (answer : Work Content) :
    Work Content := do
  if (← piece n).closed then
    args.forM fun a => ofExcept a.checkKey
    let question : Question := ⟨n, name, args⟩
    match (← get).memory.find? fun m => m.1.same question with
    | some m => return m.2
    | none =>
      let c ← answer
      modify fun b => { b with memory := (question, c) :: b.memory }
      return c
  else answer

def depth : Work Nat := do
  return (← get).pieces.length + 1

end Work

end BitSchema
