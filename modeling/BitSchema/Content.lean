import BitSchema.Numeral
import BitSchema.Schema.Describe

/-!
# Contents

What can stand in a place that nobody checks: a keyword of a report, an attribute of a piece that is put
together by hand, the answer to a question about such a piece.

Contents have an order, an arithmetic and an equality of their own.  Truth values count as numbers, so
`True` and `1` are equal; numbers and texts can be compared among themselves; what cannot be compared or
calculated with is told by the sorts of both sides.
-/

namespace BitSchema

/-- **Contents.** -/
inductive Content where
  | none
  | bool (b : Bool)
  | int (n : Int)
  | text (s : String)
  /-- The piece with the given number, and its kind. -/
  | piece (kind : Kind) (n : Nat)
  /-- A sequence that takes no changes. -/
  | tuple (items : List Content)
  | list (items : List Content)
  /-- Values by keys. -/
  | table (entries : List (Content × Content))
deriving Repr

instance : Inhabited Content := ⟨.none⟩

namespace Content

def ofLiteral : Literal → Content
  | .bool b => .bool b
  | .int n => .int n
  | .str s => .text s

def literal? : Content → Option Literal
  | .bool b => some (.bool b)
  | .int n => some (.int n)
  | .text s => some (.str s)
  | _ => Option.none

def number? : Content → Option Int
  | .int n => some n
  | .bool b => some (if b then 1 else 0)
  | _ => Option.none

/-- **The sort of a content.** -/
def sort : Content → String
  | .none => "NoneType"
  | .bool _ => "bool"
  | .int _ => "int"
  | .text _ => "str"
  | .piece k _ => k.label
  | .tuple _ => "tuple"
  | .list _ => "list"
  | .table _ => "dict"

/-- **Truth.** Nothing, zero and what is empty are false. -/
def truth : Content → Bool
  | .none => false
  | .bool b => b
  | .int n => n != 0
  | .text s => !s.isEmpty
  | .piece _ _ => true
  | .tuple items => !items.isEmpty
  | .list items => !items.isEmpty
  | .table entries => !entries.isEmpty

mutual

/-- **Equality.** Pieces are equal if they are the same piece. -/
def same : Content → Content → Bool
  | .none, .none => true
  | .text s, .text t => s == t
  | .piece _ m, .piece _ n => m == n
  | .tuple xs, .tuple ys => sameItems xs ys
  | .list xs, .list ys => sameItems xs ys
  | a, b =>
    match a.number?, b.number? with
    | some m, some n => m == n
    | _, _ => false

def sameItems : List Content → List Content → Bool
  | [], [] => true
  | x :: xs, y :: ys => same x y && sameItems xs ys
  | _, _ => false

end

instance : BEq Content := ⟨same⟩

def items : Content → List Content
  | .tuple xs => xs
  | .list xs => xs
  | _ => []

def entries : Content → List (Content × Content)
  | .table es => es
  | _ => []

/-- Whether a content has the attribute of the given name is asked of pieces alone; all others have
none. -/
def lacks (c : Content) (name : String) : Fault := .noAttribute c.sort name

/-! ### Order -/

inductive Comparison where
  | less | atMost | more | atLeast
deriving DecidableEq, Repr

namespace Comparison

def sign : Comparison → String
  | .less => "<"
  | .atMost => "<="
  | .more => ">"
  | .atLeast => ">="

def ofInts : Comparison → Int → Int → Bool
  | .less, a, b => a < b
  | .atMost, a, b => a ≤ b
  | .more, a, b => b < a
  | .atLeast, a, b => b ≤ a

def ofTexts : Comparison → String → String → Bool
  | .less, a, b => a < b
  | .atMost, a, b => !(decide (b < a))
  | .more, a, b => b < a
  | .atLeast, a, b => !(decide (a < b))

end Comparison

/-- **Comparing** two contents. -/
def compare (o : Comparison) (a b : Content) : Except Fault Bool :=
  match a.number?, b.number? with
  | some m, some n => .ok (o.ofInts m n)
  | _, _ =>
    match a, b with
    | .text s, .text t => .ok (o.ofTexts s t)
    | a, b =>
      .error (.mismatch ("'" ++ o.sign ++ "' not supported between instances of '" ++ a.sort ++
        "' and '" ++ b.sort ++ "'"))

/-- Whether a content stands above `low` and below `high`. -/
def strictlyBetween (low : Int) (c : Content) (high : Int) : Except Fault Bool := do
  if ← compare .less (.int low) c then compare .less c (.int high) else return false

/-! ### Arithmetic -/

def refused (sign : String) (a b : Content) : Fault :=
  .mismatch ("unsupported operand type(s) for " ++ sign ++ ": '" ++ a.sort ++ "' and '" ++ b.sort ++ "'")

/-- **Sums.** -/
def plus (a b : Content) : Except Fault Content :=
  match a.number?, b.number? with
  | some m, some n => .ok (.int (m + n))
  | _, _ => .error (refused "+" a b)

def repeated (n : Int) (s : String) : String :=
  String.join (List.replicate n.toNat s)

/-- **Products.** A number of times a text is that text repeated. -/
def times (a b : Content) : Except Fault Content :=
  match a.number?, b with
  | some m, .text s => .ok (.text (repeated m s))
  | some m, b =>
    match b.number? with
    | some n => .ok (.int (m * n))
    | Option.none => .error (refused "*" a b)
  | Option.none, b => .error (refused "*" a b)

/-! ### Keys -/

def checkKey (c : Content) : Except Fault Unit :=
  let ok := match c with
    | .list _ => false
    | .table _ => false
    | .piece k _ => k.closes
    | _ => true
  if ok then .ok () else .error (.mismatch ("unhashable type: '" ++ c.sort ++ "'"))

def entry? (entries : List (Content × Content)) (key : Content) : Option Content :=
  entries.lookup key

/-! ### Wording -/

mutual

def quoted : Content → Except Fault String
  | .none => .ok "None"
  | .bool b => .ok (shownBool b)
  | .int n => Numeral.ofInt n
  | .text s => .ok (Text.quote s)
  | .piece k _ => .ok k.label
  | .tuple items => return listShown (← quotedItems items)
  | .list items => return "[" ++ ", ".intercalate (← quotedItems items) ++ "]"
  | .table entries => return "\x7b" ++ ", ".intercalate (← quotedEntries entries) ++ "\x7d"

def quotedItems : List Content → Except Fault (List String)
  | [] => .ok []
  | c :: r => return (← quoted c) :: (← quotedItems r)

def quotedEntries : List (Content × Content) → Except Fault (List String)
  | [] => .ok []
  | (key, value) :: r => return ((← quoted key) ++ ": " ++ (← quoted value)) :: (← quotedEntries r)

end

def plain : Content → Except Fault String
  | .text s => .ok s
  | c => c.quoted

end Content

end BitSchema
