import BitSchema.Fault

/-!
# Positions inside a message

While a message is packed or unpacked, the current leaf is addressed by the number of its field and the
indices of the arrays around it, outermost first.  A field number that is not positive addresses nothing;
it marks the message at the top.
-/

namespace BitSchema.Wire

/-- **Positions** inside a message, with indices of a type of numbers. -/
structure Indexer (ι : Type) where
  field : Int
  /-- Indices of the arrays around the current leaf, outermost first. -/
  stack : List ι := []
deriving DecidableEq, Repr

namespace Indexer

variable {ι : Type}

def top : Indexer ι := ⟨-1, []⟩

/-- Whether the position addresses a field. -/
def isValid (x : Indexer ι) : Bool := x.field > 0

def up [OfNat ι 0] (x : Indexer ι) : Indexer ι := { x with stack := x.stack ++ [0] }

/-- Leaves the innermost array. -/
def down (x : Indexer ι) : Except Fault (Indexer ι) :=
  if x.stack.isEmpty then .error .emptyPop else .ok { x with stack := x.stack.dropLast }

/-- Goes to an element of the innermost array. -/
def replace (x : Indexer ι) (k : ι) : Except Fault (Indexer ι) :=
  if x.stack.isEmpty then .error .assignmentRange
  else .ok { x with stack := x.stack.dropLast ++ [k] }

/-- The index at a depth; negative depths count from the innermost array. -/
def at? (x : Indexer ι) (n : Int) : Except Fault ι :=
  let k := if n < 0 then n + x.stack.length else n
  if k < 0 then .error (.noElement .list n)
  else
    match x.stack[k.toNat]? with
    | some v => .ok v
    | none => .error (.noElement .list n)

end Indexer

end BitSchema.Wire
