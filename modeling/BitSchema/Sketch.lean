/-!
# Sketches

Plain data, in which the answers to questions about schemas are written down.
-/

namespace BitSchema

/-- **Plain data.** -/
inductive Sketch where
  | none
  | bool (b : Bool)
  | int (n : Int)
  /-- The number that digits stand for of which so many come after the point. -/
  | decimal (digits : Int) (places : Nat)
  | text (s : String)
  | list (items : List Sketch)
  | record (entries : List (String × Sketch))

namespace Sketch

def ofOption {α : Type} (f : α → Sketch) : Option α → Sketch
  | some a => f a
  | Option.none => .none

def pair (a b : Sketch) : Sketch := .list [a, b]

end Sketch

end BitSchema
