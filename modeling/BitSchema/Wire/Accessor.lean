import BitSchema.Wire.ByteNumeral
import BitSchema.Wire.Indexer
import BitSchema.Wire.Value

/-!
# Accessors

An accessor is what bits are taken from or put into: a single integer, a record, or nothing; a value of
another kind that stands in the place of a record has no bits to take or put.  A leaf is
addressed by an `Indexer` and moved byte by byte: `Accessor.getByte` gives eight bits of the leaf and
`Accessor.setByte` adds eight bits to it.  Adding is a bitwise or, except that a truth value is replaced;
a signed leaf takes its sign from the byte that holds it.
-/

namespace BitSchema.Wire

/-- **Accessors.** -/
inductive Accessor where
  | nil
  | int (data : Int)
  | record (title : String) (slots : List (Slot × Value))
  /-- A value of the given kind that is no record. -/
  | other (kind : String)

namespace Accessor

/-- The indices of the `depth` outermost arrays. -/
def indices (x : Indexer Nat) (depth : Nat) : Except Fault (List Nat) :=
  if depth ≤ x.stack.length then .ok (x.stack.take depth) else .error (.indexRange .list)

/-- The byte from bit `shift` on of a leaf's value. -/
def leafByte (kind : Leaf) (v : Value) (shift : Nat) : Except Fault Nat :=
  match v.asInt? with
  | some n => .ok (byteAt n shift)
  | none =>
    match kind, v with
    | .bool, .bytes bs => do return byteAt (← ByteNumeral.read bs.toList) shift
    | .bool, v =>
      .error (.mismatch ("int() argument must be a string, a bytes-like object or a real number, not '"
        ++ v.kindWord ++ "'"))
    | _, v =>
      .error (.mismatch ("unsupported operand type(s) for >>: '" ++ v.kindWord ++ "' and 'int'"))

def leafBits (kind : Leaf) (shift byte : Nat) : Int :=
  match kind with
  | .signed width => signed width ((byte : Int) * weight shift)
  | _ => (byte : Int) * weight shift

/-- Adds a byte at bit `shift` to a leaf's value. -/
def addByte (kind : Leaf) (shift byte : Nat) (v : Value) : Except Fault Value :=
  match v.asInt? with
  | some n => .ok (.int (orInt n (leafBits kind shift byte)))
  | none => .error (.mismatch ("unsupported operand type(s) for |=: '" ++ v.kindWord ++ "' and 'int'"))

/-- What comes of calling a value of some kind. -/
def notCallable (kind : String) : Fault := .mismatch ("'" ++ kind ++ "' object is not callable")

def slot? (slots : List (Slot × Value)) (number : Int) : Option (Slot × Value) :=
  slots.find? fun s => (s.1.number : Int) == number

def setSlot (slots : List (Slot × Value)) (number : Int) (v : Value) : List (Slot × Value) :=
  slots.map fun s => if (s.1.number : Int) == number then (s.1, v) else s

/-- **Taking a byte** from bit `shift` on of the addressed leaf; zero if there is none. -/
def getByte (a : Accessor) (x : Indexer Nat) (shift : Nat) : Except Fault Nat :=
  match a with
  | .nil => .ok 0
  | .int data => .ok (if x.field = 1 then byteAt data shift else 0)
  | .other kind => .error (.noAttribute kind "bp_get_byte")
  | .record _ slots =>
    match slot? slots x.field with
    | some (⟨_, _, some (.leaf depth kind)⟩, v) => do leafByte kind (← v.follow (← indices x depth)) shift
    | some (⟨_, _, some (.taken kind _)⟩, _) => .error (notCallable kind)
    | _ => .ok 0

/-- **Adding a byte** at bit `shift` to the addressed leaf; nothing happens if there is none. -/
def setByte (a : Accessor) (x : Indexer Nat) (shift byte : Nat) : Except Fault Accessor :=
  match a with
  | .nil => .ok .nil
  | .int data => .ok (.int (if x.field = 1 then orInt data ((byte : Int) * weight shift) else data))
  | .other kind => .error (.noAttribute kind "bp_set_byte")
  | .record title slots =>
    match slot? slots x.field with
    | some (⟨_, _, some (.leaf depth kind)⟩, v) => do
      let ks ← indices x depth
      let v ← match kind with
        | .bool => v.assign (.bool (byte != 0)) ks
        | _ => v.update (addByte kind shift byte) ks
      return .record title (setSlot slots x.field v)
    | some (⟨_, _, some (.taken kind _)⟩, _) => .error (notCallable kind)
    | _ => .ok a

/-- **Entering a record** that the addressed field holds; nothing is entered if there is none. -/
def child (a : Accessor) (x : Indexer Nat) : Except Fault Accessor :=
  match a with
  | .record _ slots =>
    match slot? slots x.field with
    | some (⟨_, _, some (.child depth)⟩, v) => do
      match ← v.follow (← indices x depth) with
      | .record title inner => return .record title inner
      | w => return .other w.kindWord
    | some (⟨_, _, some (.taken kind _)⟩, _) => .error (notCallable kind)
    | _ => .ok .nil
  | .other kind => .error (.noAttribute kind "bp_get_accessor")
  | _ => .ok .nil

/-- **Leaving a record**: the accessor with the record put back. -/
def putChild (a : Accessor) (x : Indexer Nat) (inner : Accessor) : Accessor :=
  match a, inner with
  | .record title slots, .record innerTitle innerSlots =>
    match slot? slots x.field with
    | some (⟨_, _, some (.child depth)⟩, v) =>
      match v.update (fun _ => .ok (.record innerTitle innerSlots)) (x.stack.take depth) with
      | .ok v => .record title (setSlot slots x.field v)
      | .error _ => a
    | _ => a
  | _, _ => a

end Accessor

end BitSchema.Wire
