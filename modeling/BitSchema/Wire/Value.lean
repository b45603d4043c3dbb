import BitSchema.Wire.Bits

/-!
# Values

Values of messages: truth values, integers, runs of bytes, lists and records.  Any value can be stored
anywhere; what does not fit shows when the value is packed.

A record has the name of its message and knows its `Slot`s: for each field its number, its name and how
its leaves are reached (`Access`).  Values can also be put under names that are no fields; their slots
have the number zero, and they are neither shown nor packed.
-/

namespace BitSchema.Wire

inductive Leaf where
  | bool
  | unsigned
  /-- Signed integers of `width` bits. -/
  | signed (width : Nat)
deriving DecidableEq, Repr

/-- How the leaves of a field are reached. -/
inductive Access where
  /-- Through `depth` arrays to a single value. -/
  | leaf (depth : Nat) (kind : Leaf)
  /-- Through `depth` arrays to a record. -/
  | child (depth : Nat)
  /-- Not at all: a value of the given kind stands in the place of the function that leads there. -/
  | taken (kind : String) (access : Access)
deriving DecidableEq, Repr

structure Slot where
  number : Nat
  name : String
  access : Option Access
deriving DecidableEq, Repr

def Slot.isField (s : Slot) : Bool := s.number != 0

/-- **Values.** -/
inductive Value where
  | bool (b : Bool)
  | int (n : Int)
  | bytes (bs : Array UInt8)
  | list (items : Array Value)
  | record (title : String) (slots : List (Slot × Value))

instance : Inhabited Value := ⟨.int 0⟩

namespace Value

def kindWord : Value → String
  | .bool _ => "bool"
  | .int _ => "int"
  | .bytes _ => "bytearray"
  | .list _ => "list"
  | .record title _ => title

/-- The integer a value stands for, if it stands for one. -/
def asInt? : Value → Option Int
  | .bool b => some (if b then 1 else 0)
  | .int n => some n
  | _ => none

/-! ### Elements -/

def element (v : Value) (k : Nat) : Except Fault Value :=
  match v with
  | .bytes bs =>
    match bs[k]? with
    | some b => .ok (.int b.toNat)
    | none => .error (.indexRange .bytes)
  | .list items =>
    match items[k]? with
    | some x => .ok x
    | none => .error (.indexRange .list)
  | v => .error (.mismatch ("'" ++ v.kindWord ++ "' object is not subscriptable"))

def toByte (v : Value) : Except Fault UInt8 :=
  match v.asInt? with
  | some n => if 0 ≤ n ∧ n < 256 then .ok (UInt8.ofNat n.toNat) else .error .byteRange
  | none =>
    .error (.mismatch ("'" ++ v.kindWord ++ "' object cannot be interpreted as an integer"))

def setElement (v : Value) (k : Nat) (x : Value) : Except Fault Value :=
  match v with
  | .bytes bs => do
    let b ← x.toByte
    if k < bs.size then return .bytes (bs.setIfInBounds k b) else throw (.indexRange .bytes)
  | .list items =>
    if k < items.size then .ok (.list (items.setIfInBounds k x)) else .error .assignmentRange
  | v => .error (.mismatch ("'" ++ v.kindWord ++ "' object does not support item assignment"))

/-- The element reached by following indices. -/
def follow (v : Value) : List Nat → Except Fault Value
  | [] => .ok v
  | k :: ks => do (← v.element k).follow ks

/-- Changes the element reached by following indices. -/
def update (v : Value) (f : Value → Except Fault Value) : List Nat → Except Fault Value
  | [] => f v
  | k :: ks => do
    let x ← v.element k
    v.setElement k (← x.update f ks)

/-- Puts a value in the place reached by following indices, which need not have been read. -/
def assign (v : Value) (x : Value) : List Nat → Except Fault Value
  | [] => .ok x
  | [k] => v.setElement k x
  | k :: ks => do
    let y ← v.element k
    v.setElement k (← y.assign x ks)

/-! ### Fields -/

def field? (slots : List (Slot × Value)) (name : String) : Option Value :=
  (slots.find? fun s => s.1.name == name).map (·.2)

/-- The fields with another value for one of them, or with a value under a further name. -/
def setField (slots : List (Slot × Value)) (name : String) (x : Value) : List (Slot × Value) :=
  if slots.any fun s => s.1.name == name then
    slots.map fun s => if s.1.name == name then (s.1, x) else s
  else slots ++ [(⟨0, name, none⟩, x)]

end Value

/-! ### Paths -/

inductive Step where
  | field (name : String)
  /-- An element; negative indices count from the end. -/
  | index (k : Int)
deriving DecidableEq, Repr

namespace Value

def size : Value → Nat
  | .bytes bs => bs.size
  | .list items => items.size
  | _ => 0

/-- An index counted from the start; beyond the end if there is no such element. -/
def position (v : Value) (k : Int) : Nat :=
  if k ≥ 0 then k.toNat else if k + v.size ≥ 0 then (k + v.size).toNat else v.size

def checkIndex (v : Value) (k : Int) : Except Fault Unit :=
  match v with
  | .bytes _ | .list _ => if isIndex k then .ok () else .error .indexSize
  | _ => .ok ()

def child (v : Value) : Step → Except Fault Value
  | .index k => do
    v.checkIndex k
    v.element (v.position k)
  | .field name =>
    match v with
    | .record title slots =>
      match field? slots name with
      | some x => .ok x
      | none => .error (.noAttribute title name)
    | v => .error (.noAttribute v.kindWord name)

/-- The value with another one where a step leads to. -/
def putChild (v x : Value) : Step → Except Fault Value
  | .index k => do
    v.checkIndex k
    v.setElement (v.position k) x
  | .field name =>
    match v with
    | .record title slots => .ok (.record title (setField slots name x))
    | v => .error (.noAttribute v.kindWord name)

/-- **Reading** what a path leads to. -/
def get (v : Value) : List Step → Except Fault Value
  | [] => .ok v
  | s :: ss => do (← v.child s).get ss

/-- **Writing** where a path leads to. -/
def set (v x : Value) : List Step → Except Fault Value
  | [] => .ok x
  | [s] => v.putChild x s
  | s :: ss => do
    let y ← v.child s
    v.putChild (← y.set x ss) s

end Value

end BitSchema.Wire
