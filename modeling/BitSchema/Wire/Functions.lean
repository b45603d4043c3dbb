import BitSchema.Wire.Codec

/-!
# Functions of records

The leaves of a record are taken and added by functions of its class, and the records inside it are entered by
another one.  These functions are looked for in the record itself, at every depth: a value that is kept there under
the name of a function stands in its place, and cannot be called.

`Value.calls` says that no value stands in the place of a function that is called.  Otherwise `Value.screened` marks
what cannot be reached (`Access.taken`), and `Value.unscreened` takes these marks away.
-/

namespace BitSchema.Wire

/-- The functions that take a byte of a leaf, add a byte to a leaf and enter a record. -/
def takerName : String := "bp_get_byte"

@[inherit_doc takerName] def adderName : String := "bp_set_byte"

@[inherit_doc takerName] def entryName : String := "bp_get_accessor"

namespace Access

def isLeaf : Access → Bool
  | .leaf _ _ => true
  | _ => false

/-- The name of the function that reaches there, if the leaves are reached by `leaf`. -/
def function (leaf : String) (access : Access) : String := if access.isLeaf then leaf else entryName

/-- The way that the values among `slots` leave open. -/
def screened (leaf : String) (slots : List (Slot × Value)) (access : Access) : Access :=
  match Value.field? slots (access.function leaf) with
  | some v => .taken v.kindWord access
  | none => access

def unscreened : Access → Access
  | .taken _ access => access
  | access => access

end Access

namespace Value

mutual

/-- Whether something is true of the slots of every record inside a value. -/
def all (p : List (Slot × Value) → Bool) : Value → Bool
  | .list ⟨items⟩ => allItems p items
  | .record _ slots => p slots && allSlots p slots
  | _ => true

def allItems (p : List (Slot × Value) → Bool) : List Value → Bool
  | [] => true
  | v :: r => v.all p && allItems p r

def allSlots (p : List (Slot × Value) → Bool) : List (Slot × Value) → Bool
  | [] => true
  | (_, v) :: r => v.all p && allSlots p r

end

mutual

/-- Changes how leaves are reached in every record inside a value, given the slots of the record. -/
def mapAccess (f : List (Slot × Value) → Access → Access) : Value → Value
  | .list ⟨items⟩ => .list ⟨mapItems f items⟩
  | .record title slots => .record title (mapSlots f (f slots) slots)
  | v => v

def mapItems (f : List (Slot × Value) → Access → Access) : List Value → List Value
  | [] => []
  | v :: r => v.mapAccess f :: mapItems f r

def mapSlots (f : List (Slot × Value) → Access → Access) (here : Access → Access) :
    List (Slot × Value) → List (Slot × Value)
  | [] => []
  | (s, v) :: r => ({ s with access := s.access.map here }, v.mapAccess f) :: mapSlots f here r

end

/-- Whether the functions that are called are found among some slots, if leaves are reached by `leaf`. -/
def finds (leaf : String) (slots : List (Slot × Value)) : Bool :=
  slots.all fun s => s.1.access.all fun access => (field? slots (access.function leaf)).isNone

/-- **Whether the functions that are called are found** in every record inside a value. -/
def calls (leaf : String) (v : Value) : Bool := v.all (finds leaf)

def screened (leaf : String) (v : Value) : Value := v.mapAccess (Access.screened leaf)

def unscreened (v : Value) : Value := v.mapAccess fun _ => Access.unscreened

def slots : Value → List (Slot × Value)
  | .record _ slots => slots
  | _ => []

end Value

end BitSchema.Wire
