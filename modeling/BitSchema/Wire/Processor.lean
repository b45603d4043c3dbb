import BitSchema.Schema.Size
import BitSchema.Wire.Accessor

/-!
# Packing and unpacking

A `Processor` describes how a type is laid out in a stream of bits.  Running one moves bits between an
accessor and a buffer: bit `i` of the stream is bit `i % 8` of byte `i / 8`, and the bits of a leaf are
moved from the least significant one on, in chunks that stay inside one byte on either side.  The quotient
`i / 8` is computed with 53 binary digits.  A stream may also be entered before its start: then bytes are
counted from the end of the buffer, and those next to the start are the first byte (`Run.place`).

* An extensible array is preceded by its capacity, and an extensible message by its number of bits, in
  `aheadWidth` bits each.
* When unpacking, what the sender announced beyond what is known here is skipped.

A run that fails keeps what it has done; positions and accessors are put back all the same.
-/

namespace BitSchema.Wire

/-- **Layouts.** -/
inductive Processor where
  | bool
  | byte
  | int (width : Nat)
  | uint (width : Nat)
  | enum (width : Nat)
  | typeAlias (target : Processor)
  | array (ext : Bool) (cap : Int) (element : Processor)
  /-- The field of a message with number `number`. -/
  | field (number : Int) (of : Processor)
  /-- A message of `nbits` bits. -/
  | message (ext : Bool) (nbits : Int) (fields : List Processor)

instance : Inhabited Processor := ⟨.bool⟩

/-- A number for each kind of layout. -/
def Processor.flag : Processor → Nat
  | .bool => 1
  | .int _ => 2
  | .uint _ => 3
  | .byte => 4
  | .enum _ => 5
  | .typeAlias _ => 6
  | .array _ _ _ => 7
  | .message _ _ _ => 8
  | .field _ _ => 9

/-- The bits that announce a capacity or a size. -/
def aheadWidth : Nat := 16

/-- What changes during a run. -/
structure Machine where
  /-- The run packs; otherwise it unpacks. -/
  packing : Bool
  buffer : Array UInt8
  /-- The number of bits done. -/
  cursor : Int
  indexer : Indexer Nat
  accessor : Accessor

/-- **A step of a run.** -/
abbrev Run (α : Type) := ExceptT Fault (StateM Machine) α

namespace Run

/-- Takes over the outcome of a step that changes nothing. -/
def ofExcept {α : Type} (x : Except Fault α) : Run α :=
  match x with
  | .ok a => pure a
  | .error f => throw f

/-! ### Single bytes -/

/-- The number of bits to move next, from bit `i` of a byte on. -/
def chunk (i j n : Nat) : Nat := min (n - j) (min (8 - j % 8) (8 - i % 8))

/-- The `c` bits from bit `k` on. -/
def mask (k c : Nat) : Nat := weight (k + c) - weight k

/-- Moves bits of a byte from place `source` to place `target`. -/
def move (byte source target : Nat) : Nat :=
  if target < source then byte >>> (source - target) else byte <<< (target - source)

/-- The bit of its byte at which bit `i` of the stream stands. -/
def bitOf (i : Int) : Nat := (i % 8).toNat

/-- The byte of a buffer of `size` bytes in which bit `i` of the stream stands. -/
def place (size : Nat) (i : Int) : Except Fault Nat := do
  let k ← intEighth i
  if 0 ≤ k ∧ k < size then return k.toNat
  else if k < 0 ∧ 0 ≤ k + size then return (k + size).toNat
  else throw (.noElement .bytes k)

/-- Packs `c` bits of the addressed leaf, from bit `j` on. -/
def packByte (j c : Nat) : Run Unit := do
  let m ← get
  let byte ← ofExcept (m.accessor.getByte m.indexer (j / 8 * 8))
  let bits := move byte (j % 8) (bitOf m.cursor) &&& mask (bitOf m.cursor) c
  let k ← ofExcept (place m.buffer.size m.cursor)
  modify fun m => { m with buffer := m.buffer.modify k (· ||| UInt8.ofNat bits) }

/-- Unpacks `c` bits of the addressed leaf, from bit `j` on. -/
def unpackByte (j c : Nat) : Run Unit := do
  let m ← get
  let k ← ofExcept (place m.buffer.size m.cursor)
  let byte := (m.buffer[k]?).getD 0
  let bits := move byte.toNat (bitOf m.cursor) (j % 8) &&& mask (j % 8) c
  let accessor ← ofExcept (m.accessor.setByte m.indexer (j / 8 * 8) bits)
  modify fun m => { m with accessor }

/-- The chunks of a leaf of `n` bits from bit `j` on; there are at most `fuel` of them. -/
def leafFrom (n : Nat) : Nat → Nat → Run Unit
  | 0, _ => return ()
  | fuel + 1, j => do
    if j < n then
      let m ← get
      let c := chunk (bitOf m.cursor) j n
      if m.packing then packByte j c else unpackByte j c
      modify fun m => { m with cursor := m.cursor + c }
      leafFrom n fuel (j + c)

/-- **A leaf** of `n` bits. -/
def leaf (n : Nat) : Run Unit := leafFrom n n 0

/-! ### Announcements -/

/-- Runs with another position and accessor, and puts the old ones back. -/
def aside (x : Indexer Nat) (a : Accessor) (run : Run Unit) : Run Accessor := fun m =>
  let (r, m') := run { m with indexer := x, accessor := a }
  let back := { m' with indexer := m.indexer, accessor := m.accessor }
  match r with
  | .ok _ => (.ok m'.accessor, back)
  | .error f => (.error f, back)

/-- Packs `n` in front of what follows, or unpacks what was packed there; gives back the latter. -/
def announce (n : Int) : Run Nat := do
  if (← get).packing then
    let _ ← aside ⟨1, []⟩ (.int n) (leaf aheadWidth)
    return 0
  else
    match ← aside ⟨1, []⟩ (.int 0) (leaf aheadWidth) with
    | .int n => return n.toNat
    | _ => return 0

/-- Goes forward to bit `i`, never back. -/
def skipTo (i : Int) : Run Unit :=
  modify fun m => if m.cursor ≤ i then { m with cursor := i } else m

/-! ### Nesting -/

def inArray (run : Run Unit) : Run Unit := fun m =>
  let (r, m') := run { m with indexer := m.indexer.up }
  match m'.indexer.down with
  | .ok x => (r, { m' with indexer := x })
  | .error f => (.error f, m')

/-- Goes to an element of the innermost array. -/
def toElement (k : Nat) : Run Unit := do
  let x ← ofExcept ((← get).indexer.replace k)
  modify fun m => { m with indexer := x }

/-- Runs for each element of the innermost array from `k` on, `count` times. -/
def forElements (run : Run Unit) : Nat → Nat → Run Unit
  | 0, _ => return ()
  | count + 1, k => do
    toElement k
    run
    forElements run count (k + 1)

def inField (number : Int) (run : Run Unit) : Run Unit := fun m =>
  let (r, m') := run { m with indexer := ⟨number, []⟩ }
  (r, { m' with indexer := m.indexer })

/-- Runs inside the record that the current position addresses; at the top, in the current one. -/
def inMessage (run : Run Unit) : Run Unit := fun m =>
  if m.indexer.isValid then
    match m.accessor.child m.indexer with
    | .error f => (.error f, m)
    | .ok inner =>
      let (r, m') := run { m with accessor := inner }
      (r, { m' with accessor := m.accessor.putChild m.indexer m'.accessor })
  else run m

end Run

mutual

/-- **Running a layout.** -/
def Processor.run : Processor → Run Unit
  | .bool => Run.leaf 1
  | .byte => Run.leaf 8
  | .int width => Run.leaf width
  | .uint width => Run.leaf width
  | .enum width => Run.leaf width
  | .typeAlias target => target.run
  | .array ext cap element => Run.inArray do
    let start := (← get).cursor
    let ahead ← if ext then Run.announce cap else pure 0
    Run.forElements element.run cap.toNat 0
    if ext && !(← get).packing then Run.skipTo (start + ahead * cap)
  | .field number of => Run.inField number of.run
  | .message ext nbits fields => Run.inMessage do
    let start := (← get).cursor
    let ahead ← if ext then Run.announce nbits else pure 0
    runAll fields
    if ext && !(← get).packing then Run.skipTo (start + ahead)

def runAll : List Processor → Run Unit
  | [] => return ()
  | p :: ps => do
    p.run
    runAll ps

end

end BitSchema.Wire
