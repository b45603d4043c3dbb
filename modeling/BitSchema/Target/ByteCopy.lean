import BitSchema.Target.Types
import BitSchema.Wire.Bits

/-!
# Byte copies

Packing and unpacking a message can be written out as a straight list of statements, each of which copies
bits between one byte of a leaf and one byte of the buffer.  A `ByteCopy` is such a statement before it is
written in a language: the `Route` to the leaf, which bytes, the shift between them and the mask of the bits
that are copied.  Bytes are counted with 53 binary digits (`intEighth`).

* `Ty.copier` lists the copies of a type in the order of the buffer.
* `Dialect.statement` writes a copy in a language.
-/

namespace BitSchema

/-! ### Routes -/

namespace Dialect

def fieldPlace (place name : String) : String := place ++ "." ++ name

def elementPlace (place index : String) : String := s!"{place}[{index}]"

end Dialect

inductive RouteStep where
  /-- To the field with number `number`, which is written as `name`. -/
  | field (number : Nat) (name : String)
  | element (k : Nat)

/-- **How a leaf is reached**: from something that is written as `root`, step by step. -/
structure Route where
  root : String
  steps : List RouteStep

namespace Route

def further (r : Route) (s : RouteStep) : Route := { r with steps := r.steps ++ [s] }

def stepText (place : String) : RouteStep → String
  | .field _ name => Dialect.fieldPlace place name
  | .element k => Dialect.elementPlace place (toString k)

def text (r : Route) : String := r.steps.foldl stepText r.root

end Route

/-! ### Copies -/

/-- **A copy between two bytes.** -/
structure ByteCopy where
  /-- How the leaf is reached. -/
  route : Route
  /-- The type of the leaf. -/
  ty : Ty
  buffer : Int
  /-- The byte of the leaf. -/
  byte : Int
  /-- How far the source is shifted to the right; to the left if negative. -/
  shift : Int
  /-- The bits of the target that are written. -/
  mask : Int
  /-- The lowest of these bits. -/
  offset : Int

namespace ByteCopy

/-- The copy of `c` bits from bit `j` of a leaf to bit `i` of the buffer. -/
def pack (t : Ty) (route : Route) (i j c : Int) : Except Fault ByteCopy := do
  let mask ← Wire.maskOf (i.fmod 8) c
  return { route, ty := t, buffer := ← intEighth i, byte := ← intEighth j
           shift := j.fmod 8 - i.fmod 8, mask, offset := i.fmod 8 }

/-- The copy of `c` bits from bit `i` of the buffer to bit `j` of a leaf. -/
def unpack (t : Ty) (route : Route) (i j c : Int) : Except Fault ByteCopy := do
  let mask ← Wire.maskOf (j.fmod 8) c
  return { route, ty := t, buffer := ← intEighth i, byte := ← intEighth j
           shift := i.fmod 8 - j.fmod 8, mask, offset := j.fmod 8 }

/-- The copy of `c` bits between bit `i` of the buffer and bit `j` of a leaf. -/
def ofChunk (packing : Bool) (t : Ty) (route : Route) (i j c : Int) : Except Fault ByteCopy :=
  if packing then pack t route i j c else unpack t route i j c

def starts (c : ByteCopy) : Bool := c.offset == 0

end ByteCopy

namespace Dialect

def messageVariable : Dialect → Except Fault String
  | .c => .ok "(*m)"
  | .go => .ok "m"
  | _ => .error .notImplemented

def writesCopies : Dialect → Except Fault Unit
  | .c => .ok ()
  | .go => .ok ()
  | _ => .error .notImplemented

end Dialect

/-! ### The copies of a type -/

/-- **Lists copies** from a bit of the buffer on, and says at which bit they end. -/
abbrev Listing := Int → Except Fault (List ByteCopy × Int)

namespace Listing

def nil : Listing := fun i => .ok ([], i)

def fail (text : String) : Listing := fun _ => .error (.internal text)

def append (x y : Listing) : Listing := fun i => do
  let (first, next) ← x i
  let (rest, last) ← y next
  return (first ++ rest, last)

end Listing

abbrev Copier := Route → Listing

namespace Copier

def fail (text : String) : Copier := fun _ => .fail text

/-- The copies of a leaf of `n` bits from its bit `j` on; there are at most `fuel` of them. -/
def leafFrom (packing : Bool) (t : Ty) (n : Nat) (route : Route) : Nat → Nat → Listing
  | 0, _ => .nil
  | fuel + 1, j => fun i =>
    if j < n then do
      let c := (Wire.chunkSize i j n).toNat
      let copy ← ByteCopy.ofChunk packing t route i j c
      let (rest, last) ← leafFrom packing t n route fuel (j + c) (i + c)
      return (copy :: rest, last)
    else .ok ([], i)

/-- **The copies of a leaf.** -/
def leaf (l : Dialect) (packing : Bool) (t : Ty) : Copier := fun route i => do
  if t.nbits > 0 then l.writesCopies
  leafFrom packing t t.nbits route t.nbits 0 i

/-- The copies of `count` elements from the `k`-th on. -/
def elementsFrom (element : Copier) (route : Route) : Nat → Nat → Listing
  | 0, _ => .nil
  | count + 1, k => (element (route.further (.element k))).append (elementsFrom element route count (k + 1))

def elements (element : Copier) (cap : Nat) : Copier := fun route => elementsFrom element route cap 0

def field (l : Dialect) (f : Def) (copier : Copier) : Copier := fun route i => do
  copier (route.further (.field f.number (← l.fieldName f))) i

def fields (l : Dialect) : List (Def × Copier) → Copier
  | [], _ => .nil
  | (f, copier) :: r, route => (field l f copier route).append (fields l r route)

end Copier

/-- Where a type stands: an array holds no arrays, and an alias stands for no named type. -/
inductive TypePlace where
  | field
  | element
  /-- Behind an alias, which is the type of the leaf. -/
  | target (owner : Ty)

namespace TypePlace

def complaint : TypePlace → String
  | .field => "format_endecode_message_field got unknown type"
  | .element => "format_endecode_array got unknown element_type"
  | .target _ => "format_endecode_alias got unknown aliased type"

def owner (p : TypePlace) (t : Ty) : Ty :=
  match p with
  | .target owner => owner
  | _ => t

def leaf (l : Dialect) (packing : Bool) (p : TypePlace) (t : Ty) : Copier := Copier.leaf l packing (p.owner t)

end TypePlace

mutual

/-- **The copies of a type.** -/
def Ty.copier (l : Dialect) (packing : Bool) (p : TypePlace) : Ty → Copier
  | .unknown _ _ => Copier.fail p.complaint
  | .bool o => p.leaf l packing (.bool o)
  | .byte o => p.leaf l packing (.byte o)
  | .uint o cap => p.leaf l packing (.uint o cap)
  | .int o cap => p.leaf l packing (.int o cap)
  | .array _ element cap _ =>
    match p with
    | .element => Copier.fail p.complaint
    | _ => Copier.elements (element.copier l packing .element) cap
  | .named d => d.copier l packing p

def Def.copier (l : Dialect) (packing : Bool) (p : TypePlace) : Def → Copier
  | .typeAlias h target =>
    match p with
    | .target _ => Copier.fail p.complaint
    | _ => target.copier l packing (.target (.named (.typeAlias h target)))
  | .enum h o cap ms => p.leaf l packing (.named (.enum h o cap ms))
  | .message _ _ ms =>
    match p with
    | .target _ => Copier.fail p.complaint
    | _ =>
      Copier.fields l (((fieldCopiers l packing ms).mergeSort fun a b => a.1 ≤ b.1).map (·.2))
  | _ => Copier.fail p.complaint

def fieldCopiers (l : Dialect) (packing : Bool) : List (String × Def) → List (Nat × Def × Copier)
  | [] => []
  | (_, d) :: r => d.fieldCopier l packing ++ fieldCopiers l packing r

def Def.fieldCopier (l : Dialect) (packing : Bool) : Def → List (Nat × Def × Copier)
  | .field h t number => [(number, .field h t number, t.copier l packing .field)]
  | _ => []

end

/-! ### Statements -/

namespace Dialect

def packStatement (c : ByteCopy) : Dialect → Except Fault String
  | .c =>
    let place := c.route.text
    let assign := if c.starts then "=" else "|="
    let shift := shift c.shift
    .ok (s!"s[{c.buffer}] {assign} (((unsigned char *)&({place}))[{c.byte}] {shift}) & {c.mask};")
  | .go =>
    let place := c.route.text
    let byteShift := if c.byte > 0 then s!" >> {c.byte * 8}" else ""
    let shift := shift c.shift
    let leaf := match c.ty with
      | .bool _ => s!"bool2byte({place})"
      | .named (.typeAlias _ (.bool _)) => s!"bool2byte(bool({place}))"
      | _ => place
    .ok (s!"s[{c.buffer}] |= (byte({leaf}{byteShift}) {shift}) & {c.mask}")
  | _ => .error .notImplemented

def unpackStatement (env : Env) (c : ByteCopy) : Dialect → Except Fault String
  | .c =>
    let place := c.route.text
    let assign := if c.starts then "=" else "|="
    let shift := shift c.shift
    .ok (s!"((unsigned char *)&({place}))[{c.byte}] {assign} (s[{c.buffer}] {shift}) & {c.mask};")
  | .go => do
    let place := c.route.text
    let byteShift := if c.byte > 0 then s!" << {c.byte * 8}" else ""
    let shift := shift c.shift
    let byte := s!"byte(s[{c.buffer}] {shift}) & {c.mask}"
    let ty ← typeText .go env none c.ty
    return match c.ty with
      | .bool _ => s!"{place} = byte2bool({byte}){byteShift}"
      | .named (.typeAlias _ (.bool _)) => s!"{place} = {ty}(byte2bool({byte})){byteShift}"
      | _ => s!"{place} |= {ty}({byte}){byteShift}"
  | _ => .error .notImplemented

/-- **A copy as a statement.** -/
def statement (l : Dialect) (env : Env) (packing : Bool) (c : ByteCopy) : Except Fault String :=
  if packing then l.packStatement c else l.unpackStatement env c

/-- The statements for the copies of something, from bit `i` of the buffer on. -/
def statements (l : Dialect) (env : Env) (packing : Bool) (copier : Copier) (route : Route)
    (i : Int) : Except Fault (List String) := do
  let (copies, _) ← copier route i
  copies.mapM (l.statement env packing)

/-- **The copies that pack or unpack a message.** -/
def messageCopies (l : Dialect) (packing : Bool) (d : Def) : Except Fault (List ByteCopy) := do
  let (copies, _) ← d.copier l packing .field ⟨← l.messageVariable, []⟩ 0
  return copies

/-- **The statements that pack or unpack a message.** -/
def messageStatements (l : Dialect) (env : Env) (packing : Bool) (d : Def) : Except Fault (List String) := do
  (← l.messageCopies packing d).mapM (l.statement env packing)

end Dialect

end BitSchema
