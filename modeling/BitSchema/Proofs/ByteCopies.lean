import BitSchema.Proofs.LeafChunks
import BitSchema.Proofs.WireFormat
import BitSchema.Target.ByteCopy

/-!
# Carrying out byte copies

What the statements do that a message is packed and unpacked with.  A leaf is kept in memory as a machine integer, byte
by byte and the lowest one first (`stored`), and a copy moves bits between one of these bytes and one of the buffer.

* `Value.along` and `Value.putAlong` follow a route through a value.
* `ByteCopy.packStep` and `ByteCopy.unpackStep` carry out one copy.  They fail if the copy leads outside of the buffer
  or of the leaf.
* `Listing.Takes` says that copies can be listed and what carrying them out one after the other does.
* `Copied` says what a copy does to the bits of the row of bytes that it writes to (`writeByte_moved`).
-/

namespace BitSchema

open Wire List

/-! ### Routes through values -/

namespace Wire.Value

/-- The slots with another value in the first one of a field number, if there is one. -/
def putSlot (number : Nat) (x : Value) : List (Slot × Value) → Option (List (Slot × Value))
  | [] => none
  | (s, y) :: r => if s.number = number then some ((s, x) :: r) else (putSlot number x r).map ((s, y) :: ·)

end Wire.Value

namespace RouteStep

def get : RouteStep → Value → Option Value
  | .field number _, v => v.part? number
  | .element k, v => v.item? k

/-- Puts something where a step leads to.  A row of bytes takes nothing but bytes. -/
def put : RouteStep → Value → Value → Option Value
  | .field number _, .record title slots, x => (Value.putSlot number x slots).map (.record title)
  | .element k, .list items, x => if k < items.size then some (.list (items.setIfInBounds k x)) else none
  | .element k, .bytes bs, .int n =>
    if k < bs.size ∧ 0 ≤ n ∧ n < 256 then some (.bytes (bs.setIfInBounds k (UInt8.ofNat n.toNat))) else none
  | _, _, _ => none

end RouteStep

namespace Wire.Value

/-- **What a route leads to.** -/
def along : List RouteStep → Value → Option Value
  | [], v => some v
  | s :: p, v => (s.get v).bind (along p)

/-- **Puts something where a route leads to.** -/
def putAlong : List RouteStep → Value → Value → Option Value
  | [], _, x => some x
  | s :: p, v, x => (s.get v).bind fun y => (putAlong p y x).bind (s.put v)

variable {number : Nat} {x y : Value} {slots slots' : List (Slot × Value)}

theorem slot?_cons (s : Slot) (y : Value) (r : List (Slot × Value)) (number : Nat) :
    Accessor.slot? ((s, y) :: r) number = if s.number = number then some (s, y) else Accessor.slot? r number := by
  unfold Accessor.slot?
  by_cases h : s.number = number
  · simp [h]
  · simp [h]

/-- What was put into a slot is found there, until something else is put there. -/
theorem putSlot_spec (h : putSlot number x slots = some slots') :
    (Accessor.slot? slots' number).map (·.2) = some x ∧ ∀ y, putSlot number y slots' = putSlot number y slots := by
  induction slots generalizing slots' with
  | nil => cases h
  | cons s r ih =>
    obtain ⟨s, z⟩ := s
    unfold putSlot at h
    split at h
    · next hs =>
      cases h
      simp [slot?_cons, putSlot, hs]
    · next hs =>
      obtain ⟨r', hr, rfl⟩ := Option.map_eq_some_iff.1 h
      simp [slot?_cons, putSlot, hs, ih hr]

theorem putSlot_self (h : (Accessor.slot? slots number).map (·.2) = some x) : putSlot number x slots = some slots := by
  induction slots with
  | nil => cases h
  | cons s r ih =>
    obtain ⟨s, y⟩ := s
    rw [slot?_cons] at h
    rw [putSlot]
    split at h
    · next hs =>
      cases h
      rw [if_pos hs]
    · next hs => rw [if_neg hs, ih h, Option.map_some]

theorem putSlot_middle {done rest : List (Slot × Value)} {s : Slot} (h : ∀ e ∈ done, e.1.number ≠ s.number) :
    (Accessor.slot? (done ++ (s, y) :: rest) s.number).map (·.2) = some y ∧
      ∀ x, putSlot s.number x (done ++ (s, y) :: rest) = some (done ++ (s, x) :: rest) := by
  induction done with
  | nil => simp [slot?_cons, putSlot]
  | cons e done ih =>
    obtain ⟨t, z⟩ := e
    obtain ⟨hne, hdone⟩ := forall_mem_cons.1 h
    simpa [slot?_cons, putSlot, hne] using ih hdone

end Wire.Value

namespace RouteStep

variable {s : RouteStep} {v w x y : Value}

/-- What was put somewhere is found there, until something else is put there. -/
theorem put_spec (h : s.put v x = some w) : s.get w = some x ∧ ∀ y, s.put w y = s.put v y := by
  cases s with
  | field number name =>
    cases v with
    | record title slots =>
      obtain ⟨slots', hput, rfl⟩ := Option.map_eq_some_iff.1 h
      obtain ⟨hget, hput'⟩ := Value.putSlot_spec hput
      exact ⟨hget, fun y => by rw [put, put, hput']⟩
    | _ => cases h
  | element k =>
    cases v with
    | list items =>
      simp only [put] at h
      split at h
      · next hk =>
        cases h
        simp [get, put, Value.item?, Value.element, hk, Except.toOption]
      · cases h
    | bytes bs =>
      cases x with
      | int n =>
        simp only [put] at h
        split at h
        · next hk =>
          obtain ⟨hk, h0, h256⟩ := hk
          cases h
          have hmod : n.toNat % 256 = n.toNat := Nat.mod_eq_of_lt (by omega)
          refine ⟨?_, fun y => by cases y <;> simp [put]⟩
          simp [get, Value.item?, Value.element, hk, Except.toOption, hmod, h0]
        · cases h
      | _ => cases h
    | _ => cases h

theorem put_get (h : s.get v = some x) : s.put v x = some v := by
  cases s with
  | field number name =>
    cases v with
    | record title slots => rw [put, Value.putSlot_self h, Option.map_some]
    | _ => cases h
  | element k =>
    cases v with
    | list items =>
      rcases Nat.lt_or_ge k items.size with hk | hk
      · have hx : items[k] = x := by simpa [get, Value.item?, Value.element, hk, Except.toOption] using h
        subst hx
        simp [put, hk, Array.setIfInBounds]
      · simp [get, Value.item?, Value.element, Array.getElem?_eq_none hk, Except.toOption] at h
    | bytes bs =>
      rcases Nat.lt_or_ge k bs.size with hk | hk
      · have hx : Value.int bs[k].toNat = x := by simpa [get, Value.item?, Value.element, hk, Except.toOption] using h
        subst hx
        have hlt : (bs[k].toNat : Int) < 256 := by exact_mod_cast bs[k].toNat_lt
        simp [put, hk, hlt, Array.setIfInBounds]
      · simp [get, Value.item?, Value.element, Array.getElem?_eq_none hk, Except.toOption] at h
    | _ => cases h

theorem put_gather {element : Ty} {done rest : List Value} (hx : element.Admits x) :
    (RouteStep.element done.length).put (element.gather (done ++ y :: rest)) x
      = some (element.gather (done ++ x :: rest)) := by
  cases element with
  | byte o =>
    obtain ⟨n, rfl, h0, h256⟩ := hx
    simp [put, Ty.gather, h0, h256, Value.asInt?, Array.setIfInBounds]
  | _ => simp [put, Ty.gather, Array.setIfInBounds]

end RouteStep

namespace Wire.Value

variable {p : List RouteStep} {s : RouteStep} {v w x y : Value}

theorem along_append (p : List RouteStep) (s : RouteStep) (v : Value) :
    along (p ++ [s]) v = (along p v).bind s.get := by
  induction p generalizing v with
  | nil =>
    show (s.get v).bind (along []) = s.get v
    cases s.get v <;> rfl
  | cons t p ih =>
    rw [cons_append, along, along]
    cases t.get v with
    | none => rfl
    | some y => exact ih y

theorem putAlong_append {z : Value} (hy : along p v = some y) (hz : s.get y = some z) :
    putAlong (p ++ [s]) v x = (s.put y x).bind (putAlong p v) := by
  induction p generalizing v with
  | nil =>
    cases hy
    show (s.get y).bind (fun _ => (some x).bind (s.put y)) = (s.put y x).bind some
    rw [hz, Option.bind_some, Option.bind_some, Option.bind_fun_some]
  | cons t p ih =>
    obtain ⟨u, hu, hy⟩ := Option.bind_eq_some_iff.1 hy
    rw [cons_append, putAlong, hu, Option.bind_some, ih hy, Option.bind_assoc]
    refine congrArg (Option.bind (s.put y x)) (funext fun w => ?_)
    rw [putAlong, hu, Option.bind_some]

/-- What was put along a route is found along it, until something else is put there. -/
theorem putAlong_spec (h : putAlong p v x = some w) : along p w = some x ∧ ∀ y, putAlong p w y = putAlong p v y := by
  induction p generalizing v w with
  | nil => exact ⟨h.symm, fun _ => rfl⟩
  | cons t p ih =>
    obtain ⟨z, hz, h⟩ := Option.bind_eq_some_iff.1 h
    obtain ⟨z', hput, h⟩ := Option.bind_eq_some_iff.1 h
    obtain ⟨hget, hput'⟩ := RouteStep.put_spec h
    obtain ⟨halong, hsame⟩ := ih hput
    refine ⟨by rw [along, hget, Option.bind_some, halong], fun y => ?_⟩
    rw [putAlong, putAlong, hz, hget, Option.bind_some, Option.bind_some, hsame]
    exact congrArg _ (funext hput')

theorem putAlong_along (h : along p v = some x) : putAlong p v x = some v := by
  induction p generalizing v with
  | nil => exact h.symm
  | cons t p ih =>
    obtain ⟨y, hy, h⟩ := Option.bind_eq_some_iff.1 h
    rw [putAlong, hy, Option.bind_some, ih h, Option.bind_some]
    exact RouteStep.put_get hy

end Wire.Value

/-! ### Integers in memory -/

namespace Wire

/-- **The bytes of an integer** in memory, the lowest one first. -/
def stored (n : Int) (size : Nat) : Array UInt8 := Array.ofFn fun k : Fin size => UInt8.ofNat (byteAt n (8 * k))

/-- **The leaf that bytes in memory stand for.** -/
def Leaf.load (kind : Leaf) (bytes : Array UInt8) : Value :=
  let n := (Source.ofBytes bytes).number 0 (8 * bytes.size)
  match kind with
  | .bool => .bool (n != 0)
  | .unsigned => .int n
  | .signed _ => .int (Wire.signed (8 * bytes.size) n)

@[simp] theorem size_stored (n : Int) (size : Nat) : (stored n size).size = size := by
  unfold stored
  rw [Array.size_ofFn]

theorem bitAt_stored (n : Int) (size k : Nat) : bitAt (stored n size) k = (decide (k < 8 * size) && n.testBit k) := by
  unfold bitAt stored
  rw [Array.getElem?_ofFn]
  split
  · next hk =>
    have hbyte : byteAt n (8 * (k / 8)) < 256 := by
      unfold byteAt
      omega
    have hmod : 8 * (k / 8) + k % 8 = k := by omega
    have hlt : k < 8 * size := by omega
    have h8 : k % 8 < 8 := by omega
    simp only [Option.getD_some, UInt8.toNat_ofNat', Nat.reducePow, Nat.mod_eq_of_lt hbyte]
    rw [testBit_byteAt, hmod]
    simp [hlt, h8]
  · next hk =>
    have hlt : ¬k < 8 * size := by omega
    simp [hlt]

/-- **Rows of bytes are known by their bits.** -/
theorem eq_of_bitAt {a b : Array UInt8} (hsize : a.size = b.size) (h : ∀ k, bitAt a k = bitAt b k) : a = b := by
  refine Array.ext hsize fun i hi hi' => ?_
  refine UInt8.toNat_inj.1 (Nat.eq_of_testBit_eq fun r => ?_)
  by_cases hr : r < 8
  · have hbit := h (8 * i + r)
    have hdiv : (8 * i + r) / 8 = i := by omega
    have hmod : (8 * i + r) % 8 = r := by omega
    simpa [bitAt, hdiv, hmod, hi, hi'] using hbit
  · -- a byte has no bits beyond the eighth
    have hpow : 2 ^ 8 ≤ 2 ^ r := Nat.pow_le_pow_right Nat.two_pos (by omega)
    rw [Nat.testBit_eq_false_of_lt (lt_of_lt_of_le a[i].toNat_lt hpow),
      Nat.testBit_eq_false_of_lt (lt_of_lt_of_le b[i].toNat_lt hpow)]

/-! ### One byte to another -/

def byte? (bytes : Array UInt8) (k : Int) : Option Nat := if 0 ≤ k then bytes[k.toNat]?.map (·.toNat) else none

def writeByte (instead : Bool) (bytes : Array UInt8) (k : Int) (bits : Nat) : Option (Array UInt8) :=
  if 0 ≤ k ∧ k < bytes.size then
    some (bytes.modify k.toNat fun b => if instead then UInt8.ofNat bits else b ||| UInt8.ofNat bits)
  else none

/-- **`out` is `target` after `c` bits were copied** to its bit `b` from bit `a` of `source`.  The other bits of the
byte are cleared if the bits were written instead of it, and else the bits were added. -/
structure Copied (instead : Bool) (source target : Array UInt8) (a b c : Nat) (out : Array UInt8) : Prop where
  size_eq : out.size = target.size
  bitAt_eq : ∀ k, bitAt out k = ((!(instead && decide (k / 8 = b / 8)) && bitAt target k) ||
    (decide (b ≤ k) && decide (k < b + c) && bitAt source (a + (k - b))))

section

variable {target : Array UInt8} {a b c : Nat}

theorem byte?_natCast {source : Array UInt8} {k : Nat} (hk : k < source.size) :
    byte? source k = some (source[k]?.getD 0).toNat := by
  unfold byte?
  rw [if_pos (Int.natCast_nonneg k), Int.toNat_natCast, Array.getElem?_eq_getElem hk]
  rfl

/-- **Bits that are moved and written are copied.** -/
theorem writeByte_moved (instead : Bool) (source : Array UInt8) (hc : 0 < c) (ha : a % 8 + c ≤ 8) (hb : b % 8 + c ≤ 8)
    (htarget : b + c ≤ 8 * target.size) :
    ∃ out, writeByte instead target ((b / 8 : Nat) : Int)
        (Run.move (source[a / 8]?.getD 0).toNat (a % 8) (b % 8) &&& Run.mask (b % 8) c) = some out ∧
      Copied instead source target a b c out := by
  generalize hbits : Run.move (source[a / 8]?.getD 0).toNat (a % 8) (b % 8) &&& Run.mask (b % 8) c = bits
  have hsmall : bits < 256 := hbits ▸ and_mask_lt _ hb
  have hk : b / 8 < target.size := by omega
  refine ⟨target.modify (b / 8) fun x => if instead then UInt8.ofNat bits else x ||| UInt8.ofNat bits, ?_,
    Array.size_modify, fun k => ?_⟩
  · have hin : (0 : Int) ≤ ((b / 8 : Nat) : Int) ∧ ((b / 8 : Nat) : Int) < (target.size : Int) := by omega
    rw [writeByte, if_pos hin, Int.toNat_natCast]
  · rw [bitAt_modify hk]
    by_cases hkb : k / 8 = b / 8
    · -- in the byte that is written
      rw [if_pos hkb]
      have hbit : bits.testBit (k % 8) = (decide (b ≤ k) && decide (k < b + c) && bitAt source (a + (k - b))) := by
        have h1 : b % 8 ≤ k % 8 ↔ b ≤ k := by omega
        have h2 : k % 8 < b % 8 + c ↔ k < b + c := by omega
        have h3 : k % 8 - b % 8 = k - b := by omega
        rw [← hbits, Run.testBit_moved source ha]
        simp only [h1, h2, h3]
      cases instead with
      | true => simp [hkb, Nat.mod_eq_of_lt hsmall, hbit]
      | false => simp [bitAt, hkb, Nat.mod_eq_of_lt hsmall, hbit]
    · -- in another byte nothing changes
      have hout : ¬(b ≤ k ∧ k < b + c) := by omega
      have hout' : (decide (b ≤ k) && decide (k < b + c)) = false := by
        rw [← Bool.decide_and]
        exact decide_eq_false hout
      rw [if_neg hkb, hout']
      simp [hkb]

end

end Wire

/-- How a type of single leaves is kept in memory: the kind of the leaves and the number of bytes. -/
def Ty.storage? (t : Ty) : Option (Leaf × Nat) := do
  let leaf ← (Loading.unaliased t).leaf?
  let bits ← (Dialect.integerBits t).toOption
  return (leaf.1, bits / 8)

namespace ByteCopy

def moved (c : ByteCopy) (byte : Nat) : Nat := (shiftBy byte c.shift).toNat &&& c.mask.toNat

/-- **Carries out a copy that packs** leaves of `v` into a buffer.  In C the first copy to a byte replaces what is in
it. -/
def packStep (l : Dialect) (v : Value) (buffer : Array UInt8) (c : ByteCopy) : Option (Array UInt8) := do
  let storage ← c.ty.storage?
  let n ← (← v.along c.route.steps).asInt?
  let byte ← byte? (stored n storage.2) c.byte
  writeByte (l == .c && c.starts) buffer c.buffer (c.moved byte)

/-- What a leaf that holds `n` is after bits were written to one of its bytes.  In Go the bits are added to the integer,
and a truth value is assigned. -/
def received (l : Dialect) (c : ByteCopy) (storage : Leaf × Nat) (n : Int) (bits : Nat) : Option Value :=
  if l = .go then
    if storage.1 = .bool then some (.bool (bits != 0))
    else some (storage.1.load (stored (orInt n (bits * weight (8 * c.byte.toNat))) storage.2))
  else (writeByte c.starts (stored n storage.2) c.byte bits).map storage.1.load

/-- **Carries out a copy that unpacks** a buffer into leaves of `v`. -/
def unpackStep (l : Dialect) (buffer : Array UInt8) (v : Value) (c : ByteCopy) : Option Value := do
  let storage ← c.ty.storage?
  let n ← (← v.along c.route.steps).asInt?
  let byte ← byte? buffer c.buffer
  let x ← c.received l storage n (c.moved byte)
  v.putAlong c.route.steps x

variable {t : Ty} {route : Route}

theorem fmod_natCast (i : Nat) : (i : Int).fmod 8 = ((i % 8 : Nat) : Int) := by
  rw [Int.fmod_eq_emod_of_nonneg _ (by norm_num)]
  rfl

theorem pack_eq {i j c : Nat} (hi : i < 2 ^ 53) (hj : j < 2 ^ 53) (hc : i % 8 + c ≤ 8) :
    pack t route i j c = .ok { route, ty := t, buffer := ((i / 8 : Nat) : Int), byte := ((j / 8 : Nat) : Int)
                               shift := ((j % 8 : Nat) : Int) - ((i % 8 : Nat) : Int)
                               mask := (Run.mask (i % 8) c : Nat), offset := ((i % 8 : Nat) : Int) } := by
  unfold pack
  rw [fmod_natCast, fmod_natCast, maskOf_natCast hc, intEighth_natCast hi, intEighth_natCast hj]
  rfl

theorem unpack_eq {i j c : Nat} (hi : i < 2 ^ 53) (hj : j < 2 ^ 53) (hc : j % 8 + c ≤ 8) :
    unpack t route i j c = .ok { route, ty := t, buffer := ((i / 8 : Nat) : Int), byte := ((j / 8 : Nat) : Int)
                                 shift := ((i % 8 : Nat) : Int) - ((j % 8 : Nat) : Int)
                                 mask := (Run.mask (j % 8) c : Nat), offset := ((j % 8 : Nat) : Int) } := by
  unfold unpack
  rw [fmod_natCast, fmod_natCast, maskOf_natCast hc, intEighth_natCast hi, intEighth_natCast hj]
  rfl

theorem moved_eq {copy : ByteCopy} {a b c : Nat} (hshift : copy.shift = (a : Int) - (b : Int))
    (hmask : copy.mask = (Run.mask b c : Nat)) (byte : Nat) : copy.moved byte = Run.move byte a b &&& Run.mask b c := by
  rw [moved, hshift, hmask, shiftBy_sub, Int.toNat_natCast, Int.toNat_natCast]

end ByteCopy

/-! ### Lists of copies -/

variable {packing : Bool} {t : Ty} {l : Dialect}

section

variable {σ : Type} {step : σ → ByteCopy → Option σ}

/-- **Copies are listed** from bit `i` to bit `j`, and carried out one after the other they take `s` to `s'`. -/
def Listing.Takes (step : σ → ByteCopy → Option σ) (x : Listing) (i : Nat) (s : σ) (j : Nat) (s' : σ) : Prop :=
  ∃ copies, x i = .ok (copies, (j : Int)) ∧ copies.foldlM step s = some s'

theorem Listing.takes_nil (i : Nat) (s : σ) : Listing.nil.Takes step i s i s := ⟨[], rfl, rfl⟩

theorem Listing.Takes.foldlM_eq {x : Listing} {i j : Nat} {s s' : σ} (h : x.Takes step i s j s') {copies : List ByteCopy}
    {k : Int} (hx : x i = .ok (copies, k)) : copies.foldlM step s = some s' := by
  obtain ⟨copies', hcopies, hrun⟩ := h
  rw [hx] at hcopies
  cases hcopies
  exact hrun

theorem Listing.Takes.append {x y : Listing} {i j k : Nat} {s s₁ s₂ : σ} (hx : x.Takes step i s j s₁)
    (hy : y.Takes step j s₁ k s₂) : (x.append y).Takes step i s k s₂ := by
  obtain ⟨first, hfirst, hrun₁⟩ := hx
  obtain ⟨rest, hrest, hrun₂⟩ := hy
  refine ⟨first ++ rest, ?_, ?_⟩
  · unfold Listing.append
    rw [hfirst]
    show (y j >>= _) = _
    rw [hrest]
    rfl
  · rw [foldlM_append, hrun₁]
    exact hrun₂

/-- **The copies of a leaf** from its bit `j` on.  If the copy of every chunk takes a state of which `inv j` holds to
one of which `inv` holds that many bits further on, then all of them take it to one of which `inv n` holds. -/
theorem takes_leafFrom (inv : Nat → σ → Prop) {n base : Nat} {route : Route}
    (hstep : ∀ j c s, 0 < c → j + c ≤ n → j % 8 + c ≤ 8 → (base + j) % 8 + c ≤ 8 → inv j s → ∃ copy s',
      ByteCopy.ofChunk packing t route ((base + j : Nat) : Int) j c = .ok copy ∧ step s copy = some s' ∧ inv (j + c) s')
    {fuel j : Nat} {s : σ} (hj : j ≤ n) (hfuel : n - j ≤ fuel) (hs : inv j s) :
    ∃ s', (Copier.leafFrom packing t n route fuel j).Takes step (base + j) s (base + n) s' ∧ inv n s' := by
  -- every chunk takes at least one bit, so that the fuel is enough for what is left
  induction fuel generalizing j s with
  | zero =>
    obtain rfl : j = n := by omega
    exact ⟨s, Listing.takes_nil _ s, hs⟩
  | succ fuel ih =>
    rcases Nat.lt_or_ge j n with hlt | hge
    · obtain ⟨hc, hcn, hcj, hci⟩ := Run.chunk_bounds (i := (base + j) % 8) (Nat.mod_lt _ (by norm_num)) hlt
      have hchunk : (chunkSize ((base + j : Nat) : Int) j n).toNat = _ := congrArg Int.toNat (chunkSize_natCast hlt.le)
      rw [Int.toNat_natCast] at hchunk
      generalize Run.chunk ((base + j) % 8) j n = c at hc hcn hcj hci hchunk
      obtain ⟨copy, s₁, hcopy, hs₁, hinv₁⟩ := hstep j c s hc hcn hcj hci hs
      obtain ⟨s₂, ⟨rest, hrest, hrun⟩, hinv₂⟩ := ih hcn (by omega) hinv₁
      refine ⟨s₂, ⟨copy :: rest, ?_, ?_⟩, hinv₂⟩
      · have hnext : ((base + j : Nat) : Int) + (c : Int) = ((base + (j + c) : Nat) : Int) := by
          push_cast
          omega
        unfold Copier.leafFrom
        rw [if_pos hlt, hchunk]
        show (ByteCopy.ofChunk packing t route _ j c >>= _) = _
        rw [hcopy]
        show (Copier.leafFrom packing t n route fuel (j + c) (((base + j : Nat) : Int) + (c : Int)) >>= _) = _
        rw [hnext]
        rw [hrest]
        rfl
      · rw [foldlM_cons, hs₁]
        exact hrun
    · obtain rfl : j = n := by omega
      refine ⟨s, ⟨[], ?_, rfl⟩, hs⟩
      unfold Copier.leafFrom
      rw [if_neg (by omega)]

/-- **The copies of a leaf.** -/
theorem takes_leaf (inv : Nat → σ → Prop) (hl : l.writesCopies = .ok ()) {base : Nat} {route : Route}
    (hstep : ∀ j c s, 0 < c → j + c ≤ t.nbits → j % 8 + c ≤ 8 → (base + j) % 8 + c ≤ 8 → inv j s → ∃ copy s',
      ByteCopy.ofChunk packing t route ((base + j : Nat) : Int) j c = .ok copy ∧ step s copy = some s' ∧ inv (j + c) s')
    {s : σ} (hs : inv 0 s) : ∃ s', (Copier.leaf l packing t route).Takes step base s (base + t.nbits) s' ∧
      inv t.nbits s' := by
  obtain ⟨s', ⟨copies, hcopies, hrun⟩, hs'⟩ := takes_leafFrom inv hstep (Nat.zero_le _) (Nat.sub_le _ 0) hs
  refine ⟨s', ⟨copies, ?_, hrun⟩, hs'⟩
  unfold Copier.leaf
  rw [hl]
  rw [Nat.add_zero] at hcopies
  split
  · exact hcopies
  · exact hcopies

end

theorem Copier.exists_field_eq (hl : l.writesCopies = .ok ()) (f : Def) (copier : Copier) (route : Route) :
    ∃ name, Copier.field l f copier route = copier (route.further (.field f.number name)) := by
  cases l with
  | c => exact ⟨_, rfl⟩
  | go => exact ⟨_, rfl⟩
  | neutral => cases hl
  | python => cases hl

theorem Dialect.exists_messageCopies_eq (hl : l.writesCopies = .ok ()) (packing : Bool) (d : Def) :
    ∃ route : Route, route.steps = [] ∧ ∀ copies k, d.copier l packing .field route 0 = .ok (copies, k) →
      l.messageCopies packing d = .ok copies := by
  obtain ⟨root, hroot⟩ : ∃ root, l.messageVariable = .ok root := by
    cases l with
    | c => exact ⟨_, rfl⟩
    | go => exact ⟨_, rfl⟩
    | neutral => cases hl
    | python => cases hl
  refine ⟨⟨root, []⟩, rfl, fun copies k hcopies => ?_⟩
  unfold messageCopies
  rw [hroot]
  show (d.copier l packing .field ⟨root, []⟩ 0 >>= _) = _
  rw [hcopies]
  rfl

/-! ### Types at places -/

/-- **A type of single leaves as it is kept in memory**: the leaves of `width` bits take `size` bytes. -/
structure Ty.StoredAs (t : Ty) (kind : Leaf) (width size : Nat) : Prop where
  nbits_eq : t.nbits = width
  storage_eq : t.storage? = some (kind, size)
  width_le : width ≤ 8 * size
  signed_eq : ∀ w, kind = .signed w → 8 * size = w

/-- The machine integer for up to 64 bits. -/
theorem Dialect.integerBits_eq (hpos : 0 < t.nbits) (hle : t.nbits ≤ 64) :
    ∃ size, integerBits t = .ok (8 * size) ∧ t.nbits ≤ 8 * size ∧
      (t.nbits = 8 ∨ t.nbits = 16 ∨ t.nbits = 32 ∨ t.nbits = 64 → 8 * size = t.nbits) := by
  have hnbytes : t.nbytes = .ok ((t.nbits + 7) / 8) := bytesOfBits_eq (by omega)
  unfold integerBits
  rw [hnbytes]
  generalize hk : (t.nbits + 7) / 8 = k
  show ∃ size, (if k = 1 then Except.ok 8 else if k = 2 then Except.ok 16 else if k = 3 ∨ k = 4 then Except.ok 32
    else if 5 ≤ k ∧ k ≤ 8 then Except.ok 64 else Except.ok (k * 8)) = Except.ok (8 * size) ∧ _
  by_cases h1 : k = 1
  · exact ⟨1, by rw [if_pos h1], by omega, by omega⟩
  by_cases h2 : k = 2
  · exact ⟨2, by rw [if_neg h1, if_pos h2], by omega, by omega⟩
  by_cases h4 : k = 3 ∨ k = 4
  · exact ⟨4, by rw [if_neg h1, if_neg h2, if_pos h4], by omega, by omega⟩
  · have h8 : 5 ≤ k ∧ k ≤ 8 := by omega
    exact ⟨8, by rw [if_neg h1, if_neg h2, if_neg h4, if_pos h8], by omega, by omega⟩

theorem Ty.WellFormed.leaf_width {kind : Leaf} {width : Nat} (hwf : t.WellFormed) (h : t.leaf? = some (kind, width)) :
    width ≤ 64 ∧ ∀ w, kind = .signed w → w = width ∧ (width = 8 ∨ width = 16 ∨ width = 32 ∨ width = 64) := by
  cases t with
  | named d =>
    cases d with
    | enum hd o cap ms =>
      cases h
      exact ⟨hwf.2.2.1, fun w hw => nomatch hw⟩
    | _ => cases h
  | _ => grind [Ty.leaf?, Ty.WellFormed]

/-- A type is kept in memory as the type that it is an alias of. -/
theorem Ty.WellFormed.storedAs {t o : Ty} {kind : Leaf} {width : Nat} (hwf : t.WellFormed)
    (ht : t.LeafOf kind width) (ho : Loading.unaliased o = t) (hbits : o.nbits = t.nbits) :
    ∃ size, o.StoredAs kind width size := by
  have hpos := ht.suits.pos
  obtain ⟨hle, hsigned⟩ := hwf.leaf_width ht.leaf_eq
  have hwidth : o.nbits = width := hbits.trans ht.nbits_eq
  obtain ⟨size, hsize, hroom, hexact⟩ := Dialect.integerBits_eq (t := o) (by omega) (by omega)
  refine ⟨size, hwidth, ?_, by omega, fun w hw => ?_⟩
  · unfold storage?
    rw [ho, ht.leaf_eq, hsize]
    show some (kind, 8 * size / 8) = some (kind, size)
    rw [Nat.mul_div_cancel_left size (by norm_num)]
  · obtain ⟨rfl, hw⟩ := hsigned w hw
    rw [hexact (by omega), hwidth]

/-- **Types that can stand at a place.** -/
def TypePlace.Suits : TypePlace → Ty → Prop
  | .field, _ => True
  | .element, t => t.isElement = true
  | .target owner, t => t.isNamed = false ∧ ∃ h, owner = .named (.typeAlias h t)

theorem fieldCopiers_eq (l : Dialect) (packing : Bool) (ms : Members) :
    fieldCopiers l packing ms = (fieldsOf ms).map fun f =>
      (f.number, Def.field f.header f.ty f.number, f.ty.copier l packing .field) := by
  induction ms with
  | nil => rfl
  | cons m ms ih =>
    obtain ⟨n, d⟩ := m
    rw [fieldCopiers, fieldsOf_cons, map_append, ih]
    cases d <;> rfl

/-- **Induction over the copies of a well-formed type** at a place where it can stand. -/
theorem Ty.WellFormed.copier_induction (P : Ty → Copier → Prop)
    (leaf : ∀ t o kind width size, t.LeafOf kind width → o.StoredAs kind width size → P t (Copier.leaf l packing o))
    (array : ∀ o element cap ext copier, P element copier → P (.array o element cap ext) (Copier.elements copier cap))
    (typeAlias : ∀ h target copier, P target copier → P (.named (.typeAlias h target)) copier)
    (message : ∀ h ext ms, (Def.message h ext ms).WellFormed →
      (∀ f ∈ fieldsOf ms, P f.ty (f.ty.copier l packing .field)) →
      P (.named (.message h ext ms)) (Copier.fields l ((orderedFields ms).map fun f =>
        (Def.field f.header f.ty f.number, f.ty.copier l packing .field))))
    (hwf : t.WellFormed) {p : TypePlace} (hp : p.Suits t) : P t (t.copier l packing p) := by
  induction t, hwf using Ty.WellFormed.induction generalizing p with
  | leaf t kind width hwf ht =>
    have hcopier : t.copier l packing p = Copier.leaf l packing (p.owner t) := by
      have hleaf := ht.leaf_eq
      cases t with
      | named d =>
        cases d with
        | enum h o cap ms => rfl
        | _ => simp [Ty.leaf?] at hleaf
      | unknown o missing => simp [Ty.leaf?] at hleaf
      | array o element cap ext => simp [Ty.leaf?] at hleaf
      | _ => rfl
    have hself : Loading.unaliased t = t := by
      have hleaf := ht.leaf_eq
      cases t with
      | named d =>
        cases d with
        | enum h o cap ms => rfl
        | _ => simp [Ty.leaf?] at hleaf
      | _ => rfl
    rw [hcopier]
    cases p with
    | target owner =>
      obtain ⟨-, h, rfl⟩ := hp
      obtain ⟨size, hstored⟩ := hwf.storedAs (o := .named (.typeAlias h t)) ht hself rfl
      exact leaf t _ kind width size ht hstored
    | _ =>
      obtain ⟨size, hstored⟩ := hwf.storedAs ht hself rfl
      exact leaf t _ kind width size ht hstored
  | array o element cap ext hwf ih =>
    have helement : P element (element.copier l packing .element) := ih (p := .element) hwf.2.2.1
    have hcopier : (Ty.array o element cap ext).copier l packing p
        = Copier.elements (element.copier l packing .element) cap := by
      cases p with
      | element => exact absurd hp (by simp [TypePlace.Suits, Ty.isElement])
      | _ => rfl
    rw [hcopier]
    exact array o element cap ext _ helement
  | typeAlias h target hwf ih =>
    have htarget := ih (p := .target (.named (.typeAlias h target))) ⟨hwf.2.1, h, rfl⟩
    have hcopier : (Ty.named (.typeAlias h target)).copier l packing p
        = target.copier l packing (.target (.named (.typeAlias h target))) := by
      cases p with
      | target owner => exact absurd hp.1 (by simp [Ty.isNamed])
      | _ => rfl
    rw [hcopier]
    exact typeAlias h target _ htarget
  | message h ext ms hwf ih =>
    have hfields := message h ext ms hwf.2 fun f hf => ih f hf (p := .field) trivial
    have hcopier : (Ty.named (.message h ext ms)).copier l packing p
        = Copier.fields l ((byNumber (fieldCopiers l packing ms)).map (·.2)) := by
      cases p with
      | target owner => exact absurd hp.1 (by simp [Ty.isNamed])
      | _ => rfl
    rw [hcopier, fieldCopiers_eq, byNumber_map_fieldsOf, map_map]
    exact hfields

end BitSchema
