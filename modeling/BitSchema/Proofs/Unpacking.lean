import BitSchema.Proofs.Assembly
import BitSchema.Proofs.Growth
import BitSchema.Proofs.Packing

/-!
# Unpacking reads the bits of a value

If a buffer carries the bits of a leaf (`Carries`), unpacking puts the leaf where it belongs.

* A leaf is put together from its chunks, into a place that was zero (`number_unpack`, `bool_unpack`).
* A frame jumps to where its announcement says (`framed_announced`, `skipIf_unpack`).
-/

namespace BitSchema

open Wire

namespace Wire

/-! ### Buffers that carry bits -/

/-- **The buffer carries the given bits** from bit `i` on. -/
def Carries (buffer : Array UInt8) (i : Nat) (bits : List Bool) : Prop :=
  ∀ k < bits.length, bitAt buffer (i + k) = bits[k]?.getD false

theorem carries_append {buffer : Array UInt8} {i : Nat} {xs ys : List Bool} :
    Carries buffer i (xs ++ ys) ↔ Carries buffer i xs ∧ Carries buffer (i + xs.length) ys := by
  refine ⟨fun h => ⟨fun k hk => ?_, fun k hk => ?_⟩, fun h k hk => ?_⟩
  · have := h k (by rw [List.length_append]; omega)
    rwa [List.getElem?_append_left hk] at this
  · have := h (xs.length + k) (by rw [List.length_append]; omega)
    rwa [List.getElem?_append_right (by omega), Nat.add_sub_cancel_left, ← Nat.add_assoc] at this
  · rcases Nat.lt_or_ge k xs.length with hlt | hge
    · rw [List.getElem?_append_left hlt]
      exact h.1 k hlt
    · rw [List.length_append] at hk
      have := h.2 (k - xs.length) (by omega)
      rwa [Nat.add_assoc, Nat.add_sub_cancel' hge, ← List.getElem?_append_right hge] at this

variable {d : Int}

theorem Carries.testBit {buffer : Array UInt8} {i n k : Nat} (h : Carries buffer i (intBits d 0 n))
    (hk : k < n) : bitAt buffer (i + k) = d.testBit k := by
  rw [h k (by simpa using hk), getElem?_intBits, Nat.zero_add]
  simp [hk]

/-! ### Leaves -/

namespace Run

open Accessor

variable {m : Machine} {i : Nat}

theorem takes_partly {kind : Leaf} {width : Nat} (hkind : kind ≠ .bool) (hd : kind.Range width d) (j : Nat) :
    kind.Takes width (.int (partly width d j)) := by
  cases kind with
  | bool => exact absurd rfl hkind
  | signed n => exact ⟨_, rfl⟩
  | unsigned =>
    refine ⟨_, rfl, ?_⟩
    unfold partly
    split
    · next hj =>
      have hpos : (0 : Int) < weight j := by exact_mod_cast Nat.two_pow_pos j
      have hle : (weight j : Int) ≤ weight width := by
        exact_mod_cast Nat.pow_le_pow_right (n := 2) (by norm_num) hj.le
      exact ⟨Int.emod_nonneg _ hpos.ne', lt_of_lt_of_le (Int.emod_lt_of_pos _ hpos) hle⟩
    · exact hd

/-- **A number is unpacked** into its place. -/
theorem number_unpack {kind : Leaf} {width : Nat} (hsuits : kind.Suits width) (hkind : kind ≠ .bool)
    (hd : kind.Range width d) (hpack : m.packing = false) (hm : m.Stands i width)
    (hbits : Carries m.buffer i (intBits d 0 width)) (hat : At m.accessor m.indexer (some (.leaf 0 kind)) (.int 0))
    (hfree : ∀ v, kind.Takes width v → ∃ a, PutAt m.accessor m.indexer v a) :
    ∃ a, leaf width m = (.ok (), { m with cursor := ((i + width : Nat) : Int), accessor := a }) ∧
      PutAt m.accessor m.indexer (.int d) a := by
  have hpos : 0 < width := by
    cases kind with
    | bool => exact absurd rfl hkind
    | unsigned => exact hsuits
    | signed n => exact hsuits.2
  -- the leaf holds the bits that have been unpacked
  let inv (j : Nat) (a : Accessor) : Prop := PutAt m.accessor m.indexer (.int (partly width d j)) a
  have start : inv 0 m.accessor := by
    show PutAt _ _ (.int (partly width d 0)) _
    rw [partly_zero hpos]
    exact hat.putAt_self
  have step : Stores m inv i width := by
    intro j c b a hc hjc _ hchunk ha
    obtain ⟨a', ha'⟩ := hfree _ (takes_partly hkind hd (j + c))
    refine ⟨a', setByte_of_putAt hkind (ha.at hat) ?_, ha'⟩
    rw [orInt_leafBits hsuits hkind hd (fun k hk => hbits.testBit hk) hchunk hc hjc]
    exact ha.again.2 ha'
  obtain ⟨a, hrun, ha⟩ := leaf_unpack hpack hm step start
  exact ⟨a, hrun, by rw [← partly_width width d]; exact ha⟩

/-- **A truth value is unpacked** into its place. -/
theorem bool_unpack {v : Value} (hd : Leaf.bool.Range 1 d) (hpack : m.packing = false) (hm : m.Stands i 1)
    (hbits : Carries m.buffer i (intBits d 0 1)) (hat : At m.accessor m.indexer (some (.leaf 0 .bool)) v)
    (hfree : ∀ v, Leaf.bool.Takes 1 v → ∃ a, PutAt m.accessor m.indexer v a) :
    ∃ a, leaf 1 m = (.ok (), { m with cursor := ((i + 1 : Nat) : Int), accessor := a }) ∧
      PutAt m.accessor m.indexer (.bool (d != 0)) a := by
  -- a truth value is not put together but replaced, so nothing is known of it before its only chunk
  let inv (j : Nat) (a : Accessor) : Prop :=
    (j = 0 → a = m.accessor) ∧ (j ≠ 0 → PutAt m.accessor m.indexer (.bool (d != 0)) a)
  have start : inv 0 m.accessor := ⟨fun _ => rfl, fun h => absurd rfl h⟩
  have step : Stores m inv i 1 := by
    intro j c b a hc hjc _ hchunk ha
    -- there is one chunk, of one bit
    obtain ⟨rfl, rfl⟩ : j = 0 ∧ c = 1 := by omega
    obtain rfl := ha.1 rfl
    have hb : (b : Int) = d := by
      refine int_eq_of_testBit fun k => ?_
      have hk := testBit_chunk hchunk k
      rw [show (b : Int) * weight (0 / 8 * 8) = b from mul_one _] at hk
      rcases Nat.eq_zero_or_pos k with rfl | hpos
      · rw [hk, hbits.testBit (by norm_num)]
        simp
      · have hne : ¬k < 0 + 1 := by omega
        rw [hk, testBit_of_lt hd.1 (n := 1) hd.2 hpos]
        simp [hne]
    have hbool : (b != 0) = (d != 0) := by
      rw [← hb]
      simp [bne]
    obtain ⟨a', ha'⟩ := hfree _ ⟨d != 0, rfl⟩
    refine ⟨a', setByte_bool_of_putAt hat ?_, fun h => by omega, fun _ => ha'⟩
    rw [hbool]
    exact ha'
  obtain ⟨a, hrun, ha⟩ := leaf_unpack hpack hm step start
  exact ⟨a, hrun, ha.2 (by norm_num)⟩

/-! ### Frames -/

/-- **An announcement is unpacked.** -/
theorem announce_unpack (n : Int) {size : Nat} (hsize : size < 65536) (hpack : m.packing = false) (hm : m.Stands i 16)
    (hbits : Carries m.buffer i (intBits size 0 16)) :
    announce n m = (.ok size, { m with cursor := ((i + 16 : Nat) : Int) }) := by
  have hrange : Leaf.unsigned.Range 16 size := ⟨Int.natCast_nonneg _, by exact_mod_cast hsize⟩
  -- the number is kept in an accessor of its own
  let own : Machine := { m with indexer := ⟨1, []⟩, accessor := .int 0 }
  let inv (j : Nat) (a : Accessor) : Prop := a = .int (partly 16 size j)
  have start : inv 0 (.int 0) := by
    show Accessor.int 0 = .int (partly 16 size 0)
    rw [partly_zero (by norm_num)]
  have step : Stores own inv i 16 := by
    intro j c b a hc hjc _ hchunk ha
    subst ha
    refine ⟨_, rfl, ?_⟩
    have hsuits : Leaf.unsigned.Suits 16 := by norm_num [Leaf.Suits]
    have hor := orInt_leafBits hsuits (by simp) hrange (fun k hk => hbits.testBit hk) hchunk hc hjc
    exact congrArg Accessor.int hor
  obtain ⟨a, hrun, rfl⟩ := leaf_unpack (m := own) hpack ⟨hm.1, hm.2, hm.3⟩ step start
  rw [partly_width] at hrun
  rw [announce, get_bind, if_neg (by simp [hpack]), aheadWidth, bind_ok (aside_eq hrun)]
  rfl

theorem skipTo_eq (m : Machine) (target : Int) :
    skipTo target m = (.ok (), { m with cursor := max m.cursor target }) := by
  have h : (if m.cursor ≤ target then { m with cursor := target } else m : Machine)
      = { m with cursor := max m.cursor target } := by
    split
    · next hle => rw [max_eq_right hle]
    · next hlt => rw [max_eq_left (by omega)]
  rw [← h]
  rfl

/-- **The announcement of a frame is unpacked**, and then its body. -/
theorem framed_announced {ext : Bool} {n : Int} {size : Nat} {body : Run Unit} {target : Int → Nat → Int}
    (hsize : size < 65536) (hpack : m.packing = false) (hm : m.Stands i (headBits ext size).length)
    (hbits : Carries m.buffer i (headBits ext size)) :
    framed ext n body target m = (body >>= fun _ => skipIf ext (target i size))
      { m with cursor := ((i + (headBits ext size).length : Nat) : Int) } := by
  rw [framed, get_bind]
  cases ext with
  | false =>
    -- nothing is announced, and the machine is where it was
    have hstart : { m with cursor := ((i + (headBits false size).length : Nat) : Int) } = m := by
      rw [headBits, if_neg (by simp), List.length_nil, Nat.add_zero, ← hm.cursor_eq]
    rw [hstart, announceIf, if_neg (by simp), pure_bind]
    rfl
  | true =>
    have h16 : (headBits true size).length = 16 := length_headBits true size
    rw [h16] at hm ⊢
    rw [announceIf, if_pos rfl, bind_ok (announce_unpack n hsize hpack hm hbits), hm.cursor_eq]

theorem skipIf_unpack (ext : Bool) (target : Int) (hpack : m.packing = false) :
    skipIf ext target m = (.ok (), if ext then { m with cursor := max m.cursor target } else m) := by
  rw [skipIf, get_bind]
  cases ext with
  | false => rfl
  | true => rw [if_pos (by simp [hpack]), skipTo_eq, if_pos rfl]

theorem of_inArray_ok {run : Run Unit} {m m' : Machine} {a : Unit} (h : inArray run m = (.ok a, m')) :
    ∃ m₁ x, run { m with indexer := m.indexer.up } = (.ok (), m₁) ∧ m' = { m₁ with indexer := x } := by
  rw [inArray] at h
  rcases hinner : run { m with indexer := m.indexer.up } with ⟨r, m₁⟩
  rw [hinner] at h
  cases hdown : m₁.indexer.down with
  | ok x =>
    simp only [hdown] at h
    obtain ⟨rfl, rfl⟩ := Prod.mk.inj h
    exact ⟨m₁, x, rfl, rfl⟩
  | error f =>
    simp only [hdown] at h
    cases h

end Run

end Wire

open Wire.Run Wire.Accessor

/-! ### Places of types -/

/-- **A place that takes all values of a type.** -/
def Ty.Free (t : Ty) (a : Accessor) (x : Indexer Nat) : Prop :=
  ∀ v, t.Admits v → ∃ a', PutAt a x v a'

theorem Wire.PutAt.field {name : String} {slots : List (Slot × Value)} {number : Int} {v : Value} {a : Accessor}
    (h : PutAt (.record name slots) ⟨number, []⟩ v a) : a = .record name (setSlot slots number v) := by
  obtain ⟨name', slots', s, root, root', heq, -, hputs, rfl⟩ := h
  cases heq
  obtain rfl : v = root' := by simpa [Value.update] using hputs.update_eq
  rfl

/-! ### Records -/

def Wire.Machine.unpacking (bytes : Array UInt8) (name : String) (slots : List (Slot × Value)) : Machine :=
  { packing := false, buffer := bytes, cursor := 0, indexer := .top, accessor := .record name slots }

end BitSchema
