import Mathlib.Data.Int.Bitwise
import Mathlib.Tactic.NormNum
import BitSchema.Wire.Processor

/-!
# Bits of integers, bytes and buffers

Every operation of the packing machine is seen through its bits.  `Int.testBit` is the view of
integers, where a negative integer has infinitely many leading ones, and `bitAt` is the view of
buffers: bit `i` of a buffer is bit `i % 8` of byte `i / 8`.

* `testBit_orInt`, `testBit_byteAt`, `testBit_mask` and `testBit_move` say what the operations on
  single bytes and integers do to bits, and `int_eq_of_testBit` that an integer is known by them.
* `intBits d j c` are the `c` bits of an integer from bit `j` on.
* `Adds buf i bits buf'` says that `buf'` is `buf` with `bits` added from bit `i` on.
* `bytesOfBits_eq` and `place_eq_ok` say that nothing is rounded below bit `2 ^ 53`.
-/

namespace BitSchema.Wire

/-! ### Integers -/

/-- **An integer is known by its bits.**  Integers of different signs differ in every bit above the
leading ones of both. -/
theorem int_eq_of_testBit {a b : Int} (h : ∀ k, a.testBit k = b.testBit k) : a = b := by
  -- the bit at which integers of different signs are told apart
  have small (a b : Nat) : a < 2 ^ max a b := lt_of_le_of_lt (le_max_left a b) Nat.lt_two_pow_self
  have small' (a b : Nat) : b < 2 ^ max a b := lt_of_le_of_lt (le_max_right a b) Nat.lt_two_pow_self
  cases a with
  | ofNat a =>
    cases b with
    | ofNat b => exact congrArg Int.ofNat (Nat.eq_of_testBit_eq h)
    | negSucc b =>
      have hk := h (max a b)
      simp [Int.testBit, Nat.testBit_eq_false_of_lt (small a b),
        Nat.testBit_eq_false_of_lt (small' a b)] at hk
  | negSucc a =>
    cases b with
    | ofNat b =>
      have hk := h (max a b)
      simp [Int.testBit, Nat.testBit_eq_false_of_lt (small a b),
        Nat.testBit_eq_false_of_lt (small' a b)] at hk
    | negSucc b =>
      refine congrArg Int.negSucc (Nat.eq_of_testBit_eq fun k => ?_)
      simpa [Int.testBit] using h k

@[simp] theorem testBit_natCast (n k : Nat) : (n : Int).testBit k = n.testBit k := rfl

theorem testBit_orInt (a b : Int) (k : Nat) :
    (orInt a b).testBit k = (a.testBit k || b.testBit k) := by
  cases a <;> cases b <;> simp [orInt, andNot, Int.testBit] <;> grind

/-- The bits of a byte of an integer, which are those of the integer from bit `s` on. -/
theorem testBit_byteAt (n : Int) (s k : Nat) :
    (byteAt n s).testBit k = (decide (k < 8) && n.testBit (s + k)) := by
  unfold byteAt
  cases n with
  | ofNat n =>
    have h : ((Int.ofNat n >>> s) % 256).toNat = (n >>> s) % 2 ^ 8 := by
      show (((n >>> s : Nat) : Int) % 256).toNat = _
      omega
    rw [h, Nat.testBit_mod_two_pow, Nat.testBit_shiftRight]
    rfl
  | negSucc n =>
    -- the complement of the byte of `n`
    have h : ((Int.negSucc n >>> s) % 256).toNat = 2 ^ 8 - ((n >>> s) % 2 ^ 8 + 1) := by
      show ((Int.negSucc (n >>> s)) % 256).toNat = _
      omega
    rw [h, Nat.testBit_two_pow_sub_succ (Nat.mod_lt _ (by norm_num)), Nat.testBit_mod_two_pow,
      Nat.testBit_shiftRight]
    simp only [Int.testBit]
    by_cases hk : k < 8 <;> simp [hk]

theorem testBit_mul_weight (b s k : Nat) :
    ((b : Int) * weight s).testBit k = (decide (s ≤ k) && b.testBit (k - s)) := by
  have h : (b : Int) * weight s = ((b <<< s : Nat) : Int) := by
    rw [Nat.shiftLeft_eq, weight, Nat.cast_mul]
    rfl
  rw [h, testBit_natCast, Nat.testBit_shiftLeft]

/-- **The bits of a signed number.**  Its highest bit is repeated without end. -/
theorem testBit_signed {width n : Nat} (hw : 0 < width) (hn : n < 2 ^ width) (k : Nat) :
    (signed width n).testBit k = n.testBit (min k (width - 1)) := by
  have hpow : 2 ^ width = 2 * 2 ^ (width - 1) := by
    rw [← Nat.pow_succ', Nat.succ_eq_add_one, Nat.sub_add_cancel hw]
  have top : n.testBit (width - 1) = decide (2 ^ (width - 1) ≤ n) := by
    rw [Nat.testBit_eq_decide_div_mod_eq]
    by_cases h : 2 ^ (width - 1) ≤ n
    · have : n / 2 ^ (width - 1) = 1 := Nat.div_eq_of_lt_le (by omega) (by omega)
      simp [this, h]
    · simp [Nat.div_eq_of_lt (Nat.lt_of_not_le h), h]
  unfold signed
  split
  · next hlt =>
    have hlt : n < 2 ^ (width - 1) := by
      have h := hlt
      simp only [weight] at h
      exact_mod_cast h
    rw [testBit_natCast]
    by_cases hk : k ≤ width - 1
    · rw [min_eq_left hk]
    · rw [min_eq_right (by omega), top, Nat.testBit_eq_false_of_lt
        (lt_of_lt_of_le hlt (Nat.pow_le_pow_right (by norm_num) (by omega)))]
      simp [hlt]
  · next hge =>
    have hge : 2 ^ (width - 1) ≤ n := by
      have h := hge
      simp only [weight, not_lt] at h
      exact_mod_cast h
    -- the number is the complement of `2 ^ width - 1 - n`
    have hneg : (n : Int) - weight width = Int.negSucc (2 ^ width - (n + 1)) := by
      have hcast : ((weight width : Nat) : Int) = ((2 ^ width : Nat) : Int) := rfl
      rw [hcast, Int.negSucc_eq, Nat.cast_sub hn]
      push_cast
      omega
    rw [hneg]
    simp only [Int.testBit]
    rw [Nat.testBit_two_pow_sub_succ hn]
    by_cases hk : k < width
    · rw [min_eq_left (by omega)]
      simp [hk]
    · rw [min_eq_right (by omega), top]
      simp [hk, hge]

/-- The `c` bits of an integer from bit `j` on, the least significant one first. -/
def intBits (d : Int) (j c : Nat) : List Bool := (List.range' j c).map d.testBit

@[simp] theorem length_intBits (d : Int) (j c : Nat) : (intBits d j c).length = c := by
  simp [intBits]

theorem intBits_append (d : Int) (j c e : Nat) :
    intBits d j c ++ intBits d (j + c) e = intBits d j (c + e) := by
  rw [intBits, intBits, intBits, ← List.map_append, List.range'_append_1]

theorem getElem?_intBits (d : Int) (j c k : Nat) :
    (intBits d j c)[k]?.getD false = (decide (k < c) && d.testBit (j + k)) := by
  unfold intBits
  by_cases hk : k < c <;> simp [hk]

/-! ### Bytes -/

theorem testBit_mask (k c q : Nat) :
    (Run.mask k c).testBit q = (decide (k ≤ q) && decide (q < k + c)) := by
  have h : Run.mask k c = (2 ^ c - 1) <<< k := by
    rw [Run.mask, weight, weight, Nat.shiftLeft_eq, Nat.sub_mul, one_mul]
    show 2 ^ (k + c) - 2 ^ k = 2 ^ c * 2 ^ k - 2 ^ k
    rw [pow_add, Nat.mul_comm]
  rw [h, Nat.testBit_shiftLeft, Nat.testBit_two_pow_sub_one]
  by_cases hk : k ≤ q
  · have : q - k < c ↔ q < k + c := by omega
    simp [hk, this]
  · simp [hk]

theorem testBit_move {q target : Nat} (byte source : Nat) (h : target ≤ q) :
    (Run.move byte source target).testBit q = byte.testBit (q - target + source) := by
  unfold Run.move
  split
  · rw [Nat.testBit_shiftRight]
    congr 1
    omega
  · rw [Nat.testBit_shiftLeft]
    have hq : target - source ≤ q := by omega
    simp only [ge_iff_le, hq, decide_true, Bool.true_and]
    congr 1
    omega

theorem testBit_move_and_mask (byte source target c q : Nat) :
    (Run.move byte source target &&& Run.mask target c).testBit q
      = (decide (target ≤ q) && decide (q < target + c) && byte.testBit (q - target + source)) := by
  rw [Nat.testBit_and, testBit_mask]
  by_cases h : target ≤ q
  · rw [testBit_move byte source h, Bool.and_comm]
  · simp [h]

theorem and_mask_lt {k c : Nat} (byte : Nat) (h : k + c ≤ 8) : byte &&& Run.mask k c < 256 := by
  refine lt_of_le_of_lt Nat.and_le_right ?_
  have hpow : 2 ^ (k + c) ≤ 2 ^ 8 := Nat.pow_le_pow_right (by norm_num) h
  have hpos : 0 < 2 ^ k := Nat.two_pow_pos k
  show 2 ^ (k + c) - 2 ^ k < 256
  omega

/-! ### Buffers -/

/-- **Bit `i` of a buffer** is bit `i % 8` of byte `i / 8`; there are only zeros after the end. -/
def bitAt (buffer : Array UInt8) (i : Nat) : Bool :=
  (buffer[i / 8]?.getD 0).toNat.testBit (i % 8)

@[simp] theorem bitAt_replicate (n i : Nat) : bitAt (Array.replicate n 0) i = false := by
  unfold bitAt
  rw [Array.getElem?_replicate]
  split <;> simp

theorem bitAt_modify {buffer : Array UInt8} {k : Nat} (hk : k < buffer.size) (f : UInt8 → UInt8) (i : Nat) :
    bitAt (buffer.modify k f) i
      = if i / 8 = k then (f (buffer[k]?.getD 0)).toNat.testBit (i % 8) else bitAt buffer i := by
  unfold bitAt
  rw [Array.getElem?_modify]
  by_cases h : k = i / 8
  · subst h
    simp [Array.getElem?_eq_getElem hk]
  · have h' : ¬i / 8 = k := fun e => h e.symm
    simp [h, h']

theorem bitAt_modify_or {buffer : Array UInt8} {k b : Nat} (hk : k < buffer.size) (hb : b < 256)
    (i : Nat) :
    bitAt (buffer.modify k (· ||| UInt8.ofNat b)) i
      = (bitAt buffer i || (decide (i / 8 = k) && b.testBit (i % 8))) := by
  rw [bitAt_modify hk]
  split
  · next h =>
    subst h
    simp [bitAt, Nat.mod_eq_of_lt hb]
  · next h => simp [h]

/-- **`buffer'` is `buffer` with the given bits added** from bit `i` on. -/
structure Adds (buffer : Array UInt8) (i : Nat) (bits : List Bool) (buffer' : Array UInt8) : Prop where
  size_eq : buffer'.size = buffer.size
  bitAt_eq : ∀ k, bitAt buffer' k = (bitAt buffer k || (decide (i ≤ k) && bits[k - i]?.getD false))

namespace Adds

variable {buffer buffer₁ buffer₂ : Array UInt8} {i : Nat} {xs ys : List Bool}

theorem nil (buffer : Array UInt8) (i : Nat) : Adds buffer i [] buffer := ⟨rfl, by simp⟩

theorem append (h₁ : Adds buffer i xs buffer₁) (h₂ : Adds buffer₁ (i + xs.length) ys buffer₂) :
    Adds buffer i (xs ++ ys) buffer₂ := by
  refine ⟨h₂.size_eq.trans h₁.size_eq, fun k => ?_⟩
  rw [h₂.bitAt_eq, h₁.bitAt_eq, Bool.or_assoc]
  congr 1
  by_cases hlow : k < i + xs.length
  · -- before the second part
    by_cases hi : i ≤ k
    · have hx : k - i < xs.length := by omega
      have hy : ¬i + xs.length ≤ k := by omega
      simp [List.getElem?_append_left hx, hy]
    · have hy : ¬i + xs.length ≤ k := by omega
      simp [hi, hy]
  · -- in the second part or after it
    have hx : xs.length ≤ k - i := by omega
    have hsub : k - i - xs.length = k - (i + xs.length) := by omega
    have hi : i ≤ k := by omega
    have hy : i + xs.length ≤ k := by omega
    simp [List.getElem?_append_right hx, List.getElem?_eq_none hx, hsub, hi, hy]

end Adds

/-! ### The byte of a bit -/

/-- A number below `2 ^ 53` has at most 53 binary digits. -/
theorem bitLength_le {n : Nat} (h : n < 2 ^ 53) : bitLength n ≤ 53 := by
  unfold bitLength
  split
  · omega
  · next h0 =>
    have := (Nat.log2_lt h0).2 h
    omega

/-- A number below `2 ^ 53` is below all larger powers of two. -/
theorem not_ge_pow {n k : Nat} (h : n < 2 ^ 53) (hk : 53 ≤ k) : ¬n ≥ Nat.pow 2 k :=
  Nat.not_le.2 (lt_of_lt_of_le h (Nat.pow_le_pow_right Nat.two_pos hk))

/-- Sizes below `2 ^ 53` bits are not rounded. -/
theorem bytesOfBits_eq {n : Nat} (h : n < 2 ^ 53) : bytesOfBits n = .ok ((n + 7) / 8) := by
  have hround : roundBinary 53 n = n := roundBinary_eq (bitLength_le h)
  unfold bytesOfBits eighth
  rw [hround]
  split
  · next hge => exact absurd hge (not_ge_pow (k := 1027) h (by norm_num))
  · congr 1
    split <;> omega

theorem intEighth_natCast {i : Nat} (h : i < 2 ^ 53) : intEighth i = .ok ((i / 8 : Nat) : Int) := by
  have hround : roundBinary 53 i = i := roundBinary_eq (bitLength_le h)
  unfold intEighth eighth
  rw [Int.natAbs_natCast, hround]
  split
  · next hge => exact absurd hge (not_ge_pow (k := 1027) h (by norm_num))
  · rcases Nat.eq_zero_or_pos i with rfl | hpos
    · rfl
    · rw [Int.sign_natCast_of_ne_zero (by omega), one_mul]

/-- **No rounding below bit `2 ^ 53`:** bit `i` stands in byte `i / 8`. -/
theorem place_eq_ok {size i : Nat} (hi : i < 8 * size) (h : i < 2 ^ 53) :
    Run.place size i = .ok (i / 8) := by
  have hk : i / 8 < size := by omega
  have hin : (0 : Int) ≤ ((i / 8 : Nat) : Int) ∧ ((i / 8 : Nat) : Int) < (size : Int) := by omega
  rw [Run.place, intEighth_natCast h]
  simp only [bind, Except.bind, hin, and_self, if_true]
  rfl

@[simp] theorem bitOf_natCast (i : Nat) : Run.bitOf i = i % 8 := by
  unfold Run.bitOf
  omega

end BitSchema.Wire
