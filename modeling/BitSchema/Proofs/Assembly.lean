import BitSchema.Proofs.Nesting

/-!
# Leaves put together from their chunks

Unpacking adds the bits of a leaf chunk by chunk, from the least significant one on.  After `j` bits of a number
`d` the leaf holds the low `j` bits of `d`, and with the last chunk, which brings the sign, it holds `d` itself
(`partly`, `orInt_leafBits`).  This needs `d` to be within the bounds of its type: the bits above are those that the
last bit stands for (`testBit_of_range`).
-/

namespace BitSchema.Wire

open Accessor Run

/-! ### Integers by their low bits -/

variable {d : Int} {k width j c b : Nat} {kind : Leaf} {src : Nat → Bool}

/-- **The bits of a remainder** by a power of two. -/
theorem testBit_emod_weight (d : Int) (j k : Nat) :
    (d % (weight j : Int)).testBit k = (decide (k < j) && d.testBit k) := by
  have hpow : weight j = 2 ^ j := rfl
  have hpos : 0 < 2 ^ j := Nat.two_pow_pos j
  rw [hpow]
  cases d with
  | ofNat a =>
    have h : Int.ofNat a % ((2 ^ j : Nat) : Int) = ((a % 2 ^ j : Nat) : Int) := rfl
    rw [h, testBit_natCast, Nat.testBit_mod_two_pow]
    rfl
  | negSucc a =>
    have h : Int.negSucc a % ((2 ^ j : Nat) : Int) = ((2 ^ j - (a % 2 ^ j + 1) : Nat) : Int) := by
      have hmod : a % 2 ^ j < 2 ^ j := Nat.mod_lt _ hpos
      rw [Int.negSucc_emod _ (by exact_mod_cast hpos), Nat.cast_sub (by omega)]
      push_cast
      omega
    rw [h, testBit_natCast, Nat.testBit_two_pow_sub_succ (Nat.mod_lt _ hpos), Nat.testBit_mod_two_pow]
    simp only [Int.testBit]
    by_cases hk : k < j <;> simp [hk]

/-- Numbers below a power of two have no higher bits. -/
theorem testBit_of_lt {n : Nat} (h0 : 0 ≤ d) (h : d < weight n) (hk : n ≤ k) : d.testBit k = false := by
  obtain ⟨a, rfl⟩ := Int.eq_ofNat_of_zero_le h0
  have ha : a < 2 ^ n := by exact_mod_cast h
  exact Nat.testBit_eq_false_of_lt (lt_of_lt_of_le ha (Nat.pow_le_pow_right (by norm_num) hk))

theorem testBit_of_signed_range {n : Nat} (hlow : -(weight n : Int) ≤ d) (hhigh : d < weight n) (hk : n ≤ k) :
    d.testBit k = decide (d < 0) := by
  cases d with
  | ofNat a =>
    have hbit : (Int.ofNat a).testBit k = false := testBit_of_lt (Int.natCast_nonneg a) hhigh hk
    have hneg : ¬Int.ofNat a < 0 := not_lt.2 (Int.natCast_nonneg a)
    simp only [hbit, hneg, decide_false]
  | negSucc a =>
    have ha : a < 2 ^ n := by
      have hneg : -((2 ^ n : Nat) : Int) ≤ Int.negSucc a := hlow
      rw [Int.negSucc_eq] at hneg
      omega
    have hbit := Nat.testBit_eq_false_of_lt (lt_of_lt_of_le ha (Nat.pow_le_pow_right (by norm_num) hk))
    simp [Int.testBit, hbit]

/-- **The bits above the width of a number within bounds** are the sign of a signed one and zeros otherwise. -/
theorem testBit_of_range (hsuits : kind.Suits width) (hkind : kind ≠ .bool) (hd : kind.Range width d)
    (hk : width ≤ k) :
    d.testBit k = match kind with
      | .signed _ => d.testBit (width - 1)
      | _ => false := by
  cases kind with
  | bool => exact absurd rfl hkind
  | unsigned => exact testBit_of_lt hd.1 hd.2 hk
  | signed n =>
    show d.testBit k = d.testBit (width - 1)
    rw [testBit_of_signed_range hd.1 hd.2 (by omega), testBit_of_signed_range hd.1 hd.2 le_rfl]

/-! ### Chunks in their places -/

/-- What a leaf that will hold `d` holds after `j` of its bits. -/
def partly (width : Nat) (d : Int) (j : Nat) : Int := if j < width then d % weight j else d

theorem partly_zero (h : 0 < width) (d : Int) : partly width d 0 = 0 := by
  rw [partly, if_pos h]
  exact Int.emod_one d

theorem partly_width (width : Nat) (d : Int) : partly width d width = d := by
  rw [partly, if_neg (lt_irrefl _)]

theorem testBit_partly_of_lt (hk : k < width) (hj : j ≤ width) :
    (partly width d j).testBit k = (decide (k < j) && d.testBit k) := by
  unfold partly
  split
  · exact testBit_emod_weight d j k
  · have : k < j := by omega
    simp [this]

theorem testBit_chunk (hb : IsChunk src j c b) (k : Nat) :
    ((b : Int) * weight (j / 8 * 8)).testBit k = (decide (j ≤ k) && decide (k < j + c) && src k) := by
  rw [testBit_mul_weight]
  by_cases hs : j / 8 * 8 ≤ k
  · have h1 : j % 8 ≤ k - j / 8 * 8 ↔ j ≤ k := by omega
    have h2 : k - j / 8 * 8 < j % 8 + c ↔ k < j + c := by omega
    have h3 : j / 8 * 8 + (k - j / 8 * 8) = k := by omega
    rw [hb]
    simp [hs, h1, h2, h3]
  · have hj : ¬j ≤ k := by omega
    simp [hs, hj]

theorem chunk_lt (hb : IsChunk src j c b) (hjc : j + c ≤ width) :
    b * weight (j / 8 * 8) < 2 ^ width := by
  refine Nat.lt_pow_two_of_testBit _ fun k hk => ?_
  have hbit := testBit_chunk hb k
  have hlow : ¬k < j + c := by omega
  rw [← Nat.cast_mul, testBit_natCast] at hbit
  simpa [hlow] using hbit

/-- The bits of a chunk as a leaf takes it.  The last chunk of a signed leaf brings the sign. -/
theorem testBit_leafBits (hsuits : kind.Suits width) (hkind : kind ≠ .bool) (hb : IsChunk src j c b) (hc : 0 < c)
    (hjc : j + c ≤ width) (k : Nat) :
    (leafBits kind (j / 8 * 8) b).testBit k = if k < width then decide (j ≤ k) && decide (k < j + c) && src k
      else match kind with
        | .signed _ => decide (j + c = width) && src (width - 1)
        | _ => false := by
  cases kind with
  | bool => exact absurd rfl hkind
  | unsigned =>
    show ((b : Int) * weight (j / 8 * 8)).testBit k = _
    rw [testBit_chunk hb]
    split
    · rfl
    · have : ¬k < j + c := by omega
      simp [this]
  | signed n =>
    obtain ⟨rfl, hpos⟩ := hsuits
    have hcast : (b : Int) * weight (j / 8 * 8) = ((b * weight (j / 8 * 8) : Nat) : Int) := by push_cast; rfl
    show (signed n ((b : Int) * weight (j / 8 * 8))).testBit k = _
    rw [hcast, testBit_signed hpos (chunk_lt hb hjc), ← testBit_natCast, ← hcast, testBit_chunk hb]
    split
    · next hk => rw [min_eq_left (by omega)]
    · next hk =>
      -- the highest bit is repeated, and it is in the last chunk
      rw [min_eq_right (by omega)]
      by_cases hend : j + c = n
      · have h1 : j ≤ n - 1 ∧ n - 1 < j + c := by omega
        simp [h1, hend, hpos]
      · have h1 : ¬n - 1 < j + c := by omega
        simp [h1, hend]

/-- **Adding a chunk** to what a leaf holds already. -/
theorem orInt_leafBits (hsuits : kind.Suits width) (hkind : kind ≠ .bool) (hd : kind.Range width d)
    (hsrc : ∀ k < width, src k = d.testBit k) (hb : IsChunk src j c b) (hc : 0 < c) (hjc : j + c ≤ width) :
    orInt (partly width d j) (leafBits kind (j / 8 * 8) b) = partly width d (j + c) := by
  refine int_eq_of_testBit fun k => ?_
  have hj : j < width := by omega
  rw [testBit_orInt, testBit_leafBits hsuits hkind hb hc hjc]
  by_cases hk : k < width
  · -- a bit of the leaf is there already, or comes with the chunk, or comes later
    rw [testBit_partly_of_lt hk (by omega), testBit_partly_of_lt hk hjc, if_pos hk, hsrc k hk]
    by_cases h1 : k < j
    · have h2 : k < j + c := by omega
      simp [h1, h2]
    · have h2 : j ≤ k := by omega
      simp [h1, h2]
  · -- above the width only the sign of the last chunk counts
    have hlow : (partly width d j).testBit k = false := by
      have h1 : ¬k < j := by omega
      rw [partly, if_pos hj, testBit_emod_weight]
      simp [h1]
    rw [hlow, if_neg hk, Bool.false_or]
    by_cases hend : j + c = width
    · rw [partly, if_neg (by omega), testBit_of_range hsuits hkind hd (by omega)]
      cases kind with
      | bool => exact absurd rfl hkind
      | unsigned => rfl
      | signed n => simp [hend, hsrc (width - 1) (by omega)]
    · have h1 : ¬k < j + c := by omega
      rw [partly, if_pos (by omega), testBit_emod_weight]
      cases kind <;> simp [h1, hend]

end BitSchema.Wire
