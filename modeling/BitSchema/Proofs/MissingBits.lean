import BitSchema.Proofs.Scan
import BitSchema.Proofs.Unpacking

/-!
# Unpacking fails where bits are missing

A leaf that is unpacked is in the buffer (`room_of_leaf`), and so is an announcement (`room_of_announce`).  A buffer
must be small enough that no place in it is rounded.
-/

namespace BitSchema

open Wire Wire.Run

/-! ### Places in a buffer -/

/-- Rounding does not lead below `2 ^ 53`. -/
theorem le_roundBinary {n : Nat} (h : 2 ^ 53 ≤ n) : 2 ^ 53 ≤ roundBinary 53 n := by
  have hn : n ≠ 0 := by omega
  have hlog : 53 ≤ n.log2 := (Nat.le_log2 hn).2 h
  have hself : 2 ^ n.log2 ≤ n := Nat.log2_self_le hn
  -- the leading digits are kept
  have hunit : 2 ^ n.log2 = 2 ^ 52 * 2 ^ (bitLength n - 53) := by
    have hlength : bitLength n = n.log2 + 1 := by rw [bitLength, if_neg hn]
    rw [← Nat.pow_add]
    congr 1
    omega
  have hq : 2 ^ 52 ≤ n / 2 ^ (bitLength n - 53) :=
    (Nat.le_div_iff_mul_le (Nat.two_pow_pos _)).2 (hunit ▸ hself)
  have hkept : 2 ^ 53 ≤ n / 2 ^ (bitLength n - 53) * 2 ^ (bitLength n - 53) := by
    calc 2 ^ 53 ≤ 2 ^ n.log2 := Nat.pow_le_pow_right Nat.two_pos hlog
      _ = 2 ^ 52 * 2 ^ (bitLength n - 53) := hunit
      _ ≤ _ := Nat.mul_le_mul_right _ hq
  unfold roundBinary
  simp only [Nat.pow_eq]
  split
  · exact hkept.trans (Nat.mul_le_mul_right _ (Nat.le_succ _))
  · exact hkept

/-- **Only bits of the buffer have a place in it.** -/
theorem Wire.lt_of_place {size i k : Nat} (hsize : size ≤ 2 ^ 50) (h : place size i = .ok k) : i < 8 * size := by
  by_contra hge
  have heighth : intEighth i = .error .quotientTooLarge ∨ ∃ e : Nat, intEighth i = .ok (e : Int) ∧ size ≤ e := by
    by_cases hi : i < 2 ^ 53
    · exact .inr ⟨i / 8, intEighth_natCast hi, by omega⟩
    · have hround := le_roundBinary (Nat.not_lt.1 hi)
      unfold intEighth eighth
      rw [Int.natAbs_natCast]
      split
      · exact .inl rfl
      · refine .inr ⟨roundBinary 53 i / 8, ?_, by omega⟩
        rw [Int.sign_natCast_of_ne_zero (by omega), one_mul]
  rw [place] at h
  rcases heighth with herror | ⟨e, hok, he⟩
  · rw [herror] at h
    cases h
  · have hin : ¬((0 : Int) ≤ (e : Int) ∧ (e : Int) < (size : Int)) := by omega
    have hbefore : ¬((e : Int) < 0 ∧ 0 ≤ (e : Int) + (size : Int)) := by omega
    rw [hok] at h
    simp only [bind, Except.bind, hin, hbefore, if_false] at h
    cases h

/-! ### Leaves -/

namespace Wire.Run

variable {m m' : Machine} {i : Nat}

/-- A step that takes over an outcome changes nothing. -/
theorem of_ofExcept_ok {α : Type} {x : Except Fault α} {a : α} (h : ofExcept x m = (.ok a, m')) :
    x = .ok a ∧ m' = m := by
  cases x with
  | error f => cases h
  | ok b =>
    obtain ⟨hb, rfl⟩ := Prod.mk.inj h
    exact ⟨hb, rfl⟩

theorem room_of_unpackByte {j c : Nat} {a : Unit} (hsize : m.buffer.size ≤ 2 ^ 50) (hcursor : m.cursor = i)
    (h : unpackByte j c m = (.ok a, m')) : i < 8 * m.buffer.size ∧ ∃ acc, m' = { m with accessor := acc } := by
  rw [unpackByte, get_bind] at h
  obtain ⟨k, m₁, hplace, hrest⟩ := of_bind_ok h
  obtain ⟨hk, rfl⟩ := of_ofExcept_ok hplace
  obtain ⟨acc, m₂, hset, hlast⟩ := of_bind_ok hrest
  obtain ⟨-, rfl⟩ := of_ofExcept_ok hset
  rw [hcursor] at hk
  exact ⟨lt_of_place hsize hk, acc, (Prod.mk.inj hlast).2.symm⟩

/-- **The bits of a leaf that is unpacked are in the buffer**, from bit `j` on. -/
theorem room_of_leafFrom (n : Nat) {fuel j : Nat} {a : Unit} (hsize : m.buffer.size ≤ 2 ^ 50) (hpack : m.packing = false)
    (hcursor : m.cursor = i) (hj : j < n) (hfuel : n - j ≤ fuel) (h : leafFrom n fuel j m = (.ok a, m')) :
    i + (n - j) ≤ 8 * m.buffer.size := by
  induction fuel generalizing m i j with
  | zero => omega
  | succ fuel ih =>
    rw [leafFrom, if_pos hj, get_bind, if_neg (by simp [hpack])] at h
    obtain ⟨_, m₁, hbyte, hrest⟩ := of_bind_ok h
    obtain ⟨hin, acc, rfl⟩ := room_of_unpackByte hsize hcursor hbyte
    obtain ⟨hpos, hle, -, hwithin⟩ := chunk_bounds (i := i % 8) (by omega) hj
    beta_reduce at hrest
    rw [modify_bind, hcursor, bitOf_natCast] at hrest
    -- the chunk does not go beyond its byte
    by_cases hlast : j + chunk (i % 8) j n < n
    · have hroom := ih (m := { m with cursor := (i : Int) + chunk (i % 8) j n, accessor := acc })
        (i := i + chunk (i % 8) j n) hsize hpack (by push_cast; rfl) hlast (by omega) hrest
      have hroom : i + chunk (i % 8) j n + (n - (j + chunk (i % 8) j n)) ≤ 8 * m.buffer.size := hroom
      omega
    · omega

/-- **A leaf that is unpacked is in the buffer.** -/
theorem room_of_leaf {n : Nat} {a : Unit} (hn : 0 < n) (hsize : m.buffer.size ≤ 2 ^ 50) (hpack : m.packing = false)
    (hcursor : m.cursor = i) (h : leaf n m = (.ok a, m')) : i + n ≤ (Source.ofBytes m.buffer).limit := by
  have hroom : i + n ≤ 8 * m.buffer.size := room_of_leafFrom n hsize hpack hcursor hn le_rfl h
  exact le_min hroom (by omega)

theorem room_of_announce {n : Int} {a : Nat} (hsize : m.buffer.size ≤ 2 ^ 50) (hpack : m.packing = false)
    (hcursor : m.cursor = i) (h : announce n m = (.ok a, m')) : i + aheadBits ≤ (Source.ofBytes m.buffer).limit := by
  rw [announce, get_bind, if_neg (by simp [hpack])] at h
  obtain ⟨acc, m₁, haside, -⟩ := of_bind_ok h
  rw [aside] at haside
  rcases hleaf : leaf aheadWidth { m with indexer := ⟨1, []⟩, accessor := .int 0 } with ⟨r, m₂⟩
  rw [hleaf] at haside
  cases r with
  | error f => cases haside
  | ok u =>
    exact room_of_leaf (n := 16) (m := { m with indexer := ⟨1, []⟩, accessor := .int 0 }) (by norm_num) hsize
      hpack hcursor
      hleaf

end Wire.Run

end BitSchema
