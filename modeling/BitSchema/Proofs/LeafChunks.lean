import BitSchema.Proofs.Scan

/-!
# A leaf is copied chunk by chunk

Copying a leaf of `n` bits is a row of single-byte steps, each of which copies the next chunk and goes on behind it
(`leaf_eq_chunks`).  A chunk has one to eight bits, and all of them stand in one byte of the buffer and in one byte of
the number.  The size of a chunk, the mask and the shift are those of the general functions on integers
(`chunkSize_natCast`, `maskOf_natCast`, `shiftBy_sub`).

So `n` bits of an integer are added to the buffer, or `n` bits of the buffer to an integer, and nothing else changes
(`leaf_copies`).
-/

namespace BitSchema.Wire

/-! ### The general functions on integers -/

theorem chunkSize_natCast {i j n : Nat} (h : j ≤ n) : chunkSize i j n = Run.chunk (i % 8) j n := by
  unfold chunkSize Run.chunk
  rw [Int.fmod_eq_emod_of_nonneg _ (by norm_num), Int.fmod_eq_emod_of_nonneg _ (by norm_num)]
  omega

theorem maskOf_natCast {k c : Nat} (h : k + c ≤ 8) : maskOf k c = .ok (Run.mask k c : Int) := by
  have hpower (e : Nat) (he : e ≤ 8) : powerOfTwo (e : Int) = .ok ((weight e : Nat) : Int) := by
    unfold powerOfTwo
    rw [if_neg (by omega), if_pos (by omega), Int.toNat_natCast]
  have hle : weight k ≤ weight (k + c) := Nat.pow_le_pow_right (by norm_num) (by omega)
  unfold maskOf Run.mask
  split
  · next hk =>
    obtain rfl : k = 0 := by omega
    rw [hpower c (by omega), Nat.zero_add] at *
    rw [Nat.cast_sub (by simpa using hle)]
    rfl
  · have hsum : ((k : Int) + c) = ((k + c : Nat) : Int) := by push_cast; rfl
    rw [hsum, hpower _ h, hpower k (by omega), Nat.cast_sub hle]
    rfl

theorem shiftBy_sub (byte source target : Nat) :
    shiftBy byte ((source : Int) - target) = Run.move byte source target := by
  unfold shiftBy Run.move
  by_cases h : target < source
  · have hk : ((source : Int) - target).toNat = source - target := by omega
    rw [if_pos (by omega), if_pos h, hk]
    rfl
  · have hk : (-((source : Int) - target)).toNat = target - source := by omega
    rw [if_neg (by omega), if_neg h, hk, Nat.shiftLeft_eq, weight]
    push_cast
    rfl

namespace Run

/-! ### The chunks of a leaf -/

/-- **The chunks** of a leaf of `n` bits that starts at bit `i` of the stream: the bits done before each of them and its
size. -/
def chunks (i n : Nat) : Nat → Nat → List (Nat × Nat)
  | 0, _ => []
  | fuel + 1, j => if j < n then
      let c := chunk ((i + j) % 8) j n
      (j, c) :: chunks i n fuel (j + c)
    else []

/-- **A single-byte step.** -/
def copyByte (j c : Nat) : Run Unit := fun m => if m.packing then packByte j c m else unpackByte j c m

def copyChunks : List (Nat × Nat) → Run Unit
  | [] => return ()
  | p :: r => do
    copyByte p.1 p.2
    modify fun m => { m with cursor := m.cursor + p.2 }
    copyChunks r

variable {i j n fuel : Nat} {m : Machine}

theorem chunks_bounds {p : Nat × Nat} (h : p ∈ chunks i n fuel j) :
    1 ≤ p.2 ∧ p.2 ≤ 8 ∧ p.1 + p.2 ≤ n ∧ (p.1 + p.2 - 1) / 8 = p.1 / 8 ∧ (i + p.1 + p.2 - 1) / 8 = (i + p.1) / 8 := by
  induction fuel generalizing j with
  | zero => cases h
  | succ fuel ih =>
    unfold chunks at h
    split at h
    · next hlt =>
      rcases List.mem_cons.1 h with rfl | h
      · obtain ⟨hpos, hn, hj, hi⟩ := chunk_bounds (i := (i + j) % 8) (Nat.mod_lt _ (by norm_num)) hlt
        dsimp only
        omega
      · exact ih h
    · cases h

theorem cursor_packByte (j c : Nat) (m : Machine) : (packByte j c m).2.cursor = m.cursor := by
  rw [packByte, get_bind]
  cases m.accessor.getByte m.indexer (j / 8 * 8) with
  | error f => rfl
  | ok byte =>
    rw [ofExcept_bind rfl]
    cases place m.buffer.size m.cursor <;> rfl

theorem cursor_unpackByte (j c : Nat) (m : Machine) : (unpackByte j c m).2.cursor = m.cursor := by
  rw [unpackByte, get_bind]
  cases place m.buffer.size m.cursor with
  | error f => rfl
  | ok k =>
    rw [ofExcept_bind rfl]
    cases m.accessor.setByte m.indexer (j / 8 * 8) _ <;> rfl

theorem cursor_copyByte (j c : Nat) (m : Machine) : (copyByte j c m).2.cursor = m.cursor := by
  unfold copyByte
  split
  · exact cursor_packByte j c m
  · exact cursor_unpackByte j c m

/-- **A leaf is the row of its chunks**, also if one of them fails. -/
theorem leafFrom_eq_chunks (hcursor : m.cursor = ((i + j : Nat) : Int)) :
    leafFrom n fuel j m = copyChunks (chunks i n fuel j) m := by
  induction fuel generalizing j m with
  | zero => rfl
  | succ fuel ih =>
    rw [leafFrom, chunks]
    split
    · generalize hc : chunk ((i + j) % 8) j n = c
      rw [get_bind, hcursor, bitOf_natCast, hc, copyChunks]
      have hkept := cursor_copyByte j c m
      rcases hrun : copyByte j c m with ⟨r, m₁⟩
      rw [hrun] at hkept
      have hnext : m₁.cursor + (c : Int) = ((i + (j + c) : Nat) : Int) := by
        rw [show m₁.cursor = m.cursor from hkept, hcursor]
        push_cast
        omega
      -- the rest of the leaf starts behind the chunk
      have hsame : ∀ x : Run Unit, x m = (r, m₁) →
          (x >>= fun _ => modify (fun m => { m with cursor := m.cursor + (c : Int) }) >>= fun _ =>
            leafFrom n fuel (j + c)) m =
            (copyByte j c >>= fun _ => modify (fun m => { m with cursor := m.cursor + (c : Int) }) >>= fun _ =>
              copyChunks (chunks i n fuel (j + c))) m := by
        intro x hx
        cases r with
        | ok u =>
          rw [bind_ok hx, bind_ok hrun]
          exact ih hnext
        | error e => rw [bind_error hx, bind_error hrun]
      split
      · next hpack => exact hsame (packByte j c) ((if_pos hpack).symm.trans hrun)
      · next hpack => exact hsame (unpackByte j c) ((if_neg hpack).symm.trans hrun)
    · rfl

/-- **A leaf of `n` bits at bit `i`** is copied in chunks. -/
theorem leaf_eq_chunks (hcursor : m.cursor = (i : Int)) : leaf n m = copyChunks (chunks i n n 0) m :=
  leafFrom_eq_chunks hcursor

/-! ### Unpacking a number -/

/-- **Unpacking a leaf into an integer** adds the bits of the buffer from bit `i` on to it. -/
theorem leaf_unpack_int {d : Int} (hpack : m.packing = false) (hm : m.Stands i n) (hfield : m.indexer.field = 1)
    (haccessor : m.accessor = .int d) :
    ∃ d', leaf n m = (.ok (), { m with cursor := ((i + n : Nat) : Int), accessor := .int d' }) ∧
      ∀ k, d'.testBit k = (d.testBit k || (decide (k < n) && bitAt m.buffer (i + k))) := by
  -- after `j` bits those are added that stand for the bits below `j`
  let inv (j : Nat) (a : Accessor) : Prop :=
    ∃ d', a = .int d' ∧ ∀ k, d'.testBit k = (d.testBit k || (decide (k < j) && bitAt m.buffer (i + k)))
  have hstep : Stores m inv i n := by
    rintro j c b _ hc hn hj hb ⟨d', rfl, hbits⟩
    refine ⟨.int (orInt d' ((b : Int) * weight (j / 8 * 8))), by simp [Accessor.setByte, hfield], _, rfl, fun k => ?_⟩
    rw [testBit_orInt, hbits, testBit_mul_weight, hb, Bool.or_assoc]
    congr 1
    -- bit `k` is among the bits below `j`, in the chunk, or above it
    by_cases hlow : k < j
    · have h1 : k < j + c := by omega
      simp only [hlow, h1, decide_true, Bool.true_and, Bool.or_eq_left_iff_imp, Bool.and_eq_true, decide_eq_true_eq]
      intro h
      omega
    · by_cases hin : k < j + c
      · have h1 : j / 8 * 8 ≤ k ∧ j % 8 ≤ k - j / 8 * 8 ∧ k - j / 8 * 8 < j % 8 + c := by omega
        have h2 : j / 8 * 8 + (k - j / 8 * 8) = k := by omega
        simp [hlow, hin, h1, h2]
      · have h1 : ¬k - j / 8 * 8 < j % 8 + c := by omega
        simp [hlow, hin, h1]
  obtain ⟨a, hrun, d', rfl, hbits⟩ := leaf_unpack hpack hm hstep ⟨d, haccessor, by simp⟩
  exact ⟨d', hrun, hbits⟩

/-- **Copying one leaf.**  Let there be `n` bits from bit `i` on in a buffer, below bit `2 ^ 53`.

* Packing an integer `d` succeeds, goes to bit `i + n`, adds bit `k` of `d` to bit `i + k` of the buffer for each `k <
  n` and changes nothing else.
* Unpacking into an integer `d` succeeds, goes to bit `i + n`, leaves the buffer as it is, and adds to `d` the number
  whose bit `k` is bit `i + k` of the buffer for `k < n`.
* Either is a row of single-byte steps, each of which copies one to eight bits that stand in one byte of the buffer and
  in one byte of the integer. -/
theorem leaf_copies (i n : Nat) (buffer : Array UInt8) (d : Int) (stack : List Nat) (hprecise : i + n < 2 ^ 53)
    (hroom : i + n ≤ 8 * buffer.size) :
    (∃ buffer', leaf n ⟨true, buffer, i, ⟨1, stack⟩, .int d⟩ =
      (.ok (), ⟨true, buffer', (i + n : Nat), ⟨1, stack⟩, .int d⟩) ∧
      buffer'.size = buffer.size ∧
      ∀ k, bitAt buffer' k = (bitAt buffer k || (decide (i ≤ k ∧ k < i + n) && d.testBit (k - i)))) ∧
    (∃ bits : Nat, leaf n ⟨false, buffer, i, ⟨1, stack⟩, .int d⟩ =
        (.ok (), ⟨false, buffer, (i + n : Nat), ⟨1, stack⟩, .int (orInt d bits)⟩) ∧
      ∀ k, bits.testBit k = (decide (k < n) && bitAt buffer (i + k))) ∧
    (∀ packing, leaf n ⟨packing, buffer, i, ⟨1, stack⟩, .int d⟩ =
      copyChunks (chunks i n n 0) ⟨packing, buffer, i, ⟨1, stack⟩, .int d⟩) ∧
    ∀ p ∈ chunks i n n 0, 1 ≤ p.2 ∧ p.2 ≤ 8 ∧ p.1 + p.2 ≤ n ∧
      (p.1 + p.2 - 1) / 8 = p.1 / 8 ∧ (i + p.1 + p.2 - 1) / 8 = (i + p.1) / 8 := by
  have hstands (packing : Bool) : (⟨packing, buffer, i, ⟨1, stack⟩, .int d⟩ : Machine).Stands i n :=
    ⟨rfl, hroom, by omega⟩
  refine ⟨?_, ?_, fun packing => leaf_eq_chunks rfl, fun p hp => chunks_bounds hp⟩
  · obtain ⟨buffer', hrun, hsize, hbits⟩ := leaf_pack (d := d) rfl (hstands true) fun s => rfl
    refine ⟨buffer', hrun, hsize, fun k => ?_⟩
    rw [hbits, getElem?_intBits, Nat.zero_add, ← Bool.and_assoc, ← Bool.decide_and]
    have hiff : (i ≤ k ∧ k - i < n) ↔ i ≤ k ∧ k < i + n := by omega
    simp only [hiff]
  · obtain ⟨d', hrun, hbits⟩ := leaf_unpack_int rfl (hstands false) rfl rfl
    let bits := (Source.ofBytes buffer).number i n
    have htest (k : Nat) : bits.testBit k = (decide (k < n) && bitAt buffer (i + k)) := Source.testBit_number _ i n k
    have hd' : d' = orInt d bits := int_eq_of_testBit fun k => by rw [hbits, testBit_orInt, testBit_natCast, htest]
    exact ⟨bits, hd' ▸ hrun, htest⟩

/-- Thirteen bits from bit 5 on are copied in four steps. -/
theorem leaf_copies_thirteen :
    5 + 13 < 2 ^ 53 ∧ 5 + 13 ≤ 8 * (#[255, 0, 18] : Array UInt8).size ∧
      chunks 5 13 13 0 = [(0, 3), (3, 5), (8, 3), (11, 2)] ∧
      (∃ buffer', leaf 13 ⟨true, #[255, 0, 18], 5, ⟨1, []⟩, .int (-77)⟩ =
          (.ok (), ⟨true, buffer', 18, ⟨1, []⟩, .int (-77)⟩) ∧ buffer'.size = 3 ∧
        ∀ k, bitAt buffer' k =
          (bitAt #[255, 0, 18] k || (decide (5 ≤ k ∧ k < 18) && (-77 : Int).testBit (k - 5)))) ∧
      ∃ bits : Nat, leaf 13 ⟨false, #[255, 0, 18], 5, ⟨1, []⟩, .int (-77)⟩ =
          (.ok (), ⟨false, #[255, 0, 18], 18, ⟨1, []⟩, .int (orInt (-77) bits)⟩) ∧
        ∀ k, bits.testBit k = (decide (k < 13) && bitAt #[255, 0, 18] (5 + k)) := by
  have hcopies := leaf_copies 5 13 #[255, 0, 18] (-77) [] (by norm_num) (by decide)
  exact ⟨by norm_num, by decide, by decide, hcopies.1, hcopies.2.1⟩

end Run

end BitSchema.Wire
