import BitSchema.Proofs.Bits

/-!
# Copying the bits of one leaf

`Run.leaf n` copies the `n` bits of a leaf in chunks that stay inside one byte on either side.  Packing
adds the bits of the leaf to the buffer from the cursor on (`leaf_pack`).  Unpacking hands the bits of
the buffer from the cursor on to the accessor, chunk by chunk; `leaf_unpack` turns what one chunk does
to an accessor (`IsChunk`) into what all of them do.

A machine `Stands` at a bit if its cursor is there and the bits to come are inside the buffer and are
counted without rounding.
-/

namespace BitSchema.Wire

namespace Run

variable {α β : Type}

/-! ### Steps -/

variable {x : Run α} {f : α → Run β} {m m' : Machine}

theorem bind_ok {a : α} (h : x m = (.ok a, m')) :
    (x >>= f) m = f a m' := by
  simp only [bind, ExceptT.bind, ExceptT.mk, StateT.bind, h, ExceptT.bindCont]

theorem bind_error {e : Fault} (h : x m = (.error e, m')) :
    (x >>= f) m = (.error e, m') := by
  simp only [bind, ExceptT.bind, ExceptT.mk, StateT.bind, h, ExceptT.bindCont]
  rfl

theorem of_bind_ok {b : β} (h : (x >>= f) m = (.ok b, m')) :
    ∃ a m₁, x m = (.ok a, m₁) ∧ f a m₁ = (.ok b, m') := by
  rcases hx : x m with ⟨r, m₁⟩
  cases r with
  | ok a =>
    rw [bind_ok hx] at h
    exact ⟨a, m₁, rfl, h⟩
  | error e =>
    rw [bind_error hx] at h
    cases h

theorem get_bind (f : Machine → Run β) (m : Machine) : (get >>= f : Run β) m = f m m := rfl

theorem modify_bind (g : Machine → Machine) (f : Unit → Run β) (m : Machine) :
    (modify g >>= f : Run β) m = f () (g m) := rfl

theorem pure_bind (a : α) (f : α → Run β) (m : Machine) : (pure a >>= f : Run β) m = f a m := rfl

theorem ofExcept_bind {x : Except Fault α} {a : α} (h : x = .ok a) (f : α → Run β) (m : Machine) :
    (ofExcept x >>= f) m = f a m := by
  subst h
  rfl

end Run

/-- **A machine stands at bit `i`** with room for `n` more bits. -/
structure Machine.Stands (m : Machine) (i n : Nat) : Prop where
  cursor_eq : m.cursor = i
  room : i + n ≤ 8 * m.buffer.size
  precise : i + n ≤ 2 ^ 53

theorem Machine.Stands.within {m m' : Machine} {i n j k : Nat} (hm : m.Stands i n) (hcursor : m'.cursor = j)
    (hsize : m'.buffer.size = m.buffer.size) (h : j + k ≤ i + n) : m'.Stands j k := by
  obtain ⟨-, hroom, hprecise⟩ := hm
  exact ⟨hcursor, by omega, by omega⟩

namespace Run

variable {i j n c base : Nat} {m : Machine} {d : Int}

/-- A chunk is not empty and stays inside what is left and inside one byte on either side. -/
theorem chunk_bounds (hi : i < 8) (hj : j < n) :
    0 < chunk i j n ∧ j + chunk i j n ≤ n ∧ j % 8 + chunk i j n ≤ 8 ∧ i + chunk i j n ≤ 8 := by
  unfold chunk
  omega

/-! ### Packing -/

/-- **Packing one chunk** of a leaf that holds `d`. -/
theorem packByte_eq (hm : m.Stands i c) (hc : 0 < c) (hj : j % 8 + c ≤ 8) (hi : i % 8 + c ≤ 8)
    (hget : m.accessor.getByte m.indexer (j / 8 * 8) = .ok (byteAt d (j / 8 * 8))) :
    ∃ buffer, packByte j c m = (.ok (), { m with buffer }) ∧
      Adds m.buffer i (intBits d j c) buffer := by
  obtain ⟨hcur, hroom, hprec⟩ := hm
  have hplace : place m.buffer.size m.cursor = .ok (i / 8) := by
    rw [hcur]
    exact place_eq_ok (by omega) (by omega)
  let bits := move (byteAt d (j / 8 * 8)) (j % 8) (i % 8) &&& mask (i % 8) c
  refine ⟨m.buffer.modify (i / 8) (· ||| UInt8.ofNat bits), ?_, Array.size_modify, fun k => ?_⟩
  · have hbit : bitOf m.cursor = i % 8 := by rw [hcur, bitOf_natCast]
    rw [packByte, get_bind, ofExcept_bind hget, ofExcept_bind hplace, hbit]
    rfl
  rw [bitAt_modify_or (by omega) (and_mask_lt _ hi), testBit_move_and_mask, testBit_byteAt,
    getElem?_intBits]
  refine congrArg (bitAt m.buffer k || ·) ?_
  -- bit `k` is one of the chunk: it is in byte `i / 8` and `k - i` bits after the first one
  by_cases hk : i ≤ k ∧ k - i < c
  · have h1 : k / 8 = i / 8 := by omega
    have h2 : i % 8 ≤ k % 8 ∧ k % 8 < i % 8 + c ∧ k % 8 - i % 8 + j % 8 < 8 := by omega
    have h3 : j / 8 * 8 + (k % 8 - i % 8 + j % 8) = j + (k - i) := by omega
    simp [h1, h2, h3, hk]
  · -- any other bit is left as it is
    have h1 : ¬(k / 8 = i / 8 ∧ i % 8 ≤ k % 8 ∧ k % 8 < i % 8 + c) := by omega
    have hleft : (decide (k / 8 = i / 8) && (decide (i % 8 ≤ k % 8) && decide (k % 8 < i % 8 + c))) = false := by
      rw [← Bool.decide_and, ← Bool.decide_and]
      exact decide_eq_false h1
    have hright : (decide (i ≤ k) && decide (k - i < c)) = false := by
      rw [← Bool.decide_and]
      exact decide_eq_false hk
    rw [← Bool.and_assoc (decide (k / 8 = i / 8)), hleft, ← Bool.and_assoc (decide (i ≤ k)), hright, Bool.false_and,
      Bool.false_and]

/-- **Packing a leaf** from bit `j` on: what is left of its bits is added to the buffer. -/
theorem leafFrom_pack {fuel : Nat} (hpack : m.packing = true) (hj : j ≤ n) (hfuel : n - j ≤ fuel)
    (hm : m.Stands i (n - j)) (hget : ∀ s, m.accessor.getByte m.indexer s = .ok (byteAt d s)) :
    ∃ buffer, leafFrom n fuel j m = (.ok (), { m with cursor := ((i + (n - j) : Nat) : Int), buffer }) ∧
      Adds m.buffer i (intBits d j (n - j)) buffer := by
  -- every chunk takes at least one bit, so that the fuel is enough for what is left
  induction fuel generalizing j i m with
  | zero =>
    have h0 : n - j = 0 := by omega
    refine ⟨m.buffer, ?_, by rw [h0]; exact Adds.nil _ _⟩
    rw [h0, Nat.add_zero, ← hm.cursor_eq]
    rfl
  | succ fuel ih =>
    rcases Nat.lt_or_ge j n with hlt | hge
    · -- one chunk and then the rest of the leaf
      obtain ⟨hc, hcn, hcj, hci⟩ := chunk_bounds (i := i % 8) (Nat.mod_lt _ (by norm_num)) hlt
      generalize hcdef : chunk (i % 8) j n = c at hc hcn hcj hci
      have hm₁ : m.Stands i c := hm.within hm.cursor_eq rfl (by omega)
      obtain ⟨buffer₁, hrun₁, hadds₁⟩ := packByte_eq hm₁ hc hcj hci (hget _)
      have hm₂ : ({ m with cursor := ((i + c : Nat) : Int), buffer := buffer₁ } : Machine).Stands
          (i + c) (n - (j + c)) := hm.within rfl hadds₁.size_eq (by omega)
      obtain ⟨buffer₂, hrun₂, hadds₂⟩ := ih (m := { m with cursor := ((i + c : Nat) : Int), buffer := buffer₁ })
        hpack (j := j + c) hcn (by omega) hm₂ hget
      refine ⟨buffer₂, ?_, ?_⟩
      · have hcur : m.cursor + (c : Int) = ((i + c : Nat) : Int) := by
          rw [hm.cursor_eq]
          push_cast
          rfl
        have hend : i + c + (n - (j + c)) = i + (n - j) := by omega
        rw [leafFrom, if_pos hlt, get_bind, hm.cursor_eq, bitOf_natCast, hcdef, if_pos hpack,
          bind_ok hrun₁]
        beta_reduce
        rw [modify_bind, hcur, hrun₂, hend]
      · have hsplit : n - j = c + (n - (j + c)) := by omega
        rw [hsplit, ← intBits_append]
        refine hadds₁.append ?_
        rw [length_intBits]
        exact hadds₂
    · have h0 : n - j = 0 := by omega
      refine ⟨m.buffer, ?_, by rw [h0]; exact Adds.nil _ _⟩
      rw [leafFrom, if_neg (by omega), h0, Nat.add_zero, ← hm.cursor_eq]
      rfl

/-- **Packing a leaf** that holds `d` adds the low `n` bits of `d` to the buffer. -/
theorem leaf_pack (hpack : m.packing = true) (hm : m.Stands i n)
    (hget : ∀ s, m.accessor.getByte m.indexer s = .ok (byteAt d s)) :
    ∃ buffer, leaf n m = (.ok (), { m with cursor := ((i + n : Nat) : Int), buffer }) ∧
      Adds m.buffer i (intBits d 0 n) buffer :=
  leafFrom_pack hpack (Nat.zero_le n) (Nat.sub_le n 0) hm hget

/-! ### Unpacking -/

/-- **`b` holds the `c` bits from bit `j` on** of the leaf whose bits are given by `src`, each at its
place in its byte. -/
def IsChunk (src : Nat → Bool) (j c b : Nat) : Prop :=
  ∀ q, b.testBit q = (decide (j % 8 ≤ q) && decide (q < j % 8 + c) && src (j / 8 * 8 + q))

/-- What the byte of bit `i` of a buffer holds. -/
theorem testBit_byte (buffer : Array UInt8) {r : Nat} (hr : r < 8) :
    (buffer[i / 8]?.getD 0).toNat.testBit r = bitAt buffer (i / 8 * 8 + r) := by
  have h1 : (i / 8 * 8 + r) / 8 = i / 8 := by omega
  have h2 : (i / 8 * 8 + r) % 8 = r := by omega
  rw [bitAt, h1, h2]

/-- The bits that are moved from bit `a` of a buffer to the place of bit `b` in its byte. -/
theorem testBit_moved (buffer : Array UInt8) {a b : Nat} (ha : a % 8 + c ≤ 8) (q : Nat) :
    (move (buffer[a / 8]?.getD 0).toNat (a % 8) (b % 8) &&& mask (b % 8) c).testBit q
      = (decide (b % 8 ≤ q) && decide (q < b % 8 + c) && bitAt buffer (a + (q - b % 8))) := by
  rw [testBit_move_and_mask]
  by_cases hq : b % 8 ≤ q ∧ q < b % 8 + c
  · rw [testBit_byte buffer (by omega)]
    have hsum : a / 8 * 8 + (q - b % 8 + a % 8) = a + (q - b % 8) := by omega
    rw [hsum]
  · have hout : (decide (b % 8 ≤ q) && decide (q < b % 8 + c)) = false := by
      rw [← Bool.decide_and]
      exact decide_eq_false hq
    rw [hout, Bool.false_and, Bool.false_and]

/-- The byte that is unpacked at bit `base + j` holds the bits from bit `j` on of the leaf that starts
at bit `base`. -/
theorem isChunk_move (buffer : Array UInt8) (hi : (base + j) % 8 + c ≤ 8) :
    IsChunk (fun k => bitAt buffer (base + k)) j c
      (move (buffer[(base + j) / 8]?.getD 0).toNat ((base + j) % 8) (j % 8) &&& mask (j % 8) c) := by
  intro q
  rw [testBit_moved buffer hi]
  by_cases hq : j % 8 ≤ q
  · have hsum : base + j + (q - j % 8) = base + (j / 8 * 8 + q) := by omega
    rw [hsum]
  · simp [hq]

/-- **Unpacking one chunk** hands it to the accessor. -/
theorem unpackByte_eq {a : Accessor} (hm : m.Stands (base + j) c) (hc : 0 < c)
    (hset : m.accessor.setByte m.indexer (j / 8 * 8)
      (move (m.buffer[(base + j) / 8]?.getD 0).toNat ((base + j) % 8) (j % 8) &&& mask (j % 8) c) = .ok a) :
    unpackByte j c m = (.ok (), { m with accessor := a }) := by
  obtain ⟨hcur, hroom, hprec⟩ := hm
  have hplace : place m.buffer.size m.cursor = .ok ((base + j) / 8) := by
    rw [hcur]
    exact place_eq_ok (by omega) (by omega)
  have hbit : bitOf m.cursor = (base + j) % 8 := by rw [hcur, bitOf_natCast]
  rw [unpackByte, get_bind, ofExcept_bind hplace]
  simp only [hbit]
  rw [ofExcept_bind hset]
  rfl

/-- **Every chunk is stored.**  Each chunk of the `n` bits at bit `i` takes an accessor of which `inv j` holds to one of
which `inv` holds that many bits further on. -/
def Stores (m : Machine) (inv : Nat → Accessor → Prop) (i n : Nat) : Prop :=
  ∀ j c b a, 0 < c → j + c ≤ n → j % 8 + c ≤ 8 → IsChunk (fun k => bitAt m.buffer (i + k)) j c b → inv j a →
    ∃ a', a.setByte m.indexer (j / 8 * 8) b = .ok a' ∧ inv (j + c) a'

/-- **Unpacking a leaf** from bit `j` on leads to an accessor of which `inv n` holds. -/
theorem leafFrom_unpack {inv : Nat → Accessor → Prop} (hpack : m.packing = false)
    (hroom : base + n ≤ 8 * m.buffer.size) (hprec : base + n ≤ 2 ^ 53)
    (hstep : Stores m inv base n)
    {fuel : Nat} {a : Accessor} (hj : j ≤ n) (hfuel : n - j ≤ fuel) (ha : inv j a) :
    ∃ a', leafFrom n fuel j { m with cursor := ((base + j : Nat) : Int), accessor := a }
        = (.ok (), { m with cursor := ((base + n : Nat) : Int), accessor := a' }) ∧ inv n a' := by
  induction fuel generalizing j a with
  | zero =>
    obtain rfl : j = n := by omega
    exact ⟨a, rfl, ha⟩
  | succ fuel ih =>
    rcases Nat.lt_or_ge j n with hlt | hge
    · -- one chunk, which keeps the invariant, and then the rest of the leaf
      obtain ⟨hc, hcn, hcj, hci⟩ :=
        chunk_bounds (i := (base + j) % 8) (Nat.mod_lt _ (by norm_num)) hlt
      generalize hcdef : chunk ((base + j) % 8) j n = c at hc hcn hcj hci
      have hm₁ : ({ m with cursor := ((base + j : Nat) : Int), accessor := a } : Machine).Stands
          (base + j) c := ⟨rfl, by show base + j + c ≤ 8 * m.buffer.size; omega, by omega⟩
      obtain ⟨a₁, hset, ha₁⟩ := hstep j c _ a hc hcn hcj (isChunk_move m.buffer hci) ha
      obtain ⟨a₂, hrun, ha₂⟩ := ih (j := j + c) hcn (by omega) ha₁
      refine ⟨a₂, ?_, ha₂⟩
      have hcur : ((base + j : Nat) : Int) + (c : Int) = ((base + (j + c) : Nat) : Int) := by
        push_cast
        omega
      rw [leafFrom, if_pos hlt, get_bind, bitOf_natCast, hcdef, if_neg (by simp [hpack]),
        bind_ok (unpackByte_eq hm₁ hc hset)]
      beta_reduce
      rw [modify_bind, hcur, hrun]
    · obtain rfl : j = n := by omega
      refine ⟨a, ?_, ha⟩
      rw [leafFrom, if_neg (by omega)]
      rfl

/-- **Unpacking a leaf** of `n` bits at bit `i`. -/
theorem leaf_unpack {inv : Nat → Accessor → Prop} (hpack : m.packing = false) (hm : m.Stands i n)
    (hstep : Stores m inv i n) (h : inv 0 m.accessor) :
    ∃ a', leaf n m = (.ok (), { m with cursor := ((i + n : Nat) : Int), accessor := a' }) ∧ inv n a' := by
  have hstart : m = { m with cursor := ((i + 0 : Nat) : Int) } := by
    rw [Nat.add_zero, ← hm.cursor_eq]
  obtain ⟨a', hrun, ha'⟩ := leafFrom_unpack hpack hm.room hm.precise hstep (Nat.zero_le n)
    (Nat.sub_le n 0) h
  refine ⟨a', ?_, ha'⟩
  rw [leaf]
  nth_rewrite 1 [hstart]
  exact hrun

end Run

end BitSchema.Wire
