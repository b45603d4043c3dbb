import BitSchema.Proofs.AnyBytes
import BitSchema.Proofs.ByteCopies

/-!
# Packing by copies

The copies of a message lay the bits of an object into a buffer, one part after the other.  In C the first copy to a
byte replaces what is in it, so that the buffer may hold anything before; in Go it must hold zeros.  What has been
laid so far (`Laid`) therefore tells of the bits after it only that the rest of the last byte is zero, or all of them
(`Fresh`).

`pack_eq_copies` says that this gives the bytes into which the object is packed otherwise.
-/

namespace BitSchema

open Wire Loading List

/-! ### Bits that are laid -/

/-- **Bits can be added** to a buffer from bit `i` on: the rest of the byte is zero, or in Go all that follows. -/
def Fresh (l : Dialect) (buffer : Array UInt8) (i : Nat) : Prop :=
  ∀ k, i ≤ k → (l = .c → k < (i + 7) / 8 * 8) → bitAt buffer k = false

/-- **`buffer'` is `buffer` after bits were laid** from bit `i` on. -/
structure Laid (l : Dialect) (buffer : Array UInt8) (i : Nat) (bits : List Bool) (buffer' : Array UInt8) : Prop where
  size_eq : buffer'.size = buffer.size
  before : ∀ k < i, bitAt buffer' k = bitAt buffer k
  carries : Carries buffer' i bits
  fresh : Fresh l buffer' (i + bits.length)

section

variable {l : Dialect} {buffer buffer₁ buffer₂ : Array UInt8} {i : Nat} {xs ys : List Bool}

theorem Laid.nil (h : Fresh l buffer i) : Laid l buffer i [] buffer :=
  ⟨rfl, fun _ _ => rfl, fun _ hk => absurd hk (Nat.not_lt_zero _), h⟩

theorem Laid.append (h₁ : Laid l buffer i xs buffer₁) (h₂ : Laid l buffer₁ (i + xs.length) ys buffer₂) :
    Laid l buffer i (xs ++ ys) buffer₂ := by
  refine ⟨h₂.size_eq.trans h₁.size_eq, fun k hk => ?_, carries_append.2 ⟨fun k hk => ?_, h₂.carries⟩, ?_⟩
  · rw [h₂.before k (by omega), h₁.before k hk]
  · rw [h₂.before (i + k) (by omega), h₁.carries k hk]
  · rw [length_append, ← Nat.add_assoc]
    exact h₂.fresh

/-- **A copy lays bits**, if it replaces the byte exactly where a byte starts in C. -/
theorem Wire.Copied.laid {source out : Array UInt8} {a c : Nat} {bits : List Bool}
    (h : Copied (l == .c && (i % 8 == 0)) source buffer a i c out) (hfresh : Fresh l buffer i) (hc : 0 < c)
    (hi : i % 8 + c ≤ 8) (hlength : bits.length = c) (hbits : Carries source a bits) : Laid l buffer i bits out := by
  subst hlength
  generalize hinstead : (l == .c && (i % 8 == 0)) = instead at h
  have hstart : instead = true → l = .c ∧ i % 8 = 0 := by
    rintro rfl
    simpa using hinstead
  have hlater : instead = false → l = .c → i % 8 ≠ 0 := by
    rintro rfl rfl
    simpa using hinstead
  refine ⟨h.size_eq, fun k hk => ?_, fun k hk => ?_, fun k hk hbyte => ?_⟩
  · -- nothing stands before the first bit of a byte that is replaced
    have hkeep : ¬(instead = true ∧ k / 8 = i / 8) := by
      rintro ⟨hinst, hkb⟩
      have := (hstart hinst).2
      omega
    have hnot : ¬i ≤ k := by omega
    have hkeep' : (instead && decide (k / 8 = i / 8)) = false := by
      rw [← Bool.not_eq_true, Bool.and_eq_true, decide_eq_true_eq]
      exact hkeep
    rw [h.bitAt_eq, hkeep']
    simp [hnot]
  · -- the bits themselves are alone in their places
    have hold : (!(instead && decide ((i + k) / 8 = i / 8)) && bitAt buffer (i + k)) = false := by
      have hsame : (i + k) / 8 = i / 8 := by omega
      cases instead with
      | true => simp [hsame]
      | false =>
        have hzero := hfresh (i + k) (by omega) fun hl => by
          have := hlater rfl hl
          omega
        simp [hzero]
    have hin : i ≤ i + k ∧ i + k < i + bits.length := by omega
    rw [h.bitAt_eq, hold, Nat.add_sub_cancel_left, hbits k hk]
    simp [hin]
  · -- after them the byte is still empty
    have hout : ¬k < i + bits.length := by omega
    rw [h.bitAt_eq]
    cases instead with
    | true =>
      obtain ⟨hl, h8⟩ := hstart rfl
      have hsame : k / 8 = i / 8 := by
        have := hbyte hl
        omega
      simp [hsame, hout]
    | false =>
      have hzero := hfresh k (by omega) fun hl => by
        have := hlater rfl hl
        have := hbyte hl
        omega
      simp [hzero, hout]

end

/-! ### Copies that lay bits -/

/-- **The listed copies lay bits** of `v` wherever there is room for them. -/
def Listing.Lays (l : Dialect) (v : Value) (x : Listing) (bits : List Bool) : Prop :=
  ∀ i buffer, i + bits.length ≤ 8 * buffer.size → i + bits.length ≤ 2 ^ 53 → Fresh l buffer i →
    ∃ buffer', x.Takes (ByteCopy.packStep l v) i buffer (i + bits.length) buffer' ∧ Laid l buffer i bits buffer'

variable {ext : Bool}

section

variable {l : Dialect} {v : Value}

theorem Listing.lays_nil : Listing.nil.Lays l v [] := fun i buffer _ _ hfresh =>
  ⟨buffer, Listing.takes_nil i buffer, .nil hfresh⟩

theorem Listing.Lays.append {x y : Listing} {xs ys : List Bool} (hx : x.Lays l v xs) (hy : y.Lays l v ys) :
    (x.append y).Lays l v (xs ++ ys) := by
  intro i buffer hroom hlimit hfresh
  rw [length_append] at hroom hlimit
  obtain ⟨buffer₁, htakes₁, hlaid₁⟩ := hx i buffer (by omega) (by omega) hfresh
  have hsize := hlaid₁.size_eq
  obtain ⟨buffer₂, htakes₂, hlaid₂⟩ := hy (i + xs.length) buffer₁ (by omega) (by omega) hlaid₁.fresh
  refine ⟨buffer₂, ?_, hlaid₁.append hlaid₂⟩
  rw [length_append, ← Nat.add_assoc]
  exact htakes₁.append htakes₂

variable {route : Route}

/-- **One copy lays a chunk of a leaf.** -/
theorem packStep_chunk {t : Ty} {kind : Leaf} {width size : Nat} (ht : t.StoredAs kind width size)
    {x : Value} {d : Int} (hx : v.along route.steps = some x) (hd : x.asInt? = some d) {i j c : Nat}
    (buffer : Array UInt8) (hc : 0 < c) (hjc : j + c ≤ width) (hj : j % 8 + c ≤ 8) (hi : i % 8 + c ≤ 8)
    (hroom : i + c ≤ 8 * buffer.size) (hlimit : i + c ≤ 2 ^ 53) (hsmall : width ≤ 2 ^ 53) (hfresh : Fresh l buffer i) :
    ∃ copy buffer', ByteCopy.ofChunk true t route i j c = .ok copy ∧
      ByteCopy.packStep l v buffer copy = some buffer' ∧ Laid l buffer i (intBits d j c) buffer' := by
  have hwidth := ht.width_le
  obtain ⟨out, hwrite, hcopied⟩ := writeByte_moved (a := j) (b := i) (l == .c && (i % 8 == 0)) (stored d size)
    hc hj hi hroom
  have hcarries : Carries (stored d size) j (intBits d j c) := by
    intro k hk
    rw [length_intBits] at hk
    have hin : j + k < 8 * size := by omega
    rw [bitAt_stored, getElem?_intBits]
    simp [hin, hk]
  refine ⟨_, out, ByteCopy.pack_eq (by omega) (by omega) hi, ?_,
    hcopied.laid hfresh hc hi (length_intBits d j c) hcarries⟩
  have hstarts : (((i % 8 : Nat) : Int) == 0) = (i % 8 == 0) := by
    rw [Bool.eq_iff_iff, beq_iff_eq, beq_iff_eq]
    omega
  have hbyte : byte? (stored d size) ((j / 8 : Nat) : Int) = some ((stored d size)[j / 8]?.getD 0).toNat :=
    byte?_natCast (by rw [size_stored]; omega)
  unfold ByteCopy.packStep
  simp only [ht.storage_eq, hx, hd, Option.bind_eq_bind, Option.bind_some, hbyte, ByteCopy.starts, hstarts]
  rw [ByteCopy.moved_eq rfl rfl]
  exact hwrite

/-- **The copies of a leaf** lay its low bits. -/
theorem lays_leaf (hl : l.writesCopies = .ok ()) {t : Ty} {kind : Leaf} {width size : Nat}
    (ht : t.StoredAs kind width size) {x : Value} {d : Int} (hx : v.along route.steps = some x)
    (hd : x.asInt? = some d) : (Copier.leaf l true t route).Lays l v (intBits d 0 width) := by
  intro i buffer hroom hlimit hfresh
  obtain rfl := ht.nbits_eq
  rw [length_intBits] at hroom hlimit ⊢
  -- after `j` bits of the leaf they have been laid
  refine takes_leaf (fun j buffer' => Laid l buffer i (intBits d 0 j) buffer') hl ?_ (.nil hfresh)
  intro j c buffer₁ hc hjc hj hi hlaid
  have hsize := hlaid.size_eq
  have hfresh₁ := hlaid.fresh
  rw [length_intBits] at hfresh₁
  obtain ⟨copy, buffer₂, hcopy, hstep, hchunk⟩ := packStep_chunk ht hx hd buffer₁ hc hjc hj hi (by omega)
    (by omega) (by omega) hfresh₁
  refine ⟨copy, buffer₂, hcopy, hstep, ?_⟩
  rw [← intBits_append, Nat.zero_add]
  refine hlaid.append ?_
  rw [length_intBits]
  exact hchunk

/-- **The copies of the elements of an array** lay their bits in order. -/
theorem lays_elementsFrom {element : Copier} (bits : Nat → List Bool) {count k : Nat}
    (h : ∀ n, k ≤ n → n < k + count → (element (route.further (.element n))).Lays l v (bits n)) :
    (Copier.elementsFrom element route count k).Lays l v ((List.range' k count).flatMap bits) := by
  induction count generalizing k with
  | zero => exact Listing.lays_nil
  | succ count ih =>
    have hfirst := h k le_rfl (by omega)
    have hrest := ih (k := k + 1) fun n hn hlt => h n (by omega) (by omega)
    exact hfirst.append hrest

/-- **The copies of the fields of a message** lay their bits in order. -/
theorem lays_fields (hl : l.writesCopies = .ok ()) {fs : List Field} (copier : Field → Copier)
    (bits : Field → List Bool) (h : ∀ f ∈ fs, ∀ name,
      (copier f (route.further (.field f.number name))).Lays l v (bits f)) :
    (Copier.fields l (fs.map fun f => (Def.field f.header f.ty f.number, copier f)) route).Lays l v
      (fs.flatMap bits) := by
  induction fs with
  | nil => exact Listing.lays_nil
  | cons f fs ih =>
    have hrest := ih fun g hg => h g (mem_cons_of_mem _ hg)
    obtain ⟨name, hname⟩ := Copier.exists_field_eq hl (.field f.header f.ty f.number) (copier f) route
    rw [map_cons, Copier.fields, hname, flatMap_cons]
    exact (h f (mem_cons_self ..) name).append hrest

/-- **The copies of a type lay the bits** of its values, wherever in `v` they stand. -/
def Ty.LaidBy (l : Dialect) (v : Value) (t : Ty) (copier : Copier) : Prop :=
  t.Traditional → ∀ (route : Route) (x : Value), v.along route.steps = some x → t.Holds Leaf.Range x →
    (copier route).Lays l v (t.wireBits x)

theorem laidBy_array {o : Origin} {element : Ty} {cap : Nat} {copier : Copier}
    (ih : element.LaidBy l v copier) : (Ty.array o element cap ext).LaidBy l v (Copier.elements copier cap) := by
  rintro ⟨rfl, ht⟩ route x hx hrange
  rw [Ty.wireBits, if_neg Bool.false_ne_true, nil_append, range_eq_range']
  refine lays_elementsFrom _ fun k _ hk => ?_
  obtain ⟨y, hy, hyrange⟩ := hrange.2 k (by omega)
  rw [hy]
  refine ih ht _ y ?_ hyrange
  show v.along (route.steps ++ [.element k]) = some y
  rw [Value.along_append, hx]
  exact hy

theorem laidBy_message (hl : l.writesCopies = .ok ()) {h : Header} {ms : Members}
    (ih : ∀ f ∈ fieldsOf ms, f.ty.LaidBy l v (f.ty.copier l true .field)) :
    (Ty.named (.message h ext ms)).LaidBy l v (Copier.fields l ((orderedFields ms).map fun f =>
      (Def.field f.header f.ty f.number, f.ty.copier l true .field))) := by
  rintro ⟨rfl, ht⟩ route x hx hrange
  rw [Ty.wireBits, wireBits_message, if_neg Bool.false_ne_true, nil_append]
  refine lays_fields hl _ _ fun f hf name => ?_
  have hmem := mem_orderedFields.1 hf
  obtain ⟨y, hy, hyrange⟩ := (holds_message.1 hrange).2 f hmem
  rw [Field.wireBits, hy]
  refine ih f hmem (fieldsTraditional_iff.1 ht f hmem) _ y ?_ hyrange
  show v.along (route.steps ++ [.field f.number name]) = some y
  rw [Value.along_append, hx]
  exact hy

/-- **The copies of every well-formed type lay its bits.** -/
theorem Ty.WellFormed.laidBy (hl : l.writesCopies = .ok ()) {t : Ty} (hwf : t.WellFormed) {p : TypePlace}
    (hp : p.Suits t) : t.LaidBy l v (t.copier l true p) :=
  hwf.copier_induction (Ty.LaidBy l v)
    (fun t o kind width size ht hstored _ route x hx hrange => by
      obtain ⟨d, hd, -⟩ := (ht.holds_iff _ x).1 hrange
      rw [ht.wireBits_eq, Value.lowBits, hd]
      exact lays_leaf hl hstored hx hd)
    (fun o element cap ext copier ih => laidBy_array ih)
    (fun h target copier ih => ih)
    (fun h ext ms hwf ih => laidBy_message hl ih) hp

end

/-! ### Messages -/

theorem Def.WellFormed.copies_lay {l : Dialect} (hl : l.writesCopies = .ok ()) {h : Header} {ms : Members}
    {v : Value} (hwf : (Def.message h ext ms).WellFormed) (ht : (Def.message h ext ms).Traditional)
    (hv : (Def.message h ext ms).InRange v) :
    ∃ copies, l.messageCopies true (.message h ext ms) = .ok copies ∧ ∀ buffer : Array UInt8,
      buffer.size = ((Def.message h ext ms).nbits + 7) / 8 → Fresh l buffer 0 →
      ∃ buffer', copies.foldlM (ByteCopy.packStep l v) buffer = some buffer' ∧ buffer'.size = buffer.size ∧
        ∀ k, bitAt buffer' k = ((Def.message h ext ms).wireBits v)[k]?.getD false := by
  obtain ⟨route, hroute, hcopies⟩ := Dialect.exists_messageCopies_eq hl true (.message h ext ms)
  have hlays : ((Ty.named (.message h ext ms)).copier l true .field route).Lays l v
    ((Def.message h ext ms).wireBits v) :=
    Ty.WellFormed.laidBy (t := .named (.message h ext ms)) hl ⟨rfl, hwf⟩ (p := .field) trivial ht route v
      (by rw [hroute]; rfl) hv
  have hlength := Def.length_wireBits (.message h ext ms) v
  have hlimit := hwf.nbits_le
  have htakes (buffer : Array UInt8) (hsize : buffer.size = ((Def.message h ext ms).nbits + 7) / 8)
      (hfresh : Fresh l buffer 0) := hlays 0 buffer (by omega) (by omega) hfresh
  -- the copies do not depend on the buffer, so that any buffer tells what they are
  obtain ⟨_, ⟨copies, hlisted, -⟩, -⟩ := htakes (Array.replicate (((Def.message h ext ms).nbits + 7) / 8) 0)
    (Array.size_replicate ..) fun k _ _ => bitAt_replicate _ k
  refine ⟨copies, hcopies copies _ hlisted, fun buffer hsize hfresh => ?_⟩
  obtain ⟨buffer', htakes, hlaid⟩ := htakes buffer hsize hfresh
  refine ⟨buffer', htakes.foldlM_eq hlisted, hlaid.size_eq, fun k => ?_⟩
  rcases Nat.lt_or_ge k ((Def.message h ext ms).wireBits v).length with hk | hk
  · rw [← hlaid.carries k hk, Nat.zero_add]
  · rw [getElem?_eq_none hk, Option.getD_none]
    rcases Nat.lt_or_ge k (8 * buffer'.size) with hin | hout
    · have hsize' := hlaid.size_eq
      exact hlaid.fresh k (by omega) fun _ => by omega
    · rw [bitAt, Array.getElem?_eq_none (by omega)]
      exact Nat.zero_testBit _

/-- **Packing by copies gives the same bytes.**  For a message that was accepted in traditional mode and an object
within bounds, the copies of either language can be listed, each of them stays inside the buffer and inside the leaf,
and one after the other they give the bytes into which the object is packed.  In C the buffer may hold anything
before, and in Go it holds zeros. -/
theorem copies_pack {d : Def} {o : Object} (hd : d.AcceptedTraditional) (ho : o.message = d) (hv : d.InRange o.value) :
    ∃ bytes, d.nbytes = .ok bytes.size ∧
      Wire.pack d.processor (Array.replicate bytes.size 0) o.title o.slots = .ok bytes ∧
      (d.Encodes → o.value.Plain → o.encode = .ok bytes) ∧
      (∃ copies, Dialect.c.messageCopies true d = .ok copies ∧ ∀ buffer : Array UInt8, buffer.size = bytes.size →
        copies.foldlM (ByteCopy.packStep .c o.value) buffer = some bytes) ∧
      ∃ copies, Dialect.go.messageCopies true d = .ok copies ∧
        copies.foldlM (ByteCopy.packStep .go o.value) (Array.replicate bytes.size 0) = some bytes := by
  obtain ⟨hwf, h, ext, ms, rfl⟩ := hd.accepted.1.wellFormed
  have ht := hd.accepted.2
  obtain ⟨bytes, hnbytes, hsize, hpack, hencode, hbits⟩ := hwf.encode_eq ho hv.fits
  refine ⟨bytes, hnbytes, hpack, hencode, ?_, ?_⟩
  · obtain ⟨copies, hcopies, hrun⟩ := hwf.copies_lay (l := .c) rfl ht hv
    refine ⟨copies, hcopies, fun buffer hbuffer => ?_⟩
    obtain ⟨buffer', hrun', hsize', hbits'⟩ := hrun buffer (hbuffer.trans hsize) fun k _ hk => absurd (hk rfl) (by omega)
    rw [hrun', eq_of_bitAt (hsize'.trans hbuffer) fun k => (hbits' k).trans (hbits k).symm]
  · obtain ⟨copies, hcopies, hrun⟩ := hwf.copies_lay (l := .go) rfl ht hv
    refine ⟨copies, hcopies, ?_⟩
    obtain ⟨buffer', hrun', hsize', hbits'⟩ := hrun (Array.replicate bytes.size 0) (by rw [Array.size_replicate, hsize])
      fun k _ _ => bitAt_replicate _ k
    rw [Array.size_replicate] at hsize'
    rw [hrun', eq_of_bitAt hsize' fun k => (hbits' k).trans (hbits k).symm]

/-- A table with negative numbers, copied over a buffer that is full of ones. -/
theorem copies_pack_table : ∃ bytes,
    (Sample.tableObject (Sample.entryValue 5 (-32768) (-2)) (Sample.entryValue 7 32767 0) true #[255, 16]).encode
      = .ok bytes ∧ ∃ copies, Dialect.c.messageCopies true Sample.table = .ok copies ∧
      copies.foldlM (ByteCopy.packStep .c
        (Sample.tableObject (Sample.entryValue 5 (-32768) (-2)) (Sample.entryValue 7 32767 0) true #[255, 16]).value)
        (Array.replicate 11 255) = some bytes := by
  obtain ⟨bytes, hnbytes, -, hencode, ⟨copies, hcopies, hrun⟩, -⟩ := copies_pack
    (o := Sample.tableObject (Sample.entryValue 5 (-32768) (-2)) (Sample.entryValue 7 32767 0) true #[255, 16])
    Sample.table_accepted rfl (by decide +kernel)
  have hsize : Sample.table.nbytes = .ok 11 := by decide +kernel
  obtain hbytes := Except.ok.inj (hsize.symm.trans hnbytes)
  exact ⟨bytes, hencode ⟨by decide +kernel, by decide⟩ (by decide), copies, hcopies,
    hrun _ (by rw [Array.size_replicate]; exact hbytes)⟩

end BitSchema
