import BitSchema.Proofs.RoundTrip

/-!
# Extensible arrays

When an extensible array has been unpacked, the machine jumps to where it takes the announced elements to end.  It
counts one bit for each element of the known capacity, so the jump leads `cap * cap` bits ahead of where the array
began.  If this is beyond the elements, unpacking goes on at the wrong place.

* Reading never goes back (`Ty.WellFormed.advances`).
* It has therefore gone too far at the end of a type in which some array leads astray (`Ty.WellFormed.strays`).
* If no array does, objects survive the round trip, and the machine ends where the bits end
  (`unpack_returns_or_strays`).
-/

namespace BitSchema

open Wire Wire.Run Loading List

/-! ### Steps forward -/

/-- **Reading goes forward** by at least `n` bits, wherever it begins. -/
def Wire.Advances {α : Type} (s : BitScan α) (n : Nat) : Prop := ∀ i a j, s i = some (a, j) → i + n ≤ j

variable {ext : Bool}

namespace Wire

variable {α β : Type} {src : Source} {s : BitScan α} {n : Nat}

theorem Advances.map (h : Advances s n) (f : α → β) : Advances (scanMap f s) n := by
  intro i b j hread
  obtain ⟨a, ha, -⟩ := scanMap_eq_some hread
  exact h i a j ha

/-- **One after the other goes forward** by all bits. -/
theorem advances_scanAll {l : List β} {s : β → BitScan α} {width : β → Nat} (h : ∀ b ∈ l, Advances (s b) (width b)) :
    Advances (scanAll (l.map s)) (l.map width).sum := by
  intro i as j hread
  induction l generalizing i as with
  | nil =>
    obtain ⟨-, rfl⟩ := Prod.mk.inj (Option.some.inj hread)
    exact le_rfl
  | cons b l ih =>
    obtain ⟨a, k, rest, ha, hrest, -⟩ := scanAll_cons_eq_some hread
    have hb := h b (mem_cons_self ..) i a k ha
    have hl := ih (fun c hc => h c (mem_cons_of_mem _ hc)) k rest hrest
    rw [map_cons, sum_cons]
    omega

/-- **A frame goes forward** by its announcement and its body. -/
theorem advances_framed {target : Nat → Nat → Nat} {body : BitScan Value} (h : Advances body n) :
    Advances (src.framed ext target body) ((if ext then aheadBits else 0) + n) := by
  intro i v j hread
  rcases Source.framed_eq_some hread with ⟨rfl, hbody⟩ | ⟨rfl, -, k, hbody, rfl⟩
  · rw [if_neg Bool.false_ne_true, Nat.zero_add]
    exact h i v j hbody
  · have hk := h _ v k hbody
    rw [if_pos rfl]
    omega

end Wire

variable {title : Def → String} {src : Source}

/-- **Reading goes forward** by at least the bits of the type. -/
theorem Ty.WellFormed.advances (title : Def → String) (src : Source) {t : Ty} (hwf : t.WellFormed) :
    Advances (t.scan title src) t.nbits := by
  induction t, hwf using Ty.WellFormed.induction with
  | leaf t kind width hwf ht =>
    intro i v j hread
    rw [Ty.scan_leaf _ _ ht.leaf_eq, Source.leaf] at hread
    rw [ht.nbits_eq]
    split at hread
    · exact (Prod.mk.inj (Option.some.inj hread)).2.le
    · cases hread
  | typeAlias h target hwf ih => exact ih
  | array o element cap ext hwf ih =>
    have helements := advances_scanAll (l := List.replicate cap element) fun t ht => eq_of_mem_replicate ht ▸ ih
    rw [map_replicate, map_replicate, sum_replicate_nat] at helements
    exact advances_framed (helements.map _)
  | message h ext ms hwf ih =>
    have hfields := advances_scanAll fun f hf => (ih f (mem_orderedFields.1 hf)).map (Prod.mk f.slot)
    rw [← fieldBits_eq_ordered] at hfields
    rw [Ty.scan, scan_message]
    exact advances_framed (hfields.map _)

/-! ### Steps too far -/

/-- **Reading goes beyond bits** that are given. -/
def Wire.Strays {α : Type} (src : Source) (s : BitScan α) (bits : List Bool) : Prop :=
  ∀ i a j, src.Gives i bits → s i = some (a, j) → i + bits.length < j

theorem Wire.Strays.map {α β : Type} {s : BitScan α} {bits : List Bool} (h : Strays src s bits) (f : α → β) :
    Strays src (scanMap f s) bits := by
  intro i b j hgives hread
  obtain ⟨a, ha, -⟩ := scanMap_eq_some hread
  exact h i a j hgives ha

/-- **One after the other goes too far** if one does: those before it end where they should, and those after it do not
go back. -/
theorem Wire.strays_scanAll {α β : Type} {l : List β} {s : β → BitScan α} {bits : β → List Bool}
    (hadvances : ∀ b ∈ l, Advances (s b) (bits b).length)
    (hcases : ∀ b ∈ l, (∀ i, src.Gives i (bits b) → ∃ a, s b i = some (a, i + (bits b).length)) ∨
      Strays src (s b) (bits b))
    (hfar : ∃ b ∈ l, Strays src (s b) (bits b)) : Strays src (scanAll (l.map s)) (l.flatMap bits) := by
  intro i as j hgives hread
  induction l generalizing i as with
  | nil => simp at hfar
  | cons b l ih =>
    obtain ⟨a, k, rest, ha, hrest, -⟩ := scanAll_cons_eq_some hread
    rw [flatMap_cons, Source.gives_append] at hgives
    rw [flatMap_cons, length_append]
    by_cases hb : Strays src (s b) (bits b)
    · have hk := hb i a k hgives.1 ha
      have hj := advances_scanAll (fun c hc => hadvances c (mem_cons_of_mem _ hc)) k rest j hrest
      rw [← length_flatMap] at hj
      omega
    · -- this one ends where it should, so one of the others goes too far
      obtain ⟨a', ha'⟩ := (hcases b (mem_cons_self ..)).resolve_right hb i hgives.1
      obtain ⟨-, rfl⟩ := Prod.mk.inj (Option.some.inj (ha.symm.trans ha'))
      obtain ⟨c, hc, hcfar⟩ := hfar
      have hother : c ∈ l := (mem_cons.1 hc).resolve_left fun heq => hb (heq ▸ hcfar)
      have hj := ih (fun c hc => hadvances c (mem_cons_of_mem _ hc)) (fun c hc => hcases c (mem_cons_of_mem _ hc))
        ⟨c, hother, hcfar⟩ _ rest hgives.2 hrest
      omega

/-- **A frame goes too far** if its body does. -/
theorem Wire.strays_framed {size : Nat} {target : Nat → Nat → Nat} {body : BitScan Value} {bits : List Bool}
    (h : Strays src body bits) : Strays src (src.framed ext target body) (headBits ext size ++ bits) := by
  intro i v j hgives hread
  rw [Source.gives_append, length_headBits] at hgives
  rw [length_append, length_headBits]
  rcases Source.framed_eq_some hread with ⟨rfl, hbody⟩ | ⟨rfl, -, k, hbody, rfl⟩
  · have hj := h i v j hgives.2 hbody
    rw [if_neg Bool.false_ne_true]
    omega
  · rw [if_pos rfl] at hgives ⊢
    have hk := h _ v k hgives.2 hbody
    omega

/-- **A type that goes too far** over its values. -/
def Ty.Strays (title : Def → String) (t : Ty) : Prop :=
  ∀ (src : Source) (w : Value), t.Holds Leaf.Range w → Wire.Strays src (t.scan title src) (t.wireBits w)

/-- **An array leads astray** if its jump leads beyond its elements, or its elements lead astray. -/
theorem strays_array {o : Origin} {element : Ty} {cap : Nat} (hwf : (Ty.array o element cap ext).WellFormed)
    (ih : ¬element.AllArrays Returns → element.Strays title) (h : ¬(Ty.array o element cap ext).AllArrays Returns) :
    (Ty.array o element cap ext).Strays title := by
  intro src w hw
  obtain ⟨hpos, hcap, -, helement⟩ := hwf
  by_cases hreturns : Returns element cap ext
  · have hstrays (k : Nat) (hk : k ∈ List.range cap) :
        Wire.Strays src (element.scan title src) (element.wireBits ((w.item? k).getD (.int 0))) := by
      obtain ⟨y, hy, hyholds⟩ := hw.2 k (mem_range.1 hk)
      rw [hy]
      exact ih (fun hall => h ⟨hreturns, hall⟩) src y hyholds
    have hall := strays_scanAll (s := fun _ => element.scan title src)
      (fun k _ => by rw [Ty.length_wireBits]; exact helement.advances title src) (fun k hk => .inr (hstrays k hk))
      ⟨0, mem_range.2 hpos, hstrays 0 (mem_range.2 hpos)⟩
    rw [map_const', length_range] at hall
    exact strays_framed (hall.map _)
  · -- the jump of the array itself
    obtain ⟨rfl, hfar⟩ : ext = true ∧ aheadBits + cap * element.nbits < cap * cap := by
      simpa [Returns] using hreturns
    intro i v j hgives hread
    have hhead : src.number i aheadBits = cap := Source.Gives.number_eq (n := 16) (Source.gives_append.1 hgives).1 hcap
    rw [Ty.length_wireBits, Ty.nbits, if_pos rfl]
    rcases Source.framed_eq_some hread with ⟨hext, -⟩ | ⟨-, -, k, -, rfl⟩
    · cases hext
    · rw [hhead]
      omega

/-- **A message leads astray** if one of its fields does. -/
theorem strays_message {h : Header} {ms : Members} (hwf : (Def.message h ext ms).WellFormed)
    (htypes : ∀ f ∈ fieldsOf ms, ¬f.ty.AllArrays Returns → f.ty.Strays title)
    (hfar : ¬(Def.message h ext ms).AllArrays Returns) : (Ty.named (.message h ext ms)).Strays title := by
  intro src w hw
  have hpart (f : Field) (hf : f ∈ orderedFields ms) : ∃ y, f.wireBits w = f.ty.wireBits y ∧
    f.ty.Holds Leaf.Range y := by
    obtain ⟨y, hy, hyholds⟩ := (holds_message.1 hw).2 f (mem_orderedFields.1 hf)
    exact ⟨y, by rw [Field.wireBits, hy, Option.getD_some], hyholds⟩
  have hstrays (f : Field) (hf : f ∈ orderedFields ms) (hffar : ¬f.ty.AllArrays Returns) :
      Wire.Strays src (f.scan title src) (f.wireBits w) := by
    obtain ⟨y, hy, hyholds⟩ := hpart f hf
    rw [hy]
    exact (htypes f (mem_orderedFields.1 hf) hffar src y hyholds).map _
  obtain ⟨f, hf, hffar⟩ : ∃ f ∈ fieldsOf ms, ¬f.ty.AllArrays Returns := by
    by_contra hnone
    exact hfar (fieldsAllArrays_iff.2 fun f hf => by_contra fun hffar => hnone ⟨f, hf, hffar⟩)
  rw [Ty.scan, scan_message, Ty.wireBits, wireBits_message]
  refine strays_framed ((strays_scanAll (fun f hf => ?_) (fun f hf => ?_) ⟨f, mem_orderedFields.2 hf, ?_⟩).map _)
  · rw [Field.wireBits, Ty.length_wireBits]
    exact ((hwf.field (mem_orderedFields.1 hf)).2.2.advances title src).map _
  · by_cases hreturns : f.ty.AllArrays Returns
    · -- a field in which no array leads astray reads its own values
      obtain ⟨y, hy, hyholds⟩ := hpart f hf
      have hfwf := (hwf.field (mem_orderedFields.1 hf)).2.2
      refine .inl fun i hgives => ?_
      rw [hy] at hgives ⊢
      obtain ⟨v, hv, -⟩ := hfwf.readsGrown title f.ty hfwf hfwf.grows_self hreturns src i y hyholds hgives
      refine ⟨(f.slot, v), ?_⟩
      rw [Field.scan, scanMap, hv, Ty.length_wireBits]
      rfl
    · exact .inr (hstrays f hf hreturns)
  · exact hstrays f (mem_orderedFields.2 hf) hffar

/-- **A type with an array that leads astray does so as a whole.** -/
theorem Ty.WellFormed.strays (title : Def → String) {t : Ty} (hwf : t.WellFormed) (h : ¬t.AllArrays Returns) :
    t.Strays title := by
  induction t, hwf using Ty.WellFormed.induction with
  | leaf t kind width hwf ht => exact absurd (Ty.allArrays_of_leaf? ht.leaf_eq) h
  | typeAlias hd target hwf ih => exact ih h
  | array o element cap ext hwf ih => exact strays_array hwf ih h
  | message hd ext ms hwf ih => exact strays_message hwf.2 ih h

/-! ### Objects -/

/-- **Round trips and extensible arrays.**  An object of an accepted message, with leaves within the bounds of their
types, is packed into bytes.  If no array leads astray, these give a new object the same leaves, and unpacking ends
where the bits of the message end.  If some array does, unpacking fails or ends beyond them, whatever the leaves
are. -/
theorem unpack_returns_or_strays {title : Def → String} {d : Def} {o new : Object} (hd : d.Accepted) (ho : o.message = d)
    (hv : d.InRange o.value) (hmessage : new.message = d) (hnew : new.IsNew title) :
    ∃ bytes, d.nbytes = .ok bytes.size ∧
      Wire.pack d.processor (Array.replicate bytes.size 0) o.title o.slots = .ok bytes ∧
      (d.Encodes → o.value.Plain → o.encode = .ok bytes) ∧
      (d.AllArrays Returns → ∃ slots,
        d.processor.run (.unpacking bytes new.title new.slots) =
          (.ok (), { Machine.unpacking bytes new.title new.slots with
          cursor := d.nbits, accessor := .record new.title slots }) ∧
        d.Agree (.record new.title slots) o.value ∧
        (d.Decodes → new.decode bytes = ({ new with slots }, .ok ()))) ∧
      (¬d.AllArrays Returns → ∀ m, d.processor.run (.unpacking bytes new.title new.slots) = (.ok (), m) →
        (d.nbits : Int) < m.cursor) := by
  obtain ⟨hwf, h, ext, ms, rfl⟩ := hd.wellFormed
  obtain ⟨bytes, hnbytes, hsize, hpack, hencode, hbits⟩ := hwf.encode_eq ho hv.fits
  refine ⟨bytes, hnbytes, hpack, hencode, fun hreturns => ?_, fun hfar m hrun => ?_⟩
  · obtain ⟨slots, cursor, hrun, hcursor, -, hagree, hdecode⟩ :=
      hwf.decode_eq hwf hwf.growsTop_self.1 hreturns hv hsize hbits hmessage hnew
    rw [hcursor hwf.growsTop_self.2] at hrun
    exact ⟨slots, hrun, hagree, hdecode⟩
  · rw [Object.IsNew, hmessage] at hnew
    have hle := hwf.nbits_le
    obtain ⟨v, j, hscan⟩ := hwf.scan_of_run (by omega) hnew.symm hrun
    have hfar := Ty.WellFormed.strays title (t := .named (.message h ext ms)) ⟨rfl, hwf⟩ hfar _ _ hv 0 v j
      (hwf.gives_packed hsize hbits) hscan
    obtain ⟨slots, -, hrun'⟩ := hwf.run_eq hnew.symm hscan
    obtain ⟨-, rfl⟩ := Prod.mk.inj (hrun.symm.trans hrun')
    rw [Ty.length_wireBits, Nat.zero_add] at hfar
    exact Int.ofNat_lt.2 hfar

namespace Sample

/-- The jump at the end of the array leads 25 bits ahead, but the array has only 21. -/
theorem arrayFirst_not_returns : ¬arrayFirst.AllArrays Returns := by
  rintro ⟨⟨h, -⟩, -⟩
  exact absurd (h rfl) (by decide)

def newArrayFirst : Object := arrayFirstObject (Array.replicate 5 (.bool false)) 0

theorem newArrayFirst_isNew : newArrayFirst.IsNew Def.name := by
  show _ = arrayFirst.initialBy Def.name
  rw [arrayFirst, message, initialBy_message, orderedFields_eq]
  rfl

end Sample

theorem unpack_arrayFirst : ∃ bytes, (Sample.arrayFirstObject (Array.replicate 5 (.bool true)) 5).encode = .ok bytes ∧
    ∀ m, Sample.arrayFirst.processor.run (.unpacking bytes "F" Sample.newArrayFirst.slots) = (.ok (), m) →
      28 < m.cursor := by
  obtain ⟨bytes, -, -, hencode, -, hstrays⟩ := unpack_returns_or_strays
    (o := Sample.arrayFirstObject (Array.replicate 5 (.bool true)) 5) Sample.arrayFirst_accepted rfl (by decide +kernel)
    rfl Sample.newArrayFirst_isNew
  exact ⟨bytes, hencode ⟨by decide +kernel, by decide⟩ (by decide), hstrays Sample.arrayFirst_not_returns⟩

-- The field after the array is lost: it was packed as `5`.
example : (Wire.unpack (.message false 28 [.field 1 (.array true 5 .bool), .field 2 (.uint 7)]) #[5, 0, 191, 0] "F"
    Sample.newArrayFirst.slots).2.map (·.2.asInt?) = [none, some 0] := by
  decide +kernel

end BitSchema
