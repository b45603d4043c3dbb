import BitSchema.Proofs.Parts
import BitSchema.Proofs.Scanning
import BitSchema.Proofs.WireFormat

/-!
# Round trips

What an object is packed into can be unpacked into a new object, which then has the same leaves
(`decode_encode`).  The new object may also be one of a message from before fields were appended: it gets all the
leaves that it has (`decode_encode_of_grows`).  Both are about messages without extensible arrays; see
`BitSchema.Proofs.ExtensibleArrays` for these.

Packing and unpacking are those of the layout of the message.  They are what `encode` and `decode` do if no field
hides a function that is called (`Def.Calls`) and none has the name of the size; if a function is hidden, they fail.
-/

namespace BitSchema

open Wire Loading

/-! ### Types that have grown -/

/-- **An array from which unpacking returns** where its elements end.  The jump at its end leads as many bits ahead as
the square of its capacity. -/
def Returns (element : Ty) (cap : Nat) (ext : Bool) : Prop :=
  ext = true → cap * cap ≤ aheadBits + cap * element.nbits

section

variable {title : Def → String}

/-- **A message reads one that it has grown to**, to its end unless the latter has fields that nothing passes over. -/
theorem exists_readsAs_of_appends {h h' : Header} {ext : Bool} {ms ms' : Members}
    (hwf : (Def.message h ext ms).WellFormed)
    (hwf' : (Def.message h' ext ms').WellFormed) (hgrows : fieldsGrow ms ms') (happends : Appends ms ms')
    (htypes : ∀ f ∈ fieldsOf ms, ∀ g ∈ fieldsOf ms', f.ty.Grows g.ty → f.ty.ReadsAs title g.ty g.ty.nbits) :
    ∃ n, (Ty.named (.message h ext ms)).ReadsAs title (.named (.message h' ext ms')) n ∧
      ((ext = false → ∀ g ∈ fieldsOf ms', ∃ f ∈ fieldsOf ms, f.number = g.number) →
        n = (Def.message h' ext ms').nbits) := by
  obtain ⟨pre, post, hsplit, hpairs, hpost⟩ :=
    aligned_of_appends hwf.numbered hwf'.numbered (fieldsGrow_iff.1 hgrows) happends
  have hpair {p : Field × Field} (hp : p ∈ (orderedFields ms).zip pre) := (List.forall₂_iff_zip.1 hpairs).2 hp
  have hsnd : ((orderedFields ms).zip pre).map (·.2) = pre := List.map_snd_zip hpairs.length_eq.ge
  have hreads : (Ty.named (.message h ext ms)).ReadsAs title (.named (.message h' ext ms')) _ := readsAs_message
    (fun p => p.2.ty.nbits) hwf' hwf.numbered (List.map_fst_zip hpairs.length_eq.le)
      (hsplit.trans (congrArg (· ++ post) hsnd.symm))
    (fun p hp => (hpair hp).2.1) (fun p hp => htypes _ (hpair hp).1.1 _ (hpair hp).1.2 (hpair hp).2.2) fun _ _ => rfl
  refine ⟨_, hreads, fun hsame => ?_⟩
  have hsum : (((orderedFields ms).zip pre).map fun p => p.2.ty.nbits).sum = (pre.map fun g => g.ty.nbits).sum := by
    rw [← hsnd, List.map_map, hsnd]
    rfl
  have hnbits := Run.nbits_message h' ext ms'
  rw [hsplit, List.map_append, List.sum_append, Run.length_headBits] at hnbits
  rw [hsum]
  cases ext with
  | true =>
    rw [if_pos rfl] at hnbits
    rw [if_pos rfl]
    omega
  | false =>
    -- no field was appended
    have hnone : post = [] := by
      refine List.eq_nil_iff_forall_not_mem.2 fun g hg => hpost g hg (hsame rfl g ?_)
      rw [← mem_orderedFields, hsplit]
      exact List.mem_append_right _ hg
    rw [hnone] at hnbits
    rw [if_neg Bool.false_ne_true, hnbits]
    simp

/-- **Every type reads values of one that it has grown to**, if no array leads astray. -/
theorem Ty.WellFormed.readsGrown (title : Def → String) {t : Ty} (hwf : t.WellFormed) :
    ∀ u : Ty, u.WellFormed → t.Grows u → u.AllArrays Returns → t.ReadsAs title u u.nbits := by
  induction t, hwf using Ty.WellFormed.induction with
  | leaf t kind width hwf ht =>
    intro u hu hgrows _
    exact ht.readsAs (hu.leafOf (hgrows.leaf?_eq ht.leaf_eq))
  | typeAlias h target hwf ih =>
    rintro u hu ⟨d', rfl, h', target', rfl, hgrows⟩ harrays
    exact ih target' hu.2.2 hgrows harrays
  | array o element cap ext hwf ih =>
    rintro u hu ⟨o', element', rfl, hgrows⟩ ⟨hreturns, harrays⟩
    have hreads : (Ty.array o element cap ext).ReadsAs title (.array o' element' cap ext) _ :=
      readsAs_array hu.2.1 le_rfl (ih element' hu.2.2.2 hgrows harrays) fun _ => rfl
    cases ext with
    | false => rwa [Ty.nbits, if_neg Bool.false_ne_true, Nat.zero_add]
    | true => rwa [if_pos rfl, max_eq_left (hreturns rfl)] at hreads
  | message h ext ms hwf ih =>
    rintro u hu ⟨d', rfl, h', ms', rfl, hgrows, happends, hsame⟩ harrays
    obtain ⟨n, hreads, hend⟩ := exists_readsAs_of_appends (h := h) hwf.2 hu.2 hgrows happends
      fun f hf g hg hfg => ih f hf g.ty (hu.2.field hg).2.2 hfg (fieldsAllArrays_iff.1 harrays g hg)
    rwa [hend hsame] at hreads

end

/-! ### Objects -/

/-- **A new object is unpacked from the bits of one that may have grown.** -/
theorem Def.WellFormed.decode_eq {title : Def → String} {d d' : Def} {bytes : Array UInt8} {w : Value} {new : Object}
    (hwf : d.WellFormed) (hwf' : d'.WellFormed) (hgrows : d.GrowsTop d') (harrays : d'.AllArrays Returns)
    (hw : d'.InRange w) (hsize : bytes.size = (d'.nbits + 7) / 8)
    (hbits : ∀ k, bitAt bytes k = (d'.wireBits w)[k]?.getD false) (hmessage : new.message = d) (hnew : new.IsNew title) :
    ∃ slots cursor,
      d.processor.run (.unpacking bytes new.title new.slots)
        = (.ok (), { Machine.unpacking bytes new.title new.slots with cursor, accessor := .record new.title slots }) ∧
      (d.Grows d' → cursor = d'.nbits) ∧ Wire.unpack d.processor bytes new.title new.slots = (.ok (), slots) ∧
      d.Agree (.record new.title slots) w ∧
      (d.Decodes → new.decode bytes = ({ new with slots }, .ok ())) := by
  have hle := hgrows.nbits_le hwf hwf'
  obtain ⟨h, h', ext, ms, ms', rfl, rfl, hfields, happends⟩ := hgrows
  have hinitial := hnew
  rw [Object.IsNew, hmessage] at hinitial
  obtain ⟨n, hreads, hend⟩ := exists_readsAs_of_appends (h := h) hwf hwf' hfields happends
    fun f hf g hg hfg => (hwf.field hf).2.2.readsGrown title g.ty (hwf'.field hg).2.2 hfg
      (fieldsAllArrays_iff.1 harrays g hg)
  obtain ⟨v, hscan, hagree⟩ := hreads _ 0 w hw (hwf'.gives_packed hsize hbits)
  obtain ⟨slots, rfl, hrun⟩ := hwf.run_eq hinitial.symm hscan
  obtain ⟨slots', heq, hunpack⟩ := hwf.unpack_eq hinitial.symm hscan
  obtain ⟨-, rfl⟩ := Value.record.inj heq
  refine ⟨slots, _, hrun, fun hgrows => ?_, hunpack, hagree, fun hdecodes => ?_⟩
  · obtain ⟨_, _, heq', -, -, hsame⟩ := hgrows
    cases heq'
    rw [Nat.zero_add, hend hsame]
  · rw [hnew.decode_eq hdecodes hmessage hwf (by omega), hunpack]

end BitSchema
