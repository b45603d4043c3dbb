import BitSchema.Proofs.ScopesAround
import BitSchema.Proofs.WrittenC
import BitSchema.Proofs.WrittenGo
import BitSchema.Proofs.WrittenPython
import BitSchema.Target

/-!
# The order of fields

In which order the fields of a message are declared does not matter.  Two schemas are *reordered* if they become the
same when the fields of every message are put behind its other members, by increasing number, and when serial numbers,
lines and indents are left aside (`Def.Reordered`).  Putting them so is a silent relabeling.  So the same files are
written for accepted schemas that are reordered, character for character, and their messages have the same sizes and
the same layout on the wire (`render_eq_of_reordered`).
-/

namespace BitSchema

open List

variable {ρ : Relabeling}

/-! ### Files that are written -/

section

variable (hρ : ρ.Silent) {p : OutputPlan} (hp : p.env.Apart) (hfile : p.file.WellFormed)

theorem OutputPlan.outputPath_silent [Fact ρ.Silent] (cwd outdir : String) (a : Artifact) :
    (p.relabel ρ).outputPath cwd outdir a = p.outputPath cwd outdir a := by
  have horigin : (p.file.relabel ρ).header.origin.file = p.file.header.origin.file := by
    rw [Def.header_relabel]
    exact (Fact.out : ρ.Silent).file _
  simp only [outputPath, file_relabel, Def.outputName_silent, Def.outputDirectory, horigin]

include hρ hp hfile

/-- **The same text is written**, whatever the language. -/
theorem Artifact.text_silent (a : Artifact) : a.text (p.relabel ρ) = a.text p := by
  have hblock : a.block (p.relabel ρ) = a.block p := by
    have := Fact.mk hρ
    have := Fact.mk hp
    cases a with
    | cSource => exact CSource.block_silent
    | cHeader => exact CHeader.block_silent
    | goPackage => exact GoPackage.block_silent
    | pythonModule => exact PythonModule.block_silent hfile
  rw [text, text, hblock]

theorem OutputPlan.render_silent (fs : Files) (outdir language : String) :
    (p.relabel ρ).render fs outdir language = p.render fs outdir language := by
  have houtputs (as : List Artifact) : (p.relabel ρ).outputs fs outdir as = p.outputs fs outdir as := by
    induction as with
    | nil => rfl
    | cons a as ih =>
      have := Fact.mk hρ
      rw [outputs, outputs, ih, outputPath_silent, a.text_silent hρ hp hfile]
      rfl
  unfold render
  cases artifacts? language with
  | none => rfl
  | some as => exact houtputs as

end

/-! ### Layouts -/

mutual

theorem Ty.access_relabel : ∀ t : Ty, (t.relabel ρ).access = t.access
  | .array _ element _ _ => congrArg (Option.map Wire.Access.deeper) (Ty.access_relabel element)
  | .named d => Def.access_relabel d
  | .unknown _ _ | .bool _ | .byte _ | .uint _ _ | .int _ _ => rfl

theorem Def.access_relabel : ∀ d : Def, (d.relabel ρ).access = d.access
  | .typeAlias _ target => Ty.access_relabel target
  | .option _ _ _ | .constant _ _ _ | .enum _ _ _ _ | .enumField _ _ | .message _ _ _ | .field _ _ _ | .proto _ _ => rfl

end

theorem Field.slot_relabel (f : Field) : (f.relabel ρ).slot = f.slot :=
  congrArg (Wire.Slot.mk f.number f.header.name) (Ty.access_relabel f.ty)

section

variable [Fact ρ.Silent]

/-- **The layout of a type** does not depend on labels. -/
theorem Ty.processor_silent (t : Ty) : (t.relabel ρ).processor = t.processor := by
  induction t using Ty.layoutInduction with
  | array o element cap ext ih => simp only [Ty.relabel, Ty.processor, ih]
  | typeAlias h target ih => simp only [Ty.relabel, Def.relabel, Ty.processor, Def.processor, ih]
  | message h ext ms ih =>
    have hordered : orderedFields (ρ.arrange (membersRelabel ρ ms)) = (orderedFields ms).map (Field.relabel ρ) :=
      Def.orderedFields_relabel (.message h ext ms)
    have hbits := Def.nbits_relabel (ρ := ρ) (.message h ext ms)
    rw [Ty.relabel, Ty.processor, Ty.processor, Def.relabel, processor_message, processor_message, hordered, map_map]
    rw [Def.relabel] at hbits
    rw [hbits]
    congr 1
    exact map_congr_left fun f hf => congrArg (Wire.Processor.field f.number) (ih f (mem_orderedFields.1 hf))
  | other d hd => cases d <;> first | rfl | cases hd
  | _ => rfl

theorem Ty.initial_silent (t : Ty) : (t.relabel ρ).initial = t.initial := by
  unfold Ty.initial
  induction t using Ty.layoutInduction with
  | array o element cap ext ih =>
    cases element with
    | byte o => rfl
    | _ => exact congrArg (fun v => Wire.Value.list (Array.replicate cap v)) ih
  | typeAlias h target ih => exact ih
  | message h ext ms ih =>
    have hordered : orderedFields (ρ.arrange (membersRelabel ρ ms)) = (orderedFields ms).map (Field.relabel ρ) :=
      Def.orderedFields_relabel (.message h ext ms)
    rw [Ty.relabel, Ty.initialBy, Ty.initialBy, Def.relabel, initialBy_message, initialBy_message, hordered, map_map]
    refine congrArg (Wire.Value.record h.name) (map_congr_left fun f hf => ?_)
    exact Prod.ext (Field.slot_relabel f) (ih f (mem_orderedFields.1 hf))
  | other d hd => cases d <;> first | rfl | cases hd
  | _ => rfl

end

/-! ### Members by name -/

theorem Def.WellFormed.names {d : Def} (hd : d.WellFormed) : (d.members.map (·.1)).Nodup := by
  cases d with
  | enum h o cap ms => exact hd.2.2.1.names
  | message h ext ms => exact hd.2.1.names
  | proto h ms => exact hd.1.names
  | _ => exact nodup_nil

theorem Def.WellFormed.member?_relabel {d : Def} (hd : d.WellFormed) (names : List String) :
    (d.relabel ρ).member? names = (d.member? names).map (Def.relabel ρ) := by
  induction names generalizing d with
  | nil => rfl
  | cons n ns ih =>
    have hnames : ((d.relabel ρ).members.map (·.1)).Nodup := by
      rw [(d.members_relabel_perm.map _).nodup_iff, map_map]
      exact hd.names
    have hget : Members.get? (d.relabel ρ).members n = (Members.get? d.members n).map (Def.relabel ρ) := by
      rw [← get?_relabel, Members.get?, Members.get?, find?_perm d.members_relabel_perm hnames]
    rw [member?, member?, hget]
    cases hm : Members.get? d.members n with
    | none => rfl
    | some m =>
      have hwf : m.WellFormed := by
        obtain ⟨m', hm', rfl⟩ := Option.map_eq_some_iff.1 hm
        exact hd.members m' (mem_of_find?_eq_some hm')
      simp only [Option.map_some]
      split
      · rfl
      · exact ih hwf

/-! ### Fields behind the other members -/

def byIncreasingNumber (m m' : String × Def) : Prop := m.2.number ≤ m'.2.number

instance : DecidableRel byIncreasingNumber := fun m m' => inferInstanceAs (Decidable (m.2.number ≤ m'.2.number))

/-- The fields among members, by increasing number. -/
def sortedMembers (ms : Members) : Members :=
  (ms.filter fun m => m.2.isA .messageField).insertionSort byIncreasingNumber

/-- **The fields are put behind the other members**, by increasing number. -/
def fieldsLast (ms : Members) : Members := others ms ++ sortedMembers ms

theorem fieldsLast_perm (ms : Members) : (fieldsLast ms).Perm ms := by
  have hsorted : (sortedMembers ms).Perm (ms.filter fun m => m.2.isA .messageField) := perm_insertionSort _ _
  refine (hsorted.append_left _).trans (perm_append_comm.trans ?_)
  exact filter_append_perm (fun m : String × Def => m.2.isA .messageField) ms

theorem isA_of_mem_sortedMembers {ms : Members} {m : String × Def} (h : m ∈ sortedMembers ms) :
    m.2.isA .messageField = true :=
  (mem_filter.1 ((mem_insertionSort _).1 h)).2

theorem others_fieldsLast (ms : Members) : others (fieldsLast ms) = others ms := by
  have hnone : others (sortedMembers ms) = [] := by
    refine filter_eq_nil_iff.2 fun m hm => ?_
    rw [isA_of_mem_sortedMembers hm]
    exact Bool.false_ne_true
  rw [fieldsLast, others_append, others_others, hnone, append_nil]

theorem fieldsOf_eq_map (ms : Members) :
    fieldsOf ms = (ms.filter fun m => m.2.isA .messageField).map fun m =>
      ⟨m.2.header, m.2.ty?.getD default, m.2.number⟩ := by
  induction ms with
  | nil => rfl
  | cons m ms ih =>
    obtain ⟨n, d⟩ := m
    rw [fieldsOf_cons, ih]
    cases hd : d.isA .messageField with
    | true =>
      obtain ⟨h, t, number, rfl⟩ := Def.eq_field_of_isA hd
      rfl
    | false =>
      rw [filter_cons_of_neg (by simp [hd])]
      rw [Def.isA_messageField, Option.isSome_eq_false_iff, Option.isNone_iff_eq_none] at hd
      rw [hd]
      rfl

theorem orderedFields_fieldsLast (ms : Members) : orderedFields (fieldsLast ms) = orderedFields ms := by
  have hfields : fieldsOf (fieldsLast ms) = orderedFields ms := by
    have hothers : (others ms).filter (fun m => m.2.isA .messageField) = [] := by
      refine filter_eq_nil_iff.2 fun m hm => ?_
      simpa using (mem_filter.1 hm).2
    have hsorted : (sortedMembers ms).filter (fun m => m.2.isA .messageField) = sortedMembers ms :=
      filter_eq_self.2 fun m hm => isA_of_mem_sortedMembers hm
    rw [orderedFields_eq, fieldsOf_eq_map, fieldsLast, filter_append, hothers, hsorted, nil_append,
      fieldsOf_eq_map ms]
    exact map_insertionSort byIncreasingNumber _ _ _ fun _ _ _ _ => Iff.rfl
  rw [orderedFields, hfields]
  exact mergeSort_of_pairwise (pairwise_mergeSort Field.before_trans Field.before_total _)

/-! ### Reordered schemas -/

/-- Serial numbers are changed, lines and indents are left out, and the fields of messages are put in order. -/
def Relabeling.positionless (ι : Nat → Nat) (hι : Function.Injective ι) : Relabeling where
  origin o := ⟨"", 0, o.file⟩
  id := ι
  scopes refs := refs.map fun r => ⟨ι r.id, r.kind⟩
  comments cs := cs.map fun c => ⟨c.source, 0, c.file⟩
  indent _ := 0
  arrange := fieldsLast
  id_injective := hι
  perm := fieldsLast_perm

theorem Relabeling.silent_positionless {ι : Nat → Nat} (hι : Function.Injective ι) : (positionless ι hι).Silent where
  scopes _ := rfl
  comments cs := by rw [positionless, map_map]; rfl
  file _ := rfl
  others_arrange := others_fieldsLast
  ordered := orderedFields_fieldsLast

namespace Def

/-- **Schemas that differ only in the order in which the fields of messages are declared**: apart from serial numbers,
lines and indents they are the same once the fields of every message are put in order. -/
def Reordered (d d' : Def) : Prop :=
  ∃ ι ι' hι hι', d.relabel (.positionless ι hι) = d'.relabel (.positionless ι' hι')

def plan (file : Def) (optimized : Bool) (only : List String) : OutputPlan := ⟨⟨[file]⟩, file, optimized, only⟩

theorem plan_relabel (file : Def) (optimized : Bool) (only : List String) :
    (file.relabel ρ).plan optimized only = (file.plan optimized only).relabel ρ := rfl

end Def

/-! ### Main statement -/

namespace Def

/-- **The same size and layout on the wire.** -/
structure SameWire (d d' : Def) : Prop where
  nbits : d.nbits = d'.nbits
  nbytes : d.nbytes = d'.nbytes
  layout : d.processor = d'.processor
  initial : d.initial = d'.initial

theorem sameWire_relabel (hρ : ρ.Silent) (d : Def) : (d.relabel ρ).SameWire d :=
  have := Fact.mk hρ
  ⟨nbits_relabel d, nbytes_relabel d, Ty.processor_silent (.named d), Ty.initial_silent (.named d)⟩

theorem SameWire.symm {d d' : Def} (h : d.SameWire d') : d'.SameWire d :=
  ⟨h.nbits.symm, h.nbytes.symm, h.layout.symm, h.initial.symm⟩

theorem SameWire.trans {d d' d'' : Def} (h : d.SameWire d') (h' : d'.SameWire d'') : d.SameWire d'' :=
  ⟨h.nbits.trans h'.nbits, h.nbytes.trans h'.nbytes, h.layout.trans h'.layout, h.initial.trans h'.initial⟩

theorem Reordered.member? {p p' : Def} (hp : p.WellFormed) (hp' : p'.WellFormed) (h : p.Reordered p')
    (names : List String) : Option.Rel SameWire (p.member? names) (p'.member? names) := by
  obtain ⟨ι, ι', hι, hι', h⟩ := h
  have hmember : (p.member? names).map (relabel (.positionless ι hι)) =
      (p'.member? names).map (relabel (.positionless ι' hι')) := by
    rw [← hp.member?_relabel, h, hp'.member?_relabel]
  cases hd : p.member? names with
  | none =>
    rw [hd, Option.map_none, eq_comm, Option.map_eq_none_iff] at hmember
    rw [hmember]
    exact .none
  | some d =>
    rw [hd, Option.map_some, eq_comm, Option.map_eq_some_iff] at hmember
    obtain ⟨d', hd', heq⟩ := hmember
    have hwire := (sameWire_relabel (Relabeling.silent_positionless hι) d).symm
    rw [← heq] at hwire
    rw [hd']
    exact .some (hwire.trans (sameWire_relabel (Relabeling.silent_positionless hι') d'))

end Def

/-- **The order in which fields are declared does not matter.**  For accepted schemas that differ only in this order the
same text is written in every language, with library calls or with statements written out, and so the same files are
written.  Definitions with the same names have the same sizes in bits and bytes and the same layout on the wire. -/
theorem render_eq_of_reordered {p p' : Def} (hp : Reader.Accepts p) (hp' : Reader.Accepts p') (h : p.Reordered p') :
    (∀ (a : Artifact) optimized only, a.text (p.plan optimized only) = a.text (p'.plan optimized only)) ∧
    (∀ optimized only fs outdir language,
      (p.plan optimized only).render fs outdir language = (p'.plan optimized only).render fs outdir language) ∧
    ∀ names, Option.Rel Def.SameWire (p.member? names) (p'.member? names) := by
  refine ⟨fun a optimized only => ?_, fun optimized only fs outdir language => ?_, ?_⟩
  · obtain ⟨ι, ι', hι, hι', h⟩ := h
    calc a.text (p.plan optimized only)
      _ = a.text ((p.plan optimized only).relabel (.positionless ι hι)) :=
        (a.text_silent (Relabeling.silent_positionless hι) hp.laidOut.1.apart hp.wellFormed).symm
      _ = a.text ((p'.plan optimized only).relabel (.positionless ι' hι')) := by
        rw [← Def.plan_relabel, h, Def.plan_relabel]
      _ = a.text (p'.plan optimized only) :=
        a.text_silent (Relabeling.silent_positionless hι') hp'.laidOut.1.apart hp'.wellFormed
  · obtain ⟨ι, ι', hι, hι', h⟩ := h
    calc (p.plan optimized only).render fs outdir language
      _ = ((p.plan optimized only).relabel (.positionless ι hι)).render fs outdir language :=
        (OutputPlan.render_silent (Relabeling.silent_positionless hι) hp.laidOut.1.apart hp.wellFormed fs
          outdir language).symm
      _ = ((p'.plan optimized only).relabel (.positionless ι' hι')).render fs outdir language := by
        rw [← Def.plan_relabel, h, Def.plan_relabel]
      _ = (p'.plan optimized only).render fs outdir language :=
        OutputPlan.render_silent (Relabeling.silent_positionless hι') hp'.laidOut.1.apart hp'.wellFormed fs
          outdir language
  · exact h.member? hp.wellFormed hp'.wellFormed

namespace Sample

/-- A message whose first field in the text is the last one on the wire. -/
def declared : Files := .ofTree {
  cwd := "/"
  files := [(["a"], "proto a\nmessage M\x7b\n// x\nuint3 x=2\nenum C:uint2\x7bX=1\x7d\nC y=1\x7d")] }

/-- The same message with this field moved behind the enum and the other field. -/
def moved : Files := .ofTree {
  cwd := "/"
  files := [(["a"], "proto a\nmessage M\x7benum C:uint2\x7bX=1\x7d\nC y=1\n// x\nuint3 x=2\x7d")] }

/-- How the serial numbers of the one schema become those of the other. -/
def renumber (n : Nat) : Nat := if n = 2 then 5 else if 3 ≤ n ∧ n ≤ 5 then n - 1 else n

theorem renumber_injective : Function.Injective renumber := by
  intro m n h
  unfold renumber at h
  grind

/-- The numbers of fields in the order of declaration, zero for other members. -/
def numbers (p : Def) : List (List Nat) := p.members.map fun m => m.2.members.map (·.2.number)

end Sample

/-- A field is moved behind an enum and another field, and is written as before. -/
theorem render_eq_of_reordered_moved : ∃ p p', Reader.Accepts p ∧ Reader.Accepts p' ∧ p.Reordered p' ∧
    Sample.numbers p = [[2, 0, 1]] ∧ Sample.numbers p' = [[0, 1, 2]] ∧
    (∀ (a : Artifact) optimized only, a.text (p.plan optimized only) = a.text (p'.plan optimized only)) ∧
    (∀ optimized only fs outdir language,
      (p.plan optimized only).render fs outdir language = (p'.plan optimized only).render fs outdir language) ∧
    ∀ names, Option.Rel Def.SameWire (p.member? names) (p'.member? names) := by
  have hdeclared : (Reader.parse Sample.declared "a" false).result.map Sample.numbers = .ok [[2, 0, 1]] := by
    decide +kernel
  have hmoved : (Reader.parse Sample.moved "a" false).result.map Sample.numbers = .ok [[0, 1, 2]] := by
    decide +kernel
  have hsame : (Reader.parse Sample.declared "a" false).result.toOption.map
        (Def.relabel (.positionless Sample.renumber Sample.renumber_injective)) =
      (Reader.parse Sample.moved "a" false).result.toOption.map
        (Def.relabel (.positionless id Function.injective_id)) := by
    decide +kernel
  cases hp : (Reader.parse Sample.declared "a" false).result with
  | error f =>
    rw [hp] at hdeclared
    cases hdeclared
  | ok p =>
    cases hp' : (Reader.parse Sample.moved "a" false).result with
    | error f =>
      rw [hp'] at hmoved
      cases hmoved
    | ok p' =>
      rw [hp] at hdeclared hsame
      rw [hp'] at hmoved hsame
      have haccepts : Reader.Accepts p := ⟨_, false, "a", .inl hp⟩
      have haccepts' : Reader.Accepts p' := ⟨_, false, "a", .inl hp'⟩
      have hreordered : p.Reordered p' :=
        ⟨Sample.renumber, id, Sample.renumber_injective, Function.injective_id, Option.some.inj hsame⟩
      exact ⟨p, p', haccepts, haccepts', hreordered, Except.ok.inj hdeclared, Except.ok.inj hmoved,
        render_eq_of_reordered haccepts haccepts' hreordered⟩

end BitSchema
