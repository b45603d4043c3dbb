import BitSchema.Proofs.Nesting
import Mathlib.Algebra.Order.BigOperators.Group.List

/-!
# Types that grow

A message grows when fields with larger numbers are appended to it (`Appends`).  `Ty.Grows t u` says that `u` is `t`
in which extensible messages have grown, at any depth; at the top also a message that is not extensible may grow
(`Def.GrowsTop`).  Names, comments and the order of declaration play no part.

In wire order the fields of the smaller message come first among those of the larger one (`aligned_of_appends`), which
has no fewer bits (`Def.GrowsTop.nbits_le`).

`Ty.AllArrays P` says that `P` is true of every array inside a type.
-/

namespace BitSchema

open Wire List

/-! ### Growing -/

/-- The fields of `ms'` that are not among those of `ms` have larger numbers than all of these. -/
def Appends (ms ms' : Members) : Prop :=
  ∀ g ∈ fieldsOf ms', (∃ f ∈ fieldsOf ms, f.number = g.number) ∨ ∀ f ∈ fieldsOf ms, f.number < g.number

mutual

/-- **Types that grow.**  The second type is the first one with fields appended to extensible messages. -/
def Ty.Grows : Ty → Ty → Prop
  | .unknown _ _, _ => False
  | .bool _, u => ∃ o, u = .bool o
  | .byte _, u => ∃ o, u = .byte o
  | .uint _ cap, u => ∃ o, u = .uint o cap
  | .int _ cap, u => ∃ o, u = .int o cap
  | .array _ element cap ext, u => ∃ o element', u = .array o element' cap ext ∧ element.Grows element'
  | .named d, u => ∃ d', u = .named d' ∧ d.Grows d'
termination_by structural t => t

def Def.Grows : Def → Def → Prop
  | .typeAlias _ target, u => ∃ h target', u = .typeAlias h target' ∧ target.Grows target'
  | .enum _ _ cap _, u => ∃ h o ms, u = .enum h o cap ms
  | .message _ ext ms, u => ∃ h ms', u = .message h ext ms' ∧ fieldsGrow ms ms' ∧ Appends ms ms' ∧
      (ext = false → ∀ g ∈ fieldsOf ms', ∃ f ∈ fieldsOf ms, f.number = g.number)
  | _, _ => False
termination_by structural d => d

/-- All fields among members are among others, with types that have grown. -/
def fieldsGrow : List (String × Def) → Members → Prop
  | [], _ => True
  | (_, d) :: r, ms' => d.FieldGrows ms' ∧ fieldsGrow r ms'
termination_by structural ms => ms

/-- A field is among others, with a type that has grown. -/
def Def.FieldGrows : Def → Members → Prop
  | .field _ ty number, ms' => ∃ g ∈ fieldsOf ms', g.number = number ∧ ty.Grows g.ty
  | _, _ => True
termination_by structural d => d

end

/-- **Messages that grow at the top**, whether they are extensible or not. -/
def Def.GrowsTop (d d' : Def) : Prop :=
  ∃ h h' ext ms ms', d = .message h ext ms ∧ d' = .message h' ext ms' ∧ fieldsGrow ms ms' ∧ Appends ms ms'

theorem fieldsGrow_iff {ms ms' : Members} :
    fieldsGrow ms ms' ↔ ∀ f ∈ fieldsOf ms, ∃ g ∈ fieldsOf ms', g.number = f.number ∧ f.ty.Grows g.ty :=
  forall_fieldsOf_iff (F := (fieldsGrow · ms')) trivial (fun _ _ _ => .rfl)
    (fun d => by cases d <;> simp [Def.FieldGrows, Def.field?]) ms

theorem Ty.Grows.leaf?_eq {t u : Ty} {kind : Leaf} {width : Nat} (h : t.Grows u)
    (ht : t.leaf? = some (kind, width)) : u.leaf? = some (kind, width) := by
  cases t with
  | bool o => obtain ⟨o', rfl⟩ := h; exact ht
  | byte o => obtain ⟨o', rfl⟩ := h; exact ht
  | uint o cap => obtain ⟨o', rfl⟩ := h; exact ht
  | int o cap => obtain ⟨o', rfl⟩ := h; exact ht
  | named d =>
    obtain ⟨d', rfl, hd⟩ := h
    cases d with
    | enum hd' o cap ms => obtain ⟨h', o', ms', rfl⟩ := hd; exact ht
    | _ => simp [Ty.leaf?] at ht
  | _ => simp [Ty.leaf?] at ht

variable {t : Ty}

/-- **Every well-formed type grows to itself**: nothing need be appended. -/
theorem Ty.WellFormed.grows_self (hwf : t.WellFormed) : t.Grows t := by
  induction t using Ty.layoutInduction with
  | unknown o missing => exact hwf.elim
  | bool o => exact ⟨o, rfl⟩
  | byte o => exact ⟨o, rfl⟩
  | uint o cap => exact ⟨o, rfl⟩
  | int o cap => exact ⟨o, rfl⟩
  | array o element cap ext ih => exact ⟨o, element, rfl, ih hwf.2.2.2⟩
  | typeAlias h target ih => exact ⟨_, rfl, h, target, rfl, ih hwf.2.2⟩
  | enum h o cap ms => exact ⟨_, rfl, h, o, ms, rfl⟩
  | message h ext ms ih =>
    refine ⟨_, rfl, h, ms, rfl, fieldsGrow_iff.2 fun f hf => ⟨f, hf, rfl, ih f hf (hwf.2.field hf).2.2⟩, ?_, ?_⟩
    · exact fun g hg => .inl ⟨g, hg, rfl⟩
    · exact fun _ g hg => ⟨g, hg, rfl⟩
  | other d hd => exact absurd hwf.1 (by simp [hd])

/-! ### Fields in wire order -/

theorem pairwise_orderedFields {ms : Members} (hnumbered : Numbered ms) :
    (orderedFields ms).Pairwise fun f g => f.number < g.number := by
  have hsorted : (orderedFields ms).Pairwise fun f g => f.before g = true :=
    pairwise_mergeSort Field.before_trans Field.before_total _
  have hne : (orderedFields ms).Pairwise fun f g => f.number ≠ g.number := pairwise_map.1 hnumbered.nodup_ordered
  exact (hsorted.and hne).imp fun {f g} h => lt_of_le_of_ne (Field.before_iff.1 h.1) h.2

theorem split_of_pairwise {α : Type} {p : α → Prop} {l : List α} (h : l.Pairwise fun a b => p b → p a) :
    ∃ pre post, l = pre ++ post ∧ (∀ a ∈ pre, p a) ∧ ∀ b ∈ post, ¬p b := by
  induction l with
  | nil => exact ⟨[], [], rfl, by simp, by simp⟩
  | cons a l ih =>
    obtain ⟨ha, hl⟩ := pairwise_cons.1 h
    by_cases hp : p a
    · obtain ⟨pre, post, rfl, hpre, hpost⟩ := ih hl
      exact ⟨a :: pre, post, rfl, by simpa [hp] using hpre, hpost⟩
    · refine ⟨[], a :: l, rfl, by simp, fun b hb => ?_⟩
      rcases mem_cons.1 hb with rfl | hb
      · exact hp
      · exact fun hpb => hp (ha b hb hpb)

/-- **The fields of the smaller message come first** in wire order among those of the larger one. -/
theorem aligned_of_appends {R : Ty → Ty → Prop} {ms ms' : Members} (hnumbered : Numbered ms) (hnumbered' : Numbered ms')
    (hfields : ∀ f ∈ fieldsOf ms, ∃ g ∈ fieldsOf ms', g.number = f.number ∧ R f.ty g.ty) (happends : Appends ms ms') :
    ∃ pre post, orderedFields ms' = pre ++ post ∧
      List.Forall₂ (fun f g => (f ∈ fieldsOf ms ∧ g ∈ fieldsOf ms') ∧ f.number = g.number ∧ R f.ty g.ty)
        (orderedFields ms) pre ∧
      ∀ g ∈ post, ¬∃ f ∈ fieldsOf ms, f.number = g.number := by
  have hsorted := pairwise_orderedFields hnumbered
  have hsorted' := pairwise_orderedFields hnumbered'
  -- a field with a smaller number than one of the smaller message is itself one of them
  have hfirst : (orderedFields ms').Pairwise fun a b =>
      (∃ f ∈ fieldsOf ms, f.number = b.number) → ∃ f ∈ fieldsOf ms, f.number = a.number := by
    refine hsorted'.imp_of_mem fun {a b} ha _ hlt => ?_
    rintro ⟨f, hf, hfb⟩
    rcases happends a (mem_orderedFields.1 ha) with hold | hnew
    · exact hold
    · have := hnew f hf
      omega
  obtain ⟨pre, post, hsplit, hpre, hpost⟩ := split_of_pairwise hfirst
  refine ⟨pre, post, hsplit, ?_, hpost⟩
  have hmem (g : Field) (hg : g ∈ pre) : g ∈ fieldsOf ms' := by
    rw [← mem_orderedFields, hsplit]
    exact mem_append_left _ hg
  -- both lists have the same numbers, which increase
  have hnumbers : (orderedFields ms).map Field.number = pre.map Field.number := by
    rw [hsplit] at hsorted'
    have hinc := pairwise_map.2 hsorted
    have hinc' := pairwise_map.2 (pairwise_append.1 hsorted').1
    refine hinc.eq_of_mem_iff hinc' fun n => ?_
    constructor
    · intro hn
      obtain ⟨f, hf, rfl⟩ := mem_map.1 hn
      have hf := mem_orderedFields.1 hf
      obtain ⟨g, hg, hgf, -⟩ := hfields f hf
      rw [← mem_orderedFields, hsplit, mem_append] at hg
      rcases hg with hg | hg
      · exact mem_map.2 ⟨g, hg, hgf⟩
      · exact absurd ⟨f, hf, hgf.symm⟩ (hpost g hg)
    · intro hn
      obtain ⟨g, hg, rfl⟩ := mem_map.1 hn
      obtain ⟨f, hf, hfg⟩ := hpre g hg
      exact mem_map.2 ⟨f, mem_orderedFields.2 hf, hfg⟩
  have hpairs : List.Forall₂ (fun f g => f.number = g.number) (orderedFields ms) pre := by
    rw [← List.forall₂_eq_eq_eq, List.forall₂_map_left_iff, List.forall₂_map_right_iff] at hnumbers
    exact hnumbers
  refine List.forall₂_iff_zip.2 ⟨hpairs.length_eq, fun {f g} hfg => ?_⟩
  have hnum := (List.forall₂_iff_zip.1 hpairs).2 hfg
  obtain ⟨hf, hg⟩ := of_mem_zip hfg
  obtain ⟨g', hg', hnum', htypes⟩ := hfields f (mem_orderedFields.1 hf)
  obtain rfl : g' = g := hnumbered'.eq_of_number hg' (hmem g hg) (hnum'.trans hnum)
  exact ⟨⟨mem_orderedFields.1 hf, hg'⟩, hnum, htypes⟩

/-- **Messages do not get smaller** if the types of their fields do not. -/
theorem fieldBits_le_of_appends {R : Ty → Ty → Prop} {ms ms' : Members} (hnumbered : Numbered ms)
    (hnumbered' : Numbered ms') (hfields : ∀ f ∈ fieldsOf ms, ∃ g ∈ fieldsOf ms', g.number = f.number ∧ R f.ty g.ty)
    (happends : Appends ms ms')
    (htypes : ∀ f ∈ fieldsOf ms, ∀ g ∈ fieldsOf ms', R f.ty g.ty → f.ty.nbits ≤ g.ty.nbits) :
    fieldBits ms ≤ fieldBits ms' := by
  obtain ⟨pre, post, hsplit, hpairs, -⟩ := aligned_of_appends hnumbered hnumbered' hfields happends
  have hle : List.Forall₂ (· ≤ ·) ((orderedFields ms).map fun f => f.ty.nbits) (pre.map fun g => g.ty.nbits) := by
    rw [List.forall₂_map_left_iff, List.forall₂_map_right_iff]
    exact hpairs.imp fun f g h => htypes f h.1.1 g h.1.2 h.2.2
  rw [fieldBits_eq_ordered, fieldBits_eq_ordered, hsplit, map_append, sum_append]
  exact Nat.le_add_right_of_le hle.sum_le_sum

/-- **Types do not get smaller** when they grow. -/
theorem Ty.WellFormed.nbits_le_of_grows (hwf : t.WellFormed) :
    ∀ u : Ty, u.WellFormed → t.Grows u → t.nbits ≤ u.nbits := by
  induction t, hwf using Ty.WellFormed.induction with
  | leaf t kind width hwf ht =>
    intro u hu hgrows
    rw [ht.nbits_eq, (hu.leafOf (hgrows.leaf?_eq ht.leaf_eq)).nbits_eq]
  | typeAlias h target hwf ih =>
    rintro u hu ⟨d', rfl, h', target', rfl, hgrows⟩
    exact ih target' hu.2.2 hgrows
  | array o element cap ext hwf ih =>
    rintro u hu ⟨o', element', rfl, hgrows⟩
    exact Nat.add_le_add_left (Nat.mul_le_mul_left cap (ih element' hu.2.2.2 hgrows)) _
  | message h ext ms hwf ih =>
    rintro u hu ⟨d', rfl, h', ms', rfl, hgrows, happends, -⟩
    refine Nat.add_le_add_left ?_ _
    exact fieldBits_le_of_appends hwf.2.numbered hu.2.numbered (fieldsGrow_iff.1 hgrows) happends
      fun f hf g hg => ih f hf g.ty (hu.2.field hg).2.2

/-- **A message does not get smaller** when it grows at the top. -/
theorem Def.GrowsTop.nbits_le {d d' : Def} (h : d.GrowsTop d') (hwf : d.WellFormed) (hwf' : d'.WellFormed) :
    d.nbits ≤ d'.nbits := by
  obtain ⟨h, h', ext, ms, ms', rfl, rfl, hfields, happends⟩ := h
  refine Nat.add_le_add_left ?_ _
  exact fieldBits_le_of_appends hwf.numbered hwf'.numbered (fieldsGrow_iff.1 hfields) happends
    fun f hf g hg => (hwf.field hf).2.2.nbits_le_of_grows g.ty (hwf'.field hg).2.2

/-- **Every message grows to itself**, at the top and inside others. -/
theorem Def.WellFormed.growsTop_self {h : Header} {ext : Bool} {ms : Members} (hwf : (Def.message h ext ms).WellFormed) :
    (Def.message h ext ms).GrowsTop (.message h ext ms) ∧ (Def.message h ext ms).Grows (.message h ext ms) := by
  have hfields : fieldsGrow ms ms :=
    fieldsGrow_iff.2 fun f hf => ⟨f, hf, rfl, (hwf.field hf).2.2.grows_self⟩
  have happends : Appends ms ms := fun g hg => .inl ⟨g, hg, rfl⟩
  exact ⟨⟨h, h, ext, ms, ms, rfl, rfl, hfields, happends⟩, h, ms, rfl, hfields, happends, fun _ g hg => ⟨g, hg, rfl⟩⟩

/-! ### Arrays inside a type -/

mutual

/-- **A property of every array** inside a type, given its elements, its capacity and whether it is extensible. -/
def Ty.AllArrays (P : Ty → Nat → Bool → Prop) : Ty → Prop
  | .array _ element cap ext => P element cap ext ∧ element.AllArrays P
  | .named d => d.AllArrays P
  | _ => True

/-- A property of every array inside a defined type. -/
def Def.AllArrays (P : Ty → Nat → Bool → Prop) : Def → Prop
  | .typeAlias _ target => target.AllArrays P
  | .message _ _ ms => fieldsAllArrays P ms
  | _ => True

/-- A property of every array inside the fields among members. -/
def fieldsAllArrays (P : Ty → Nat → Bool → Prop) : List (String × Def) → Prop
  | [] => True
  | (_, d) :: r => d.FieldAllArrays P ∧ fieldsAllArrays P r

def Def.FieldAllArrays (P : Ty → Nat → Bool → Prop) : Def → Prop
  | .field _ ty _ => ty.AllArrays P
  | _ => True

end

theorem fieldsAllArrays_iff {P : Ty → Nat → Bool → Prop} {ms : Members} :
    fieldsAllArrays P ms ↔ ∀ f ∈ fieldsOf ms, f.ty.AllArrays P :=
  forall_fieldsOf_iff trivial (fun _ _ _ => .rfl) (fun d => by cases d <;> simp [Def.FieldAllArrays, Def.field?]) ms

theorem Ty.allArrays_of_leaf? {P : Ty → Nat → Bool → Prop} {kind : Leaf} {width : Nat}
    (ht : t.leaf? = some (kind, width)) : t.AllArrays P := by
  cases t with
  | array o element cap ext => cases ht
  | named d =>
    cases d with
    | enum h o cap ms => trivial
    | _ => cases ht
  | _ => trivial

theorem Ty.AllArrays.mono {P Q : Ty → Nat → Bool → Prop} (hPQ : ∀ element cap ext, P element cap ext → Q element cap ext)
    (h : t.AllArrays P) : t.AllArrays Q := by
  induction t using Ty.layoutInduction with
  | array o element cap ext ih => exact ⟨hPQ _ _ _ h.1, ih h.2⟩
  | typeAlias hd target ih => exact ih h
  | message hd ext ms ih =>
    exact fieldsAllArrays_iff.2 fun f hf => ih f hf (fieldsAllArrays_iff.1 h f hf)
  | other d hd => cases d <;> trivial
  | _ => trivial

theorem Def.AllArrays.mono {P Q : Ty → Nat → Bool → Prop}
    (hPQ : ∀ element cap ext, P element cap ext → Q element cap ext)
    {d : Def} (h : d.AllArrays P) : d.AllArrays Q :=
  Ty.AllArrays.mono (t := .named d) hPQ h

end BitSchema
