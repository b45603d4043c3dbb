import BitSchema.Proofs.AnyBytes
import BitSchema.Proofs.ExtensibleArrays

/-!
# Extensible arrays that get wider

`Ty.Widens t u` says that `u` is `t` with larger capacities of extensible arrays, at any depth.  When `t` unpacks a
value of `u`, it takes as many elements of an array as it knows of, and jumps to where it takes the announced elements
to end. It counts as many bits for each of them as its own capacity, whatever their size.

`Ty.reach t u` is how many bits `t` goes forward in this way.  From an array it leads to the end of the larger one
only by coincidence (`Ty.reach_array_eq_nbits_iff`); an extensible message leads to its end if nothing inside leads
beyond it. What is unpacked next begins there.  So all elements and fields are unpacked from where they are packed if
only such parts are followed by others that end where they should (`Ty.InPlace`).  Then every array gets its first
elements and every field its value (`Ty.WellFormed.readsWider`).
-/

namespace BitSchema

open Wire Loading List

/-! ### Wider arrays -/

mutual

/-- **Types with arrays that get wider.**  The second type is the first one with larger capacities of extensible
arrays. -/
def Ty.Widens : Ty → Ty → Prop
  | .unknown _ _, _ => False
  | .bool _, u => ∃ o, u = .bool o
  | .byte _, u => ∃ o, u = .byte o
  | .uint _ cap, u => ∃ o, u = .uint o cap
  | .int _ cap, u => ∃ o, u = .int o cap
  | .array _ element cap ext, u => ∃ o element' cap', u = .array o element' cap' ext ∧ element.Widens element' ∧
      cap ≤ cap' ∧ (ext = false → cap' = cap)
  | .named d, u => ∃ d', u = .named d' ∧ d.Widens d'
termination_by structural t => t

/-- Defined types with arrays that get wider. -/
def Def.Widens : Def → Def → Prop
  | .typeAlias _ target, u => ∃ h target', u = .typeAlias h target' ∧ target.Widens target'
  | .enum _ _ cap _, u => ∃ h o ms, u = .enum h o cap ms
  | .message _ ext ms, u => ∃ h ms', u = .message h ext ms' ∧ fieldsWiden ms ms' ∧
      ∀ g ∈ fieldsOf ms', ∃ f ∈ fieldsOf ms, f.number = g.number
  | _, _ => False
termination_by structural d => d

/-- All fields among members are among others, with types whose arrays get wider. -/
def fieldsWiden : List (String × Def) → Members → Prop
  | [], _ => True
  | (_, d) :: r, ms' => d.FieldWidens ms' ∧ fieldsWiden r ms'
termination_by structural ms => ms

/-- A field is among others, with a type whose arrays get wider. -/
def Def.FieldWidens : Def → Members → Prop
  | .field _ ty number, ms' => ∃ g ∈ fieldsOf ms', g.number = number ∧ ty.Widens g.ty
  | _, _ => True
termination_by structural d => d

end

variable {ms ms' : Members}

theorem fieldsWiden_iff :
    fieldsWiden ms ms' ↔ ∀ f ∈ fieldsOf ms, ∃ g ∈ fieldsOf ms', g.number = f.number ∧ f.ty.Widens g.ty :=
  forall_fieldsOf_iff (F := (fieldsWiden · ms')) trivial (fun _ _ _ => .rfl)
    (fun d => by cases d <;> simp [Def.FieldWidens, Def.field?]) ms

theorem Ty.Widens.leaf?_eq {t u : Ty} {kind : Leaf} {width : Nat} (h : t.Widens u)
    (ht : t.leaf? = some (kind, width)) : u.leaf? = some (kind, width) := by
  cases t with
  | bool o => obtain ⟨o', rfl⟩ := h; exact ht
  | byte o => obtain ⟨o', rfl⟩ := h; exact ht
  | uint o cap => obtain ⟨o', rfl⟩ := h; exact ht
  | int o cap => obtain ⟨o', rfl⟩ := h; exact ht
  | named d =>
    obtain ⟨d', rfl, hd⟩ := h
    cases d with
    | enum hd' o cap ms => obtain ⟨h', o', ms', rfl⟩ := hd; exact ht
    | _ => simp [Ty.leaf?] at ht
  | _ => simp [Ty.leaf?] at ht

/-- **The fields of both messages** in wire order. -/
theorem aligned_of_widens (hnumbered : Numbered ms) (hnumbered' : Numbered ms')
    (hfields : fieldsWiden ms ms') (hsame : ∀ g ∈ fieldsOf ms', ∃ f ∈ fieldsOf ms, f.number = g.number) :
    List.Forall₂ (fun f g => (f ∈ fieldsOf ms ∧ g ∈ fieldsOf ms') ∧ f.number = g.number ∧ f.ty.Widens g.ty)
      (orderedFields ms) (orderedFields ms') := by
  obtain ⟨pre, post, hsplit, hpairs, hpost⟩ :=
    aligned_of_appends hnumbered hnumbered' (fieldsWiden_iff.1 hfields) fun g hg => .inl (hsame g hg)
  have hnone : post = [] := by
    refine eq_nil_iff_forall_not_mem.2 fun g hg => hpost g hg (hsame g ?_)
    rw [← mem_orderedFields, hsplit]
    exact mem_append_right _ hg
  rw [hsplit, hnone, append_nil]
  exact hpairs

/-- **Types do not get smaller** when their arrays get wider. -/
theorem Ty.WellFormed.nbits_le_of_widens {t : Ty} (hwf : t.WellFormed) :
    ∀ u : Ty, u.WellFormed → t.Widens u → t.nbits ≤ u.nbits := by
  induction t, hwf using Ty.WellFormed.induction with
  | leaf t kind width hwf ht =>
    intro u hu hwidens
    rw [ht.nbits_eq, (hu.leafOf (hwidens.leaf?_eq ht.leaf_eq)).nbits_eq]
  | typeAlias h target hwf ih =>
    rintro u hu ⟨d', rfl, h', target', rfl, hwidens⟩
    exact ih target' hu.2.2 hwidens
  | array o element cap ext hwf ih =>
    rintro u hu ⟨o', element', cap', rfl, hwidens, hle, -⟩
    exact Nat.add_le_add_left (Nat.mul_le_mul hle (ih element' hu.2.2.2 hwidens)) _
  | message h ext ms hwf ih =>
    rintro u hu ⟨d', rfl, h', ms', rfl, hfields, hsame⟩
    refine Nat.add_le_add_left ?_ _
    exact fieldBits_le_of_appends hwf.2.numbered hu.2.numbered (fieldsWiden_iff.1 hfields) (fun g hg =>
      .inl (hsame g hg))
      fun f hf g hg => ih f hf g.ty (hu.2.field hg).2.2

/-! ### How far unpacking goes -/

mutual

/-- **How many bits the first type goes forward** when it unpacks a value of the second one. -/
def Ty.reach : Ty → Ty → Nat
  | .array _ element cap ext, .array _ element' cap' _ =>
    if ext then max (aheadBits + cap * element.reach element') (cap * cap') else cap * element.reach element'
  | .named d, .named d' => d.reach d'
  | _, u => u.nbits
termination_by structural t => t

/-- How many bits the first defined type goes forward when it unpacks a value of the second one. -/
def Def.reach : Def → Def → Nat
  | .typeAlias _ target, .typeAlias _ target' => target.reach target'
  | .message _ ext ms, u =>
    if ext then max (aheadBits + fieldsReach ms u.members) u.nbits else fieldsReach ms u.members
  | _, u => u.nbits
termination_by structural d => d

/-- How many bits all fields among members go forward. -/
def fieldsReach : List (String × Def) → Members → Nat
  | [], _ => 0
  | (_, d) :: r, ms' => d.fieldReach ms' + fieldsReach r ms'
termination_by structural ms => ms

/-- How many bits a field goes forward when it unpacks the field of the same number. -/
def Def.fieldReach : Def → Members → Nat
  | .field _ ty number, ms' =>
    (((fieldsOf ms').find? fun g => g.number == number).map fun g => ty.reach g.ty).getD 0
  | _, _ => 0
termination_by structural d => d

end

mutual

/-- **All parts are unpacked from where they are packed**: those that others follow end where they should. -/
def Ty.InPlace : Ty → Ty → Prop
  | .array _ element cap _, .array _ element' _ _ =>
    element.InPlace element' ∧ (1 < cap → element.reach element' = element'.nbits)
  | .named d, .named d' => d.InPlace d'
  | _, _ => True
termination_by structural t => t

/-- All parts of a defined type are unpacked from where they are packed. -/
def Def.InPlace : Def → Def → Prop
  | .typeAlias _ target, .typeAlias _ target' => target.InPlace target'
  | .message _ _ ms, u => fieldsInPlace (fieldsOf ms) ms u.members
  | _, _ => True
termination_by structural d => d

/-- All fields are unpacked from where they are packed. -/
def fieldsInPlace (all : List Field) : List (String × Def) → Members → Prop
  | [], _ => True
  | (_, d) :: r, ms' => d.FieldInPlace all ms' ∧ fieldsInPlace all r ms'
termination_by structural ms => ms

/-- A field ends where it should, if others follow it. -/
def Def.FieldInPlace (all : List Field) : Def → Members → Prop
  | .field _ ty number, ms' => ∀ g ∈ fieldsOf ms', g.number = number →
      ty.InPlace g.ty ∧ ((∃ f ∈ all, number < f.number) → ty.reach g.ty = g.ty.nbits)
  | _, _ => True
termination_by structural d => d

end

theorem fieldsInPlace_iff {all : List Field} :
    fieldsInPlace all ms ms' ↔ ∀ f ∈ fieldsOf ms, ∀ g ∈ fieldsOf ms', g.number = f.number →
      f.ty.InPlace g.ty ∧ ((∃ f' ∈ all, f.number < f'.number) → f.ty.reach g.ty = g.ty.nbits) :=
  forall_fieldsOf_iff (F := (fieldsInPlace all · ms')) trivial (fun _ _ _ => .rfl)
    (fun d => by cases d <;> simp [Def.FieldInPlace, Def.field?]) ms

/-- **Types whose values stand one after the other**, all parts of which are unpacked from where they are packed. -/
structure AllInPlace (ts : List (Ty × Ty)) : Prop where
  inPlace : ∀ p ∈ ts, p.1.InPlace p.2
  ends : ∀ p ∈ ts.dropLast, p.1.reach p.2 = p.2.nbits

theorem Ty.reach_of_leaf? {t u : Ty} {kind : Leaf} {width : Nat} (ht : t.leaf? = some (kind, width)) :
    t.reach u = u.nbits := by
  cases t with
  | array o element cap ext => cases ht
  | named d =>
    cases d with
    | enum h o cap ms => cases u <;> rfl
    | _ => cases ht
  | _ => rfl

/-- **From an array that got wider** unpacking leads to its end only if the product of the capacities happens to be its
size. -/
theorem Ty.reach_array_eq_nbits_iff {o o' : Origin} {element element' : Ty} {cap cap' : Nat} (hlt : cap < cap')
    (hpos : 0 < element'.nbits) (helement : element.reach element' = element'.nbits) :
    (Ty.array o element cap true).reach (.array o' element' cap' true) = (Ty.array o' element' cap' true).nbits ↔
      cap * cap' = aheadBits + cap' * element'.nbits := by
  have hless : cap * element'.nbits < cap' * element'.nbits := Nat.mul_lt_mul_of_pos_right hlt hpos
  rw [reach, nbits, if_pos rfl, if_pos rfl, helement]
  omega

/-! ### Fields in wire order -/

/-- How many bits a field goes forward when it unpacks the one of the same number among others. -/
def Field.reachIn (ms' : Members) (f : Field) : Nat :=
  (((fieldsOf ms').find? fun g => g.number == f.number).map fun g => f.ty.reach g.ty).getD 0

theorem Field.reachIn_eq {ms' : Members} {f g : Field} (hnumbered : Numbered ms') (hg : g ∈ fieldsOf ms')
    (hnumber : f.number = g.number) : f.reachIn ms' = f.ty.reach g.ty := by
  unfold reachIn
  cases hfind : (fieldsOf ms').find? fun g => g.number == f.number with
  | none => exact absurd hnumber.symm (by simpa using find?_eq_none.1 hfind g hg)
  | some g' =>
    have hfound : g'.number = f.number := by simpa using find?_some hfind
    obtain rfl : g' = g :=
      hnumbered.eq_of_number (mem_of_find?_eq_some hfind) hg (hfound.trans hnumber)
    rfl

/-- Fields go forward by the same number of bits in any order. -/
theorem fieldsReach_eq_ordered (ms ms' : Members) :
    fieldsReach ms ms' = ((orderedFields ms).map (Field.reachIn ms')).sum := by
  have hsum : fieldsReach ms ms' = ((fieldsOf ms).map (Field.reachIn ms')).sum := by
    induction ms with
    | nil => rfl
    | cons m ms ih =>
      obtain ⟨n, d⟩ := m
      rw [fieldsReach, fieldsOf_cons, map_append, sum_append, ih]
      cases d <;> simp [Def.fieldReach, Def.field?, Field.reachIn]
  rw [hsum]
  exact ((mergeSort_perm _ _).map _).sum_nat.symm

/-- **The fields of a message and those of the same numbers** in one with wider arrays, in wire order. -/
def fieldPairs (ms ms' : Members) : List (Field × Field) := (orderedFields ms).zip (orderedFields ms')

/-- **Fields next to those with wider arrays.** -/
structure PairsFields (ms ms' : Members) : Prop where
  numbered : Numbered ms
  numbered' : Numbered ms'
  fst_eq : (fieldPairs ms ms').map (·.1) = orderedFields ms
  snd_eq : (fieldPairs ms ms').map (·.2) = orderedFields ms'
  pair : ∀ p ∈ fieldPairs ms ms', (p.1 ∈ fieldsOf ms ∧ p.2 ∈ fieldsOf ms') ∧ p.1.number = p.2.number ∧
    p.1.ty.Widens p.2.ty

theorem pairsFields_of_widens (hnumbered : Numbered ms) (hnumbered' : Numbered ms')
    (hfields : fieldsWiden ms ms') (hsame : ∀ g ∈ fieldsOf ms', ∃ f ∈ fieldsOf ms, f.number = g.number) :
    PairsFields ms ms' := by
  have hpairs := aligned_of_widens hnumbered hnumbered' hfields hsame
  have hlength := hpairs.length_eq
  exact ⟨hnumbered, hnumbered', map_fst_zip hlength.le, map_snd_zip hlength.ge,
    fun p hp => (List.forall₂_iff_zip.1 hpairs).2 hp⟩

namespace PairsFields

variable {ms ms' : Members} (h : PairsFields ms ms')

include h

theorem sorted : (fieldPairs ms ms').Pairwise fun p q => p.1.number < q.1.number := by
  have hsorted := pairwise_orderedFields h.numbered
  rwa [← h.fst_eq, pairwise_map] at hsorted

theorem mem_of_number {f g : Field} (hf : f ∈ fieldsOf ms) (hg : g ∈ fieldsOf ms') (hnumber : g.number = f.number) :
    (f, g) ∈ fieldPairs ms ms' := by
  rw [← mem_orderedFields, ← h.fst_eq] at hf
  obtain ⟨⟨f', g'⟩, hp, rfl⟩ := mem_map.1 hf
  obtain ⟨⟨-, hg'⟩, hnumber', -⟩ := h.pair _ hp
  obtain rfl : g = g' := h.numbered'.eq_of_number hg hg' (hnumber.trans hnumber')
  exact hp

/-- **How far all fields go**, each next to the one of the same number. -/
theorem fieldsReach_eq : fieldsReach ms ms' = ((fieldPairs ms ms').map fun p => p.1.ty.reach p.2.ty).sum := by
  rw [fieldsReach_eq_ordered, ← h.fst_eq, map_map]
  congr 1
  refine map_congr_left fun p hp => ?_
  obtain ⟨⟨-, hg⟩, hnumber, -⟩ := h.pair p hp
  exact Field.reachIn_eq h.numbered' hg hnumber

theorem mem_dropLast_iff {p : Field × Field} (hp : p ∈ fieldPairs ms ms') :
    p ∈ (fieldPairs ms ms').dropLast ↔ ∃ f ∈ fieldsOf ms, p.1.number < f.number := by
  have hne : fieldPairs ms ms' ≠ [] := ne_nil_of_mem hp
  have hsorted := h.sorted
  rw [← dropLast_append_getLast hne, pairwise_append] at hsorted
  have hlast (q : Field × Field) (hq : q ∈ (fieldPairs ms ms').dropLast) :
      q.1.number < ((fieldPairs ms ms').getLast hne).1.number := hsorted.2.2 q hq _ (mem_singleton_self _)
  have hcases (q : Field × Field) (hq : q ∈ fieldPairs ms ms') :
      q ∈ (fieldPairs ms ms').dropLast ∨ q = (fieldPairs ms ms').getLast hne := by
    rwa [← dropLast_append_getLast hne, mem_append, mem_singleton] at hq
  constructor
  · intro hdrop
    exact ⟨_, (h.pair _ (getLast_mem hne)).1.1, hlast p hdrop⟩
  · rintro ⟨f, hf, hlt⟩
    rw [← mem_orderedFields, ← h.fst_eq] at hf
    obtain ⟨q, hq, rfl⟩ := mem_map.1 hf
    refine (hcases p hp).resolve_right fun hplast => ?_
    rw [hplast] at hlt
    rcases hcases q hq with hdrop | hqlast
    · exact absurd (hlast q hdrop) (by omega)
    · rw [hqlast] at hlt
      omega

/-- **Messages whose fields are in place.** -/
theorem inPlace_iff {hd hd' : Header} {ext ext' : Bool} :
    (Def.message hd ext ms).InPlace (.message hd' ext' ms') ↔
      AllInPlace ((fieldPairs ms ms').map fun p => (p.1.ty, p.2.ty)) := by
  show fieldsInPlace (fieldsOf ms) ms ms' ↔ _
  rw [fieldsInPlace_iff]
  constructor
  · intro hfields
    refine ⟨fun t ht => ?_, fun t ht => ?_⟩
    · obtain ⟨p, hp, rfl⟩ := mem_map.1 ht
      obtain ⟨⟨hf, hg⟩, hnumber, -⟩ := h.pair p hp
      exact (hfields _ hf _ hg hnumber.symm).1
    · rw [← map_dropLast] at ht
      obtain ⟨p, hp, rfl⟩ := mem_map.1 ht
      have hp' := dropLast_subset _ hp
      obtain ⟨⟨hf, hg⟩, hnumber, -⟩ := h.pair p hp'
      exact (hfields _ hf _ hg hnumber.symm).2 ((h.mem_dropLast_iff hp').1 hp)
  · intro hall f hf g hg hnumber
    have hp := h.mem_of_number hf hg hnumber
    refine ⟨hall.inPlace (f.ty, g.ty) (mem_map.2 ⟨_, hp, rfl⟩), fun hlater => hall.ends (f.ty, g.ty) ?_⟩
    rw [← map_dropLast]
    exact mem_map.2 ⟨_, (h.mem_dropLast_iff hp).2 hlater, rfl⟩

end PairsFields

theorem inPlace_array_iff {o o' : Origin} {element element' : Ty} {cap cap' : Nat} {ext ext' : Bool} (hcap : 0 < cap) :
    (Ty.array o element cap ext).InPlace (.array o' element' cap' ext') ↔
      AllInPlace (List.replicate cap (element, element')) := by
  constructor
  · rintro ⟨helement, hends⟩
    refine ⟨fun p hp => ?_, fun p hp => ?_⟩
    · rw [eq_of_mem_replicate hp]
      exact helement
    · rw [dropLast_replicate] at hp
      have hlt : 1 < cap := by
        have hpos := length_pos_of_mem hp
        rw [length_replicate] at hpos
        omega
      rw [eq_of_mem_replicate hp]
      exact hends hlt
  · intro h
    refine ⟨h.inPlace (element, element') (mem_replicate.2 ⟨by omega, rfl⟩), fun hlt => ?_⟩
    refine h.ends (element, element') ?_
    rw [dropLast_replicate]
    exact mem_replicate.2 ⟨by omega, rfl⟩

/-! ### Types -/

/-- **Every type reads values of one with wider arrays** if all parts are in place. -/
theorem Ty.WellFormed.readsWider (title : Def → String) {t : Ty} (hwf : t.WellFormed) :
    ∀ u : Ty, u.WellFormed → t.Widens u → t.InPlace u → t.ReadsAs title u (t.reach u) := by
  induction t, hwf using Ty.WellFormed.induction with
  | leaf t kind width hwf ht =>
    intro u hu hwidens _
    rw [Ty.reach_of_leaf? ht.leaf_eq]
    exact ht.readsAs (hu.leafOf (hwidens.leaf?_eq ht.leaf_eq))
  | typeAlias h target hwf ih =>
    rintro u hu ⟨d', rfl, h', target', rfl, hwidens⟩ hplace
    exact ih target' hu.2.2 hwidens hplace
  | array o element cap ext hwf ih =>
    rintro u hu ⟨o', element', cap', rfl, hwidens, hle, -⟩ hplace
    exact readsAs_array hu.2.1 hle (ih element' hu.2.2.2 hwidens hplace.1) hplace.2
  | message h ext ms hwf ih =>
    rintro u hu ⟨d', rfl, h', ms', rfl, hfields, hsame⟩ hplace
    have hpairs := pairsFields_of_widens hwf.2.numbered hu.2.numbered hfields hsame
    have hall := hpairs.inPlace_iff.1 hplace
    show Ty.ReadsAs title _ _ (if ext then max (aheadBits + fieldsReach ms ms') (Def.message h' ext ms').nbits
      else fieldsReach ms ms')
    rw [hpairs.fieldsReach_eq]
    refine readsAs_message (fun p => p.1.ty.reach p.2.ty) hu.2 hwf.2.numbered hpairs.fst_eq
      (hpairs.snd_eq.symm.trans (append_nil _).symm) (fun p hp => (hpairs.pair p hp).2.1) (fun p hp => ?_) fun p hp => ?_
    · obtain ⟨⟨hf, hg⟩, -, hwidens⟩ := hpairs.pair p hp
      exact ih p.1 hf p.2.ty (hu.2.field hg).2.2 hwidens (hall.inPlace _ (mem_map.2 ⟨p, hp, rfl⟩))
    · refine hall.ends (p.1.ty, p.2.ty) ?_
      rw [← map_dropLast]
      exact mem_map.2 ⟨p, hp, rfl⟩

/-! ### Objects -/

/-- **There are enough bytes** for an object whose arrays got wider. -/
theorem Loading.Object.IsNew.decode_of_widens {title : Def → String} {h h' : Header} {ext : Bool} {bytes : Array UInt8}
    {o : Object} (hnew : o.IsNew title) (hdecodes : (Def.message h ext ms).Decodes)
    (hwf : (Def.message h ext ms).WellFormed)
    (hwf' : (Def.message h' ext ms').WellFormed)
    (hwidens : (Def.message h ext ms).Widens (.message h' ext ms')) (hmessage : o.message = .message h ext ms)
    (hsize : bytes.size = ((Def.message h' ext ms').nbits + 7) / 8) :
    o.decode bytes = ({ o with slots := (Wire.unpack (Def.message h ext ms).processor bytes o.title o.slots).2 },
      (Wire.unpack (Def.message h ext ms).processor bytes o.title o.slots).1) := by
  have hle : (Def.message h ext ms).nbits ≤ (Def.message h' ext ms').nbits :=
    Ty.WellFormed.nbits_le_of_widens (t := .named (.message h ext ms)) ⟨rfl, hwf⟩
      (.named (.message h' ext ms')) ⟨rfl, hwf'⟩
      ⟨_, rfl, hwidens⟩
  exact hnew.decode_eq hdecodes hmessage hwf (by omega)

/-- **A new object is unpacked from the bits of one with wider arrays** if all parts are in place. -/
theorem Def.WellFormed.decode_eq_of_widens {title : Def → String} {h h' : Header} {ext : Bool}
    {bytes : Array UInt8} {w : Value} {new : Object} (hwf : (Def.message h ext ms).WellFormed)
    (hwf' : (Def.message h' ext ms').WellFormed) (hwidens : (Def.message h ext ms).Widens (.message h' ext ms'))
    (hplace : (Def.message h ext ms).InPlace (.message h' ext ms')) (hw : (Def.message h' ext ms').InRange w)
    (hsize : bytes.size = ((Def.message h' ext ms').nbits + 7) / 8)
    (hbits : ∀ k, bitAt bytes k = ((Def.message h' ext ms').wireBits w)[k]?.getD false)
    (hmessage : new.message = .message h ext ms) (hnew : new.IsNew title) :
    ∃ slots, (Def.message h ext ms).processor.run (.unpacking bytes new.title new.slots)
        = (.ok (), { Machine.unpacking bytes new.title new.slots with
            cursor := (Def.message h ext ms).reach (.message h' ext ms'), accessor := .record new.title slots }) ∧
      (Def.message h ext ms).Agree (.record new.title slots) w ∧
      ((Def.message h ext ms).Decodes → new.decode bytes = ({ new with slots }, .ok ())) := by
  have ht : (Ty.named (.message h ext ms)).WellFormed := ⟨rfl, hwf⟩
  have hu : (Ty.named (.message h' ext ms')).WellFormed := ⟨rfl, hwf'⟩
  have hinitial := hnew
  rw [Object.IsNew, hmessage] at hinitial
  obtain ⟨v, hscan, hagree⟩ := ht.readsWider title _ hu ⟨_, rfl, hwidens⟩ hplace _ 0 w hw (hwf'.gives_packed hsize hbits)
  rw [Nat.zero_add] at hscan
  obtain ⟨slots, rfl, hrun⟩ := hwf.run_eq hinitial.symm hscan
  refine ⟨slots, hrun, hagree, fun hdecodes => ?_⟩
  obtain ⟨slots', heq, hunpack⟩ := hwf.unpack_eq hinitial.symm hscan
  obtain ⟨-, rfl⟩ := Value.record.inj heq
  rw [hnew.decode_of_widens hdecodes hwf hwf' hwidens hmessage hsize, hunpack]

end BitSchema
