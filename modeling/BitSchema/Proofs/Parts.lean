import BitSchema.Proofs.Growth
import BitSchema.Proofs.Packing
import BitSchema.Proofs.Scan

/-!
# Reading parts of a value

A type may read values of another one: of itself, of one that it has grown to, or of one with wider arrays.
`Ty.ReadsAs` says that it gets all its leaves and goes a number of bits forward.

Elements and fields are read one after the other (`scanAll_parts`).  All but the last one must end where they are
packed; then an array reads the first elements of another one (`readsAs_array`), and a message the first fields
(`readsAs_message`).
-/

namespace BitSchema

open Wire List

/-! ### Parts that are read one after the other -/

/-- **A part of a value**, with the type that reads it and the type that it is of. -/
structure Part where
  old : Ty
  current : Ty
  value : Value

namespace Part

def types (p : Part) : Ty × Ty := (p.old, p.current)

def bits (p : Part) : List Bool := p.current.wireBits p.value

/-- The part has the shape of its type, with leaves within bounds. -/
def Holds (p : Part) : Prop := p.current.Holds Leaf.Range p.value

@[simp] theorem length_bits (p : Part) : p.bits.length = p.current.nbits := Ty.length_wireBits _ _

end Part

/-- **The first type reads values of the second one**: it gets all its leaves, and goes `n` bits forward. -/
def Ty.ReadsAs (title : Def → String) (t u : Ty) (n : Nat) : Prop :=
  ∀ (src : Source) (i : Nat) (w : Value), u.Holds Leaf.Range w → src.Gives i (u.wireBits w) →
    ∃ v, t.scan title src i = some (v, i + n) ∧ t.Agree v w

open Wire.Run

section

variable {title : Def → String} {src : Source} {i : Nat}

variable {α : Type} {ext : Bool} {j : Nat} {element : Ty} {vs : List Value} {ps : List Part} {ms : Members}

/-- **Parts are read one after the other** if all but the last one end where they are packed. -/
theorem scanAll_parts {l : List α} (part : α → Part) (n : α → Nat)
    (hparts : ∀ a ∈ l, (part a).old.ReadsAs title (part a).current (n a))
    (hends : ∀ a ∈ l.dropLast, n a = (part a).current.nbits) (hholds : ∀ a ∈ l, (part a).Holds)
    (hgives : src.Gives i (l.flatMap fun a => (part a).bits)) :
    ∃ vs, scanAll (l.map fun a => (part a).old.scan title src) i = some (vs, i + (l.map n).sum) ∧
      List.Forall₂ (fun a v => (part a).old.Agree v (part a).value) l vs := by
  induction l generalizing i with
  | nil => exact ⟨[], rfl, .nil⟩
  | cons a l ih =>
    rw [flatMap_cons, Source.gives_append, Part.length_bits] at hgives
    obtain ⟨v, hv, hagree⟩ := hparts a (mem_cons_self ..) src i _ (hholds a (mem_cons_self ..)) hgives.1
    rw [map_cons, map_cons, sum_cons, scanAll, hv, Option.bind_some]
    cases l with
    | nil => exact ⟨[v], rfl, .cons hagree .nil⟩
    | cons b l =>
      -- the next part is read from where it is packed
      have hend : n a = (part a).current.nbits := hends a (mem_cons_self ..)
      obtain ⟨vs, hvs, hall⟩ := ih (fun c hc => hparts c (mem_cons_of_mem _ hc))
        (fun c hc => hends c (mem_cons_of_mem _ hc)) (fun c hc => hholds c (mem_cons_of_mem _ hc)) hgives.2
      refine ⟨v :: vs, ?_, .cons hagree hall⟩
      rw [hend, hvs, ← Nat.add_assoc]
      rfl

theorem Wire.Source.Gives.framed_eq {size : Nat} {target : Nat → Nat → Nat} {body : BitScan Value} {v : Value}
    (h : src.Gives i (headBits ext size)) (hsize : size < 65536)
    (hbody : body (i + (headBits ext size).length) = some (v, j)) :
    src.framed ext target body i = some (v, if ext then max j (target i size) else j) := by
  rw [length_headBits] at hbody
  rw [framed]
  cases ext with
  | false =>
    rw [if_neg Bool.false_ne_true, Nat.add_zero] at hbody
    rw [if_neg Bool.false_ne_true, if_neg Bool.false_ne_true, hbody]
  | true =>
    have hlimit : i + aheadBits ≤ src.limit := by
      have hroom := h.1
      rwa [length_headBits, if_pos rfl] at hroom
    have hnumber : src.number i aheadBits = size := Source.Gives.number_eq (n := 16) h hsize
    rw [if_pos rfl] at hbody
    rw [if_pos rfl, if_pos rfl, if_pos hlimit, hbody, hnumber]
    rfl

/-! ### Elements -/

/-- Whatever a type reads can be put where values of the type are. -/
theorem Ty.admits_of_scan {t : Ty} {v : Value} (h : t.scan title src i = some (v, j)) : t.Admits v := by
  cases t with
  | byte o =>
    rw [Ty.scan, Source.leaf] at h
    split at h
    · obtain ⟨rfl, -⟩ := Prod.mk.inj (Option.some.inj h)
      have hlt := src.number_lt i 8
      exact ⟨(src.number i 8 : Nat), rfl, Int.natCast_nonneg _, by exact_mod_cast hlt⟩
    · cases h
  | _ => trivial

/-- **An array that was read agrees with another one** if all elements do. -/
theorem agree_gather_iff {o : Origin} {w : Value} (hold : ∀ p ∈ ps, p.old = element)
    (hw : ∀ k (hk : k < ps.length), w.item? k = some (ps.get ⟨k, hk⟩).value)
    (hscan : scanAll (ps.map fun p => p.old.scan title src) i = some (vs, j)) :
    (Ty.array o element ps.length ext).Agree (element.gather vs) w
      ↔ List.Forall₂ (fun p v => p.old.Agree v p.value) ps vs := by
  have hread := List.forall₂_map_left_iff.1 (forall_of_scanAll hscan)
  have hlength := hread.length_eq
  have hitem (k : Nat) (hk : k < ps.length) (hk' : k < vs.length) :
      (element.gather vs).item? k = some (vs.get ⟨k, hk'⟩) := by
    obtain ⟨i', j', hv⟩ := hread.get hk hk'
    rw [hold _ (get_mem ..)] at hv
    exact Ty.item?_gather (Ty.admits_of_scan hv) (getElem?_eq_getElem hk')
  rw [List.forall₂_iff_get]
  constructor
  · intro hagree
    refine ⟨hlength, fun k hk hk' => ?_⟩
    obtain ⟨x, y, hx, hy, hxy⟩ := hagree k hk
    rw [hitem k hk hk'] at hx
    rw [hw k hk] at hy
    rw [hold _ (get_mem ..), Option.some.inj hx, Option.some.inj hy]
    exact hxy
  · rintro ⟨-, hall⟩ k hk
    have hk' : k < vs.length := hlength ▸ hk
    have hxy := hall k hk hk'
    rw [hold _ (get_mem ..)] at hxy
    exact ⟨_, _, hitem k hk hk', hw k hk, hxy⟩

theorem map_parts_eq_replicate {element' : Ty} (f : Ty → Ty → α) (h : ∀ p ∈ ps, p.types = (element, element')) :
    ps.map (fun p => f p.old p.current) = List.replicate ps.length (f element element') := by
  refine eq_replicate_iff.2 ⟨length_map _, fun a ha => ?_⟩
  obtain ⟨p, hp, rfl⟩ := mem_map.1 ha
  obtain ⟨hold, hcurrent⟩ := Prod.mk.inj (h p hp)
  rw [hold, hcurrent]

/-- **An array reads the first elements of another one**, all but the last of which end where they are packed. -/
theorem readsAs_array {o o' : Origin} {element' : Ty} {cap cap' n : Nat} (hcap' : cap' < 65536) (hle : cap ≤ cap')
    (ih : element.ReadsAs title element' n) (hends : 1 < cap → n = element'.nbits) :
    (Ty.array o element cap ext).ReadsAs title (.array o' element' cap' ext)
      (if ext then max (aheadBits + cap * n) (cap * cap') else cap * n) := by
  intro src i w hw hgives
  -- the elements that are read are the first ones
  have hfirst : List.range cap' = List.range cap ++ (List.range (cap' - cap)).map (cap + ·) := by
    rw [← range_add, Nat.add_sub_cancel' hle]
  rw [Ty.wireBits, Source.gives_append, hfirst, flatMap_append, Source.gives_append] at hgives
  obtain ⟨hhead, helements, -⟩ := hgives
  let ps : List Part := (List.range cap).map fun k => ⟨element, element', (w.item? k).getD (.int 0)⟩
  have hlength : ps.length = cap := by rw [length_map, length_range]
  have hitem (k : Nat) (hk : k < cap) : ∃ y, w.item? k = some y ∧ element'.Holds Leaf.Range y := hw.2 k (by omega)
  have htypes (p : Part) (hp : p ∈ ps) : p.types = (element, element') := by
    obtain ⟨k, -, rfl⟩ := mem_map.1 hp
    rfl
  have hholds (p : Part) (hp : p ∈ ps) : p.Holds := by
    obtain ⟨k, hk, rfl⟩ := mem_map.1 hp
    obtain ⟨y, hy, hholds⟩ := hitem k (mem_range.1 hk)
    show element'.Holds Leaf.Range ((w.item? k).getD (.int 0))
    rw [hy]
    exact hholds
  have hreads (p : Part) (hp : p ∈ ps) : p.old.ReadsAs title p.current n := by
    obtain ⟨hold, hcurrent⟩ := Prod.mk.inj (htypes p hp)
    rw [hold, hcurrent]
    exact ih
  have hlast (p : Part) (hp : p ∈ ps.dropLast) : n = p.current.nbits := by
    have hpos := length_pos_of_mem hp
    rw [length_dropLast, hlength] at hpos
    rw [(Prod.mk.inj (htypes p (dropLast_subset _ hp))).2]
    exact hends (by omega)
  obtain ⟨vs, hscan, hagree⟩ := scanAll_parts (fun p => p) (fun _ => n) hreads hlast hholds
    (show src.Gives (i + (headBits ext cap').length) (ps.flatMap Part.bits) by rw [flatMap_map]; exact helements)
  refine ⟨element.gather vs, ?_, ?_⟩
  · rw [map_const', map_parts_eq_replicate (fun t _ => t.scan title src) htypes, hlength,
      sum_replicate_nat] at hscan
    have hbody : scanMap element.gather (scanAll (List.replicate cap (element.scan title src)))
        (i + (headBits ext cap').length) = some (element.gather vs, i + (headBits ext cap').length + cap * n) := by
      rw [scanMap, hscan]
      rfl
    rw [Ty.scan, Source.Gives.framed_eq hhead hcap' hbody, length_headBits]
    cases ext with
    | false => rfl
    | true =>
      simp only [if_true, Option.some.injEq, Prod.mk.injEq, true_and]
      rw [Nat.mul_comm cap' cap, Nat.add_assoc, Nat.add_max_add_left]
  · have hvalue (k : Nat) (hk : k < ps.length) : w.item? k = some (ps.get ⟨k, hk⟩).value := by
      obtain ⟨y, hy, -⟩ := hitem k (hlength ▸ hk)
      simp [ps, hy]
    have hall : (Ty.array o element ps.length ext).Agree (element.gather vs) w :=
      (agree_gather_iff (fun p hp => (Prod.mk.inj (htypes p hp)).1) hvalue hscan).2 hagree
    rwa [hlength] at hall

/-! ### Fields that are read -/

theorem Wire.scanAll_scanMap {β γ : Type} (g : γ → α → β) (s : γ → BitScan α) (l : List γ) (i : Nat) :
    scanAll (l.map fun c => scanMap (g c) (s c)) i
      = (scanAll (l.map s) i).map fun r => (List.zipWith g l r.1, r.2) := by
  induction l generalizing i with
  | nil => rfl
  | cons c l ih =>
    rw [map_cons, map_cons, scanAll, scanAll, scanMap]
    cases s c i with
    | none => rfl
    | some a =>
      rw [Option.map_some, Option.bind_some, Option.bind_some, ih]
      cases scanAll (l.map s) a.2 <;> rfl

/-- **The record of values** for all fields of a message. -/
def recordOf (name : String) (ms : Members) (vs : List Value) : Value :=
  .record name (List.zipWith (fun f v => (f.slot, v)) (orderedFields ms) vs)

theorem slots_recordOf (hlength : vs.length = (orderedFields ms).length) :
    (List.zipWith (fun (f : Field) v => (f.slot, v)) (orderedFields ms) vs).map (·.1)
      = (orderedFields ms).map Field.slot := by
  rw [map_zipWith]
  exact ext_getElem (by simp [hlength]) (by simp)

theorem part?_recordOf (name : String) (hnumbered : Numbered ms) (hlength : vs.length = (orderedFields ms).length) :
    List.Forall₂ (fun f v => (recordOf name ms vs).part? f.number = some v) (orderedFields ms) vs := by
  refine List.forall₂_iff_zip.2 ⟨hlength.symm, fun {f v} hfv => ?_⟩
  refine part?_of_mem name (slots_recordOf hlength) hnumbered (mem_orderedFields.1 (of_mem_zip hfv).1) ?_
  rw [← map_uncurry_zip_eq_zipWith]
  exact mem_map.2 ⟨_, hfv, rfl⟩

/-- **A record that was read agrees with another one** if all fields do. -/
theorem agree_recordOf_iff {h : Header} (name : String) {w : Value} (hnumbered : Numbered ms)
    (hlength : vs.length = (orderedFields ms).length)
    (hps : List.Forall₂ (fun f p => p.old = f.ty ∧ w.part? f.number = some p.value) (orderedFields ms) ps) :
    (Def.message h ext ms).Agree (recordOf name ms vs) w ↔ List.Forall₂ (fun p v => p.old.Agree v p.value) ps vs := by
  have hparts := part?_recordOf name hnumbered hlength
  show fieldsAgree ms _ w ↔ _
  rw [fieldsAgree_iff, List.forall₂_iff_get]
  constructor
  · intro hagree
    refine ⟨hps.length_eq.symm.trans hlength.symm, fun k hk hk' => ?_⟩
    have hk₀ : k < (orderedFields ms).length := hlength ▸ hk'
    obtain ⟨hold, hvalue⟩ := hps.get hk₀ hk
    obtain ⟨x, y, hx, hy, hxy⟩ := hagree _ (mem_orderedFields.1 (get_mem _ ⟨k, hk₀⟩))
    rw [hparts.get hk₀ hk'] at hx
    rw [hvalue] at hy
    rw [hold, Option.some.inj hx, Option.some.inj hy]
    exact hxy
  · rintro ⟨hlength', hall⟩ f hf
    obtain ⟨⟨k, hk⟩, rfl⟩ := get_of_mem (mem_orderedFields.2 hf)
    have hk₁ : k < ps.length := hps.length_eq ▸ hk
    have hk₂ : k < vs.length := hlength.symm ▸ hk
    obtain ⟨hold, hvalue⟩ := hps.get hk hk₁
    have hxy := hall k hk₁ hk₂
    rw [hold] at hxy
    exact ⟨_, _, hparts.get hk hk₂, hvalue, hxy⟩

/-- **A message is read** as the record of what its fields read. -/
theorem scan_message_eq (h : Header) (ext : Bool) (ms : Members) (i : Nat) :
    (Def.message h ext ms).scan title src i = src.framed ext (fun start ahead => start + ahead)
      (scanMap (recordOf (title (.message h ext ms)) ms)
        (scanAll ((orderedFields ms).map fun f => f.ty.scan title src))) i := by
  have hbody : scanMap (.record (title (.message h ext ms))) (scanAll ((orderedFields ms).map fun f => f.scan title src))
      = scanMap (recordOf (title (.message h ext ms)) ms)
        (scanAll ((orderedFields ms).map fun f => f.ty.scan title src)) := by
    funext i
    have hall := scanAll_scanMap (fun (f : Field) v => (f.slot, v)) (fun f => f.ty.scan title src) (orderedFields ms) i
    show Option.map _ (scanAll ((orderedFields ms).map fun f => scanMap (f.slot, ·) (f.ty.scan title src)) i) = _
    rw [hall, Option.map_map]
    rfl
  rw [scan_message, hbody]

/-- **A message reads the first fields of another one**, all but the last of which end where they are packed. -/
theorem readsAs_message {h h' : Header} {ms' : Members} {ps : List (Field × Field)} {post : List Field}
    (n : Field × Field → Nat) (hwf' : (Def.message h' ext ms').WellFormed) (hnumbered : Numbered ms)
    (hfst : ps.map (·.1) = orderedFields ms) (hsnd : orderedFields ms' = ps.map (·.2) ++ post)
    (hnumber : ∀ p ∈ ps, p.1.number = p.2.number) (ih : ∀ p ∈ ps, p.1.ty.ReadsAs title p.2.ty (n p))
    (hends : ∀ p ∈ ps.dropLast, n p = p.2.ty.nbits) :
    (Ty.named (.message h ext ms)).ReadsAs title (.named (.message h' ext ms'))
      (if ext then max (aheadBits + (ps.map n).sum) (Def.message h' ext ms').nbits else (ps.map n).sum) := by
  intro src i w hw hgives
  obtain ⟨-, hvalues⟩ := holds_message.1 hw
  rw [Ty.wireBits, wireBits_message, hsnd, flatMap_append, Source.gives_append, Source.gives_append] at hgives
  obtain ⟨hhead, hfields, -⟩ := hgives
  let part (p : Field × Field) : Part := ⟨p.1.ty, p.2.ty, (w.part? p.2.number).getD (.int 0)⟩
  have hvalue (p : Field × Field) (hp : p ∈ ps) : w.part? p.2.number = some (part p).value ∧ (part p).Holds := by
    have hmem : p.2 ∈ fieldsOf ms' := by
      rw [← mem_orderedFields, hsnd]
      exact mem_append_left _ (mem_map_of_mem hp)
    obtain ⟨y, hy, hholds⟩ := hvalues p.2 hmem
    show _ = some ((w.part? p.2.number).getD (.int 0)) ∧ p.2.ty.Holds Leaf.Range ((w.part? p.2.number).getD (.int 0))
    rw [hy]
    exact ⟨rfl, hholds⟩
  -- the parts go forward as their fields do
  obtain ⟨vs, hscan, hagree⟩ : ∃ vs, scanAll ((orderedFields ms).map fun f => f.ty.scan title src)
      (i + (headBits ext (Def.message h' ext ms').nbits).length)
      = some (vs, i + (headBits ext (Def.message h' ext ms').nbits).length + (ps.map n).sum) ∧
      List.Forall₂ (fun p v => p.1.ty.Agree v (part p).value) ps vs := by
    rw [flatMap_map] at hfields
    rw [← hfst, map_map]
    exact scanAll_parts part n ih hends (fun p hp => (hvalue p hp).2) hfields
  have hlength : vs.length = (orderedFields ms).length := by
    rw [← hagree.length_eq, ← hfst, length_map]
  refine ⟨recordOf (title (.message h ext ms)) ms vs, ?_, ?_⟩
  · have hbody : scanMap (recordOf (title (.message h ext ms)) ms)
        (scanAll ((orderedFields ms).map fun f => f.ty.scan title src))
        (i + (headBits ext (Def.message h' ext ms').nbits).length)
        = some (recordOf (title (.message h ext ms)) ms vs,
          i + (headBits ext (Def.message h' ext ms').nbits).length + (ps.map n).sum) := congrArg _ hscan
    rw [Ty.scan, scan_message_eq, Source.Gives.framed_eq hhead (Nat.lt_succ_of_le hwf'.nbits_le) hbody, length_headBits]
    cases ext with
    | false => rfl
    | true =>
      simp only [if_true]
      rw [Nat.add_assoc, Nat.add_max_add_left]
  · have hparts : List.Forall₂ (fun p v => p.old.Agree v p.value) (ps.map part) vs := List.forall₂_map_left_iff.2 hagree
    refine (agree_recordOf_iff _ hnumbered hlength ?_).2 hparts
    rw [← hfst, List.forall₂_map_left_iff, List.forall₂_map_right_iff, List.forall₂_same]
    intro p hp
    refine ⟨rfl, ?_⟩
    rw [hnumber p hp]
    exact (hvalue p hp).1

/-! ### Leaves -/

/-- **A leaf reads a leaf of its kind.** -/
theorem Ty.LeafOf.readsAs {t u : Ty} {kind : Leaf} {width : Nat} (ht : t.LeafOf kind width) (hu : u.LeafOf kind width) :
    t.ReadsAs title u u.nbits := by
  intro src i w hw hgives
  obtain ⟨d, hd, hrange⟩ := (hu.holds_iff _ _).1 hw
  rw [hu.wireBits_eq, Value.lowBits, hd, Option.getD_some] at hgives
  refine ⟨kind.hold d, ?_, (ht.agree_iff _ _).2 ⟨d, Leaf.asInt?_hold hrange, hd⟩⟩
  rw [hu.nbits_eq, Ty.scan_leaf _ _ ht.leaf_eq, hgives.leaf_eq ht.suits hrange]

end

/-! ### Buffers -/

theorem Def.WellFormed.gives_packed {h : Header} {ext : Bool} {ms : Members} {bytes : Array UInt8} {w : Value}
    (hwf : (Def.message h ext ms).WellFormed) (hsize : bytes.size = ((Def.message h ext ms).nbits + 7) / 8)
    (hbits : ∀ k, bitAt bytes k = ((Def.message h ext ms).wireBits w)[k]?.getD false) :
    (Source.ofBytes bytes).Gives 0 ((Def.message h ext ms).wireBits w) := by
  have hle := hwf.nbits_le
  refine Source.gives_ofBytes ?_ ?_ fun k _ => hbits k
  all_goals
    rw [Def.length_wireBits]
    omega

end BitSchema
