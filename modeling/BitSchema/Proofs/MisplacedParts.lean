import BitSchema.Proofs.WiderArrays

/-!
# Parts that are read from elsewhere

If a part of a message with wider arrays does not end where it should, what follows it is read from elsewhere.  Then
there are objects that are not read right (`Ty.WellFormed.misses`).  The first leaf that is read from elsewhere gives
one: some bit from which it is read is not one of its own, and the leaf can be chosen to have the opposite in all its
bits.

For this the bits around a part are kept in mind (`Source.Around`), for the leaf may be read from any of them.  Arrays
and messages are both made of parts that stand one after the other (`Ty.Composed`), and everything is said of such
parts.  Every message must have a field (`Ty.Filled`); otherwise there need not be a leaf that is read from elsewhere.
-/

namespace BitSchema

open Wire Loading Wire.Run List

/-! ### Bits around a part -/

variable {ext : Bool}

namespace Wire

/-- Bits with others in their place from bit `i` on. -/
def overlay (around : Nat → Bool) (i : Nat) (bits : List Bool) (k : Nat) : Bool :=
  if i ≤ k ∧ k < i + bits.length then bits[k - i]?.getD false else around k

namespace Source

/-- **What stands around** the `n` bits from bit `i` on. -/
def Around (src : Source) (around : Nat → Bool) (i n : Nat) : Prop :=
  ∀ k, k < i ∨ i + n ≤ k → src.bit k = around k

variable {src : Source} {around : Nat → Bool} {i : Nat} {xs ys : List Bool}

theorem Gives.bit_eq (h : src.Gives i xs) {k : Nat} (hi : i ≤ k) (hk : k < i + xs.length) :
    src.bit k = xs[k - i]?.getD false := by
  have hbit := h.2 (k - i) (by omega)
  rwa [Nat.add_sub_cancel' hi] at hbit

theorem around_left (hgives : src.Gives i (xs ++ ys)) (h : src.Around around i (xs ++ ys).length) :
    src.Around (overlay around (i + xs.length) ys) i xs.length := by
  intro k hk
  rw [length_append] at h
  rw [overlay]
  split
  · next hin => exact (gives_append.1 hgives).2.bit_eq hin.1 hin.2
  · exact h k (by omega)

theorem around_right (hgives : src.Gives i (xs ++ ys)) (h : src.Around around i (xs ++ ys).length) :
    src.Around (overlay around i xs) (i + xs.length) ys.length := by
  intro k hk
  rw [length_append] at h
  rw [overlay]
  split
  · next hin => exact (gives_append.1 hgives).1.bit_eq hin.1 hin.2
  · exact h k (by omega)

theorem around_middle {bits : List Bool} (hgives : src.Gives i (xs ++ bits ++ ys))
    (h : src.Around around i (xs ++ bits ++ ys).length) :
    src.Around (overlay (overlay around (i + xs.length + bits.length) ys) i xs) (i + xs.length) bits.length := by
  have hmiddle := around_right (gives_append.1 hgives).1 (around_left hgives h)
  rwa [length_append, ← Nat.add_assoc] at hmiddle

end Source

theorem Source.body_of_framed {src : Source} {target : Nat → Nat → Nat} {body : BitScan Value} {i j : Nat}
    {v : Value} (n : Int) (h : src.framed ext target body i = some (v, j)) :
    ∃ j', body (i + (headBits ext n).length) = some (v, j') := by
  rw [length_headBits]
  rcases framed_eq_some h with ⟨rfl, hbody⟩ | ⟨rfl, -, k, hbody, -⟩
  · exact ⟨j, hbody⟩
  · exact ⟨k, hbody⟩

end Wire

/-! ### Messages with fields -/

mutual

/-- **Types inside which every message has a field.** -/
def Ty.Filled : Ty → Prop
  | .array _ element _ _ => element.Filled
  | .named d => d.Filled
  | _ => True

/-- Defined types inside which every message has a field. -/
def Def.Filled : Def → Prop
  | .typeAlias _ target => target.Filled
  | .message _ _ ms => fieldsOf ms ≠ [] ∧ fieldsFilled ms
  | _ => True

/-- Inside all fields among members every message has a field. -/
def fieldsFilled : List (String × Def) → Prop
  | [] => True
  | (_, d) :: r => d.FieldFilled ∧ fieldsFilled r

def Def.FieldFilled : Def → Prop
  | .field _ ty _ => ty.Filled
  | _ => True

end

theorem fieldsFilled_iff {ms : Members} : fieldsFilled ms ↔ ∀ f ∈ fieldsOf ms, f.ty.Filled :=
  forall_fieldsOf_iff trivial (fun _ _ _ => .rfl) (fun d => by cases d <;> simp [Def.FieldFilled, Def.field?]) ms

/-! ### Values that are made of parts -/

/-- A part that may stand anywhere: its value is one of its type, and can be put where values of the type are. -/
structure Part.Sound (p : Part) : Prop where
  holds : p.Holds
  admits : p.current.Admits p.value

/-- **Types whose values are made of parts**: between some bits stand those of the parts, one after the other, and
whatever is read and agrees with the value agrees with it in every part. -/
def Ty.Composed (title : Def → String) (t u : Ty) (ts : List (Ty × Ty)) (head tail : List Bool) : Prop :=
  ∀ ps : List Part, ps.map Part.types = ts → (∀ p ∈ ps, p.Sound) →
    ∃ w, u.Holds Leaf.Range w ∧ u.Admits w ∧ u.wireBits w = head ++ ps.flatMap Part.bits ++ tail ∧
      ∀ src i v j, t.scan title src i = some (v, j) → t.Agree v w →
        ∃ vs j', scanAll (ps.map fun p => p.old.scan title src) (i + head.length) = some (vs, j') ∧
          List.Forall₂ (fun p v => p.old.Agree v p.value) ps vs

section

variable {title : Def → String}

/-- **Wider arrays are made of their elements.** -/
theorem composed_array {o o' : Origin} {element element' : Ty} {cap cap' : Nat} {e : Value} (hle : cap ≤ cap')
    (he : element'.Holds Leaf.Range e) (hadmits : element'.Admits e) :
    (Ty.array o element cap ext).Composed title (.array o' element' cap' ext) (List.replicate cap (element, element'))
      (headBits ext cap') ((List.replicate (cap' - cap) e).flatMap element'.wireBits) := by
  intro ps hps hsound
  have htypes (p : Part) (hp : p ∈ ps) : p.types = (element, element') :=
    eq_of_mem_replicate (hps ▸ mem_map_of_mem hp)
  have hlength : ps.length = cap := by rw [← length_map Part.types, hps, length_replicate]
  -- behind the parts stand as many elements as there are more
  let ws := ps.map Part.value ++ List.replicate (cap' - cap) e
  have hws : ws.length = cap' := by
    rw [length_append, length_map, length_replicate, hlength, Nat.add_sub_cancel' hle]
  have hvalues (x : Value) (hx : x ∈ ws) : element'.Holds Leaf.Range x ∧ element'.Admits x := by
    rcases mem_append.1 hx with hx | hx
    · obtain ⟨p, hp, rfl⟩ := mem_map.1 hx
      have hcurrent : p.current = element' := (Prod.mk.inj (htypes p hp)).2
      exact hcurrent ▸ ⟨(hsound p hp).holds, (hsound p hp).admits⟩
    · rw [eq_of_mem_replicate hx]
      exact ⟨he, hadmits⟩
  have hitem (k : Nat) (hk : k < ws.length) : (element'.gather ws).item? k = some (ws.get ⟨k, hk⟩) :=
    Ty.item?_gather (hvalues _ (get_mem ..)).2 (getElem?_eq_getElem hk)
  refine ⟨element'.gather ws, ⟨?_, fun k hk => ?_⟩, trivial, ?_, fun src i v j hscan hagree => ?_⟩
  · rw [Ty.size_gather, hws]
  · exact ⟨_, hitem k (hws ▸ hk), (hvalues _ (get_mem ..)).1⟩
  · have hbits : ps.flatMap Part.bits = (ps.map Part.value).flatMap element'.wireBits := by
      rw [flatMap_map]
      refine flatMap_congr fun p hp => ?_
      rw [Part.bits, (Prod.mk.inj (htypes p hp)).2]
    have hwire := Ty.wireBits_gather (o := o') fun x hx => (hvalues x hx).2
    rw [Ty.wireBits, if_neg Bool.false_ne_true, nil_append, hws, flatMap_append, ← hbits] at hwire
    rw [Ty.wireBits, hwire, append_assoc]
    rfl
  · rw [Ty.scan] at hscan
    obtain ⟨j', hbody⟩ := Source.body_of_framed cap' hscan
    obtain ⟨vs, hall, rfl⟩ := scanMap_eq_some hbody
    have hscans := map_parts_eq_replicate (fun t _ => t.scan title src) htypes
    rw [← hlength] at hall hagree
    rw [← hscans] at hall
    refine ⟨vs, j', hall, (agree_gather_iff (fun p hp => (Prod.mk.inj (htypes p hp)).1) (fun k hk => ?_) hall).1 hagree⟩
    rw [hitem k (by omega)]
    simp [ws, getElem_append_left, hk]

/-- **Messages with wider arrays are made of their fields.** -/
theorem composed_message {h h' : Header} {ms ms' : Members} (hpairs : PairsFields ms ms') :
    (Ty.named (.message h ext ms)).Composed title (.named (.message h' ext ms'))
      ((fieldPairs ms ms').map fun p => (p.1.ty, p.2.ty)) (headBits ext (Def.message h' ext ms').nbits) [] := by
  intro ps hps hsound
  have hlength : ps.length = (fieldPairs ms ms').length := by
    rw [← length_map Part.types, hps, length_map]
  have hlength' : (ps.map Part.value).length = (orderedFields ms').length := by
    rw [length_map, hlength, ← hpairs.snd_eq, length_map]
  have hparts := List.forall₂_map_right_iff.1 (part?_recordOf "" hpairs.numbered' hlength')
  rw [← hpairs.snd_eq, List.forall₂_map_left_iff] at hparts
  have htypes : List.Forall₂ (fun p (q : Field × Field) => p.types = (q.1.ty, q.2.ty)) ps (fieldPairs ms ms') := by
    rw [← List.forall₂_map_right_iff (f := fun q : Field × Field => (q.1.ty, q.2.ty)), ← List.forall₂_map_left_iff, hps]
    exact List.forall₂_refl _
  set w := recordOf "" ms' (ps.map Part.value)
  -- the fields and what stands for them
  have hall : List.Forall₂ (fun (q : Field × Field) p => q ∈ fieldPairs ms ms' ∧ p.Sound ∧ p.old = q.1.ty ∧
      p.current = q.2.ty ∧ w.part? q.2.number = some p.value) (fieldPairs ms ms') ps := by
    refine List.forall₂_iff_zip.2 ⟨hlength.symm, fun {q p} hqp => ?_⟩
    obtain ⟨hq, hp⟩ := of_mem_zip hqp
    obtain ⟨hold, hcurrent⟩ := Prod.mk.inj ((List.forall₂_iff_zip.1 htypes.flip).2 hqp)
    exact ⟨hq, hsound p hp, hold, hcurrent, (List.forall₂_iff_zip.1 hparts).2 hqp⟩
  refine ⟨w, holds_message.2 ⟨isRecordOf_of_slots _ (slots_recordOf hlength'), fun g hg => ?_⟩, trivial, ?_,
    fun src i v j hscan hagree => ?_⟩
  · rw [← mem_orderedFields, ← hpairs.snd_eq] at hg
    obtain ⟨q, hq, rfl⟩ := mem_map.1 hg
    obtain ⟨k, hk, rfl⟩ := getElem_of_mem hq
    obtain ⟨-, hp, -, hcurrent, hvalue⟩ := hall.get hk (hlength ▸ hk)
    exact ⟨_, hvalue, hcurrent ▸ hp.holds⟩
  · have hbits : (fieldPairs ms ms').flatMap (fun q => q.2.wireBits w) = ps.flatMap Part.bits := by
      have hpieces := flatMap_of_forall₂ (g := fun q : Field × Field => q.2.wireBits w)
        (List.forall₂_map_right_iff.2 (hall.imp fun q p hp => ?_) :
          List.Forall₂ _ (fieldPairs ms ms') (ps.map fun p => (p, p.bits)))
      · rwa [flatMap_map] at hpieces
      · obtain ⟨-, -, -, hcurrent, hvalue⟩ := hp
        rw [Field.wireBits, hvalue, Option.getD_some, ← hcurrent]
        rfl
    rw [Ty.wireBits, wireBits_message, ← hpairs.snd_eq, flatMap_map, hbits, append_nil]
    rfl
  · rw [Ty.scan, scan_message_eq] at hscan
    obtain ⟨j', hbody⟩ := Source.body_of_framed (Def.message h' ext ms').nbits hscan
    obtain ⟨vs, hscans, rfl⟩ := scanMap_eq_some hbody
    have hread : (ps.map fun p => p.old.scan title src) = (orderedFields ms).map fun f => f.ty.scan title src := by
      have htypes := congrArg (List.map fun t : Ty × Ty => t.1.scan title src) hps
      rw [map_map, map_map] at htypes
      rw [← hpairs.fst_eq, map_map]
      exact htypes
    rw [← hread] at hscans
    have hlength'' : vs.length = (orderedFields ms).length := by
      rw [← (forall_of_scanAll hscans).length_eq, hread, length_map]
    refine ⟨vs, j', hscans, (agree_recordOf_iff _ hpairs.numbered hlength'' ?_).1 hagree⟩
    rw [← hpairs.fst_eq, List.forall₂_map_left_iff]
    refine hall.imp fun q p hp => ?_
    obtain ⟨hq, -, hold, -, hvalue⟩ := hp
    exact ⟨hold, (hpairs.pair q hq).2.1 ▸ hvalue⟩

end

/-! ### Leading leaves -/

/-- **The first leaf of a value**, with what stands before and after it: it can have any bits, and whatever is read and
agrees with the value was read from where these bits are. -/
structure Ty.Leads (title : Def → String) (t u : Ty) (pre post : List Bool) (width : Nat) : Prop where
  pos : 0 < width
  exists_value : ∀ bits : List Bool, bits.length = width →
    ∃ w, u.Holds Leaf.Range w ∧ u.Admits w ∧ u.wireBits w = pre ++ bits ++ post ∧
      ∀ src i v j, t.scan title src i = some (v, j) → t.Agree v w →
        ∀ k < width, src.bit (i + pre.length + k) = bits[k]?.getD false

def Ty.HasLead (title : Def → String) (t u : Ty) : Prop := ∃ pre post width, t.Leads title u pre post width

section

variable {title : Def → String}
variable {t u : Ty} {ts : List (Ty × Ty)} {kind : Leaf} {width : Nat} {p : Part}

theorem Ty.HasLead.exists_sound (h : t.HasLead title u) : ∃ w, Part.Sound ⟨t, u, w⟩ := by
  obtain ⟨pre, post, width, hlead⟩ := h
  obtain ⟨w, hw, hadmits, -⟩ := hlead.exists_value (List.replicate width false) length_replicate
  exact ⟨w, hw, hadmits⟩

theorem exists_parts (h : ∀ t ∈ ts, t.1.HasLead title t.2) :
    ∃ ps : List Part, ps.map Part.types = ts ∧ ∀ p ∈ ps, p.Sound := by
  induction ts with
  | nil => exact ⟨[], rfl, fun p hp => absurd hp not_mem_nil⟩
  | cons t ts ih =>
    obtain ⟨w, hw⟩ := (h t (mem_cons_self ..)).exists_sound
    obtain ⟨ps, rfl, hps⟩ := ih fun t' ht' => h t' (mem_cons_of_mem _ ht')
    exact ⟨⟨t.1, t.2, w⟩ :: ps, rfl, forall_mem_cons.2 ⟨hw, hps⟩⟩

theorem Ty.LeafOf.leads (ht : t.LeafOf kind width) (hu : u.LeafOf kind width) (hpos : 0 < width) :
    t.Leads title u [] [] width := by
  refine ⟨hpos, fun bits hbits => ?_⟩
  obtain ⟨d, hd, rfl⟩ := Leaf.exists_intBits_eq ht.suits hbits
  have hint := Leaf.asInt?_hold hd
  refine ⟨kind.hold d, (hu.holds_iff _ _).2 ⟨d, hint, hd⟩, hu.admits_hold hd, ?_, fun src i v j hscan hagree k hk => ?_⟩
  · rw [hu.wireBits_eq, Value.lowBits, hint, Option.getD_some, nil_append, append_nil]
  · rw [Ty.scan_leaf title src ht.leaf_eq, Source.leaf] at hscan
    split at hscan
    · obtain ⟨rfl, -⟩ := Prod.mk.inj (Option.some.inj hscan)
      have hlt := src.number_lt i width
      -- what was read is the number that was packed
      obtain ⟨n, hn, hn'⟩ := (ht.agree_iff _ _).1 hagree
      rw [Leaf.asInt?_hold (Leaf.range_ofNumber ht.suits hlt)] at hn
      rw [hint] at hn'
      rw [getElem?_intBits, Nat.zero_add, Option.some.inj (hn'.trans hn.symm),
        Leaf.testBit_ofNumber ht.suits hlt hk, Source.testBit_number]
      simp [hk]
    · cases hscan

/-- **The first leaf of the first part leads.** -/
theorem Ty.Composed.hasLead {head tail : List Bool} (h : t.Composed title u ts head tail) (hne : ts ≠ [])
    (hts : ∀ t ∈ ts, t.1.HasLead title t.2) : t.HasLead title u := by
  cases ts with
  | nil => exact absurd rfl hne
  | cons t₁ ts =>
    obtain ⟨pre, post, width, hlead⟩ := hts t₁ (mem_cons_self ..)
    obtain ⟨ps, rfl, hsound⟩ := exists_parts fun t' ht' => hts t' (mem_cons_of_mem _ ht')
    refine ⟨head ++ pre, post ++ (ps.flatMap Part.bits ++ tail), width, hlead.pos, fun bits hbits => ?_⟩
    obtain ⟨w₁, hw₁, hadmits₁, hwire₁, hread₁⟩ := hlead.exists_value bits hbits
    obtain ⟨w, hw, hadmits, hwire, hread⟩ := h (⟨t₁.1, t₁.2, w₁⟩ :: ps) rfl
      (forall_mem_cons.2 ⟨⟨hw₁, hadmits₁⟩, hsound⟩)
    refine ⟨w, hw, hadmits, ?_, fun src i v j hscan hagree k hk => ?_⟩
    · rw [hwire, flatMap_cons, Part.bits, hwire₁]
      simp only [append_assoc]
    · obtain ⟨vs, j', hscans, hall⟩ := hread src i v j hscan hagree
      obtain ⟨v₁, k₁, rest, hv₁, -, rfl⟩ := scanAll_cons_eq_some hscans
      rw [length_append, ← Nat.add_assoc]
      exact hread₁ src _ v₁ k₁ hv₁ (List.forall₂_cons.1 hall).1 k hk

/-! ### Parts that are misread -/

/-- **Parts that are not all read right** if what stands around them is as given. -/
def Misread (title : Def → String) (around : Nat → Bool) (i : Nat) (ps : List Part) : Prop :=
  ∀ src : Source, src.Gives i (ps.flatMap Part.bits) → src.Around around i (ps.flatMap Part.bits).length →
    ∀ vs j, scanAll (ps.map fun p => p.old.scan title src) i = some (vs, j) →
      ¬List.Forall₂ (fun p v => p.old.Agree v p.value) ps vs

/-- **Types that do not read all values of another one right**, whatever stands around. -/
def Ty.Misses (title : Def → String) (t u : Ty) : Prop :=
  ∀ around i, ∃ w, Part.Sound ⟨t, u, w⟩ ∧
    ∀ src : Source, src.Gives i (u.wireBits w) → src.Around around i u.nbits →
      ∀ v j, t.scan title src i = some (v, j) → ¬t.Agree v w

theorem misread_head {around : Nat → Bool} {i : Nat} {ps : List Part}
    (h : ∀ src : Source, src.Gives i p.bits →
      src.Around (overlay around (i + p.current.nbits) (ps.flatMap Part.bits)) i p.current.nbits →
        ∀ v j, p.old.scan title src i = some (v, j) → ¬p.old.Agree v p.value) :
    Misread title around i (p :: ps) := by
  intro src hgives haround vs j hscan hall
  rw [flatMap_cons] at hgives haround
  obtain ⟨v, k, rest, hv, -, rfl⟩ := scanAll_cons_eq_some hscan
  have hleft := Source.around_left hgives haround
  rw [Part.length_bits] at hleft
  exact h src (Source.gives_append.1 hgives).1 hleft v k hv (List.forall₂_cons.1 hall).1

theorem misread_tail {around : Nat → Bool} {i : Nat} {ps : List Part} (hp : p.Sound)
    (hreads : p.old.ReadsAs title p.current (p.old.reach p.current))
    (hend : p.old.reach p.current = p.current.nbits)
    (h : Misread title (overlay around i p.bits) (i + p.current.nbits) ps) : Misread title around i (p :: ps) := by
  intro src hgives haround vs j hscan hall
  rw [flatMap_cons] at hgives haround
  obtain ⟨v, k, rest, hv, hrest, rfl⟩ := scanAll_cons_eq_some hscan
  have hright := Source.around_right hgives haround
  rw [Source.gives_append] at hgives
  obtain ⟨v', hv', -⟩ := hreads src i p.value hp.holds hgives.1
  obtain ⟨-, rfl⟩ := Prod.mk.inj (Option.some.inj (hv.symm.trans hv'))
  rw [Part.length_bits] at hright hgives
  rw [hend] at hrest
  exact h src hgives.2 hright rest j hrest (List.forall₂_cons.1 hall).2

/-- **The part after one that does not end where it should is misread**: its first leaf is read from a bit that is not
one of its own. -/
theorem exists_misread_next (around : Nat → Bool) (i : Nat) {t : Ty × Ty} (ps : List Part) (hp : p.Sound)
    (hreads : p.old.ReadsAs title p.current (p.old.reach p.current))
    (hend : p.old.reach p.current ≠ p.current.nbits) (ht : t.1.HasLead title t.2) :
    ∃ w, Part.Sound ⟨t.1, t.2, w⟩ ∧ Misread title around i (p :: ⟨t.1, t.2, w⟩ :: ps) := by
  obtain ⟨pre, post, width, hlead⟩ := ht
  have hpos := hlead.pos
  -- what stands around the first leaf, and the bit that is read in its place
  let others := overlay (overlay around (i + (p.current.nbits + pre.length) + width) (post ++ ps.flatMap Part.bits)) i
    (p.bits ++ pre)
  let off := if p.current.nbits < p.old.reach p.current then width - 1 else 0
  let wrong := others (i + p.old.reach p.current + pre.length + off)
  obtain ⟨w, hw, hadmits, hwire, hread⟩ := hlead.exists_value (List.replicate width !wrong) length_replicate
  refine ⟨w, ⟨hw, hadmits⟩, fun src hgives haround vs j hscan hall => ?_⟩
  have hbits : (p :: ⟨t.1, t.2, w⟩ :: ps).flatMap Part.bits
      = (p.bits ++ pre) ++ List.replicate width (!wrong) ++ (post ++ ps.flatMap Part.bits) := by
    rw [flatMap_cons, flatMap_cons, Part.bits.eq_1 ⟨t.1, t.2, w⟩, hwire]
    simp only [append_assoc]
  rw [hbits] at hgives haround
  have hothers := Source.around_middle hgives haround
  rw [length_replicate, length_append, Part.length_bits] at hothers
  have hgives₁ := (Source.gives_append.1 (Source.gives_append.1 (Source.gives_append.1 hgives).1).1).1
  obtain ⟨v, k, rest, hv, hrest, rfl⟩ := scanAll_cons_eq_some hscan
  obtain ⟨v', hv', -⟩ := hreads src i p.value hp.holds hgives₁
  obtain ⟨-, rfl⟩ := Prod.mk.inj (Option.some.inj (hv.symm.trans hv'))
  obtain ⟨v₁, k₁, rest₁, hv₁, -, rfl⟩ := scanAll_cons_eq_some hrest
  have hagree : t.1.Agree v₁ w := (List.forall₂_cons.1 (List.forall₂_cons.1 hall).2).1
  -- the wrong bit is outside of the leaf, at its last bit or at its first one
  have hoff : off < width ∧ (i + p.old.reach p.current + pre.length + off < i + (p.current.nbits + pre.length) ∨
      i + (p.current.nbits + pre.length) + width ≤ i + p.old.reach p.current + pre.length + off) := by
    simp only [off]
    split <;> omega
  have hbit := hread src _ v₁ k₁ hv₁ hagree off hoff.1
  rw [hothers _ hoff.2, getElem?_replicate_of_lt hoff.1, Option.getD_some] at hbit
  exact Bool.eq_not.1 hbit rfl

/-- Where all parts are in place, with one before them that ends where it should. -/
theorem AllInPlace.cons {t : Ty × Ty} (ht : t.1.InPlace t.2) (hts : AllInPlace ts)
    (hend : ts ≠ [] → t.1.reach t.2 = t.2.nbits) : AllInPlace (t :: ts) := by
  refine ⟨forall_mem_cons.2 ⟨ht, hts.inPlace⟩, ?_⟩
  cases ts with
  | nil => exact fun p hp => absurd hp not_mem_nil
  | cons t' ts => exact forall_mem_cons.2 ⟨hend (cons_ne_nil _ _), hts.ends⟩

/-- **Parts that are not all in place can be misread.** -/
theorem exists_misread (hleads : ∀ t ∈ ts, t.1.HasLead title t.2)
    (hreads : ∀ t ∈ ts, t.1.InPlace t.2 → t.1.ReadsAs title t.2 (t.1.reach t.2))
    (hmisses : ∀ t ∈ ts, ¬t.1.InPlace t.2 → t.1.Misses title t.2) (hplace : ¬AllInPlace ts) (around : Nat → Bool)
    (i : Nat) :
    ∃ ps : List Part, ps.map Part.types = ts ∧ (∀ p ∈ ps, p.Sound) ∧ Misread title around i ps := by
  induction ts generalizing around i with
  | nil => exact absurd ⟨fun p hp => absurd hp not_mem_nil, fun p hp => absurd hp not_mem_nil⟩ hplace
  | cons t ts ih =>
    obtain ⟨hlead, hleads⟩ := forall_mem_cons.1 hleads
    obtain ⟨hread, hreads⟩ := forall_mem_cons.1 hreads
    obtain ⟨hmiss, hmisses⟩ := forall_mem_cons.1 hmisses
    by_cases ht : t.1.InPlace t.2
    · obtain ⟨w, hw⟩ := hlead.exists_sound
      by_cases hend : t.1.reach t.2 = t.2.nbits
      -- a part that is as it should be
      · obtain ⟨ps, rfl, hps, hmisread⟩ := ih hleads hreads hmisses (fun hts => hplace (hts.cons ht fun _ => hend))
          (overlay around i (t.2.wireBits w)) (i + t.2.nbits)
        exact ⟨⟨t.1, t.2, w⟩ :: ps, rfl, forall_mem_cons.2 ⟨hw, hps⟩, misread_tail hw (hread ht) hend hmisread⟩
      -- a part after which another one is misread
      · cases ts with
        | nil => exact absurd (AllInPlace.cons ht ⟨by simp, by simp⟩ fun h => absurd rfl h) hplace
        | cons t' ts =>
          obtain ⟨hlead', hleads⟩ := forall_mem_cons.1 hleads
          obtain ⟨ps, rfl, hps⟩ := exists_parts hleads
          obtain ⟨w', hw', hmisread⟩ := exists_misread_next around i ps hw (hread ht) hend hlead'
          exact ⟨_ :: _ :: ps, rfl, forall_mem_cons.2 ⟨hw, forall_mem_cons.2 ⟨hw', hps⟩⟩, hmisread⟩
    -- a part that is misread itself
    · obtain ⟨ps, rfl, hps⟩ := exists_parts hleads
      obtain ⟨w, hw, hmisread⟩ := hmiss ht (overlay around (i + t.2.nbits) (ps.flatMap Part.bits)) i
      exact ⟨⟨t.1, t.2, w⟩ :: ps, rfl, forall_mem_cons.2 ⟨hw, hps⟩, misread_head hmisread⟩

theorem length_flatMap_bits (ps : List Part) :
    (ps.flatMap Part.bits).length = ((ps.map Part.types).map fun t => t.2.nbits).sum := by
  rw [length_flatMap, map_map]
  congr 1
  exact map_congr_left fun p _ => p.length_bits

/-- **What is made of parts is not always read right** if the parts are not. -/
theorem Ty.Composed.misses {head tail : List Bool} (h : t.Composed title u ts head tail)
    (hmisread : ∀ around i, ∃ ps : List Part, ps.map Part.types = ts ∧ (∀ p ∈ ps, p.Sound) ∧ Misread title around i ps) :
    t.Misses title u := by
  intro around i
  obtain ⟨ps, rfl, hsound, hps⟩ := hmisread
    (overlay (overlay around (i + head.length + (ts.map fun t => t.2.nbits).sum) tail) i head) (i + head.length)
  obtain ⟨w, hw, hadmits, hwire, hread⟩ := h ps rfl hsound
  refine ⟨w, ⟨hw, hadmits⟩, fun src hgives haround v j hscan hagree => ?_⟩
  rw [← Ty.length_wireBits u w, hwire] at haround
  rw [hwire] at hgives
  obtain ⟨vs, j', hscans, hall⟩ := hread src i v j hscan hagree
  refine hps src (Source.gives_append.1 (Source.gives_append.1 hgives).1).2 ?_ vs j' hscans hall
  rw [← length_flatMap_bits]
  exact Source.around_middle hgives haround

/-! ### Types -/

/-- **Every type has a first leaf** if there are no messages without fields. -/
theorem Ty.WellFormed.hasLead (hwf : t.WellFormed) :
    ∀ u : Ty, u.WellFormed → t.Widens u → t.Filled → t.HasLead title u := by
  induction t, hwf using Ty.WellFormed.induction with
  | leaf t kind width hwf ht =>
    intro u hu hwidens _
    exact ⟨[], [], width, ht.leads (hu.leafOf (hwidens.leaf?_eq ht.leaf_eq)) ht.suits.pos⟩
  | typeAlias h target hwf ih =>
    rintro u hu ⟨d', rfl, h', target', rfl, hwidens⟩ hfilled
    obtain ⟨pre, post, width, hlead⟩ := ih target' hu.2.2 hwidens hfilled
    refine ⟨pre, post, width, hlead.pos, fun bits hbits => ?_⟩
    obtain ⟨w, hw, -, hwire⟩ := hlead.exists_value bits hbits
    exact ⟨w, hw, trivial, hwire⟩
  | array o element cap ext hwf ih =>
    rintro u hu ⟨o', element', cap', rfl, hwidens, hle, -⟩ hfilled
    have hlead := ih element' hu.2.2.2 hwidens hfilled
    obtain ⟨e, he⟩ := hlead.exists_sound
    refine (composed_array hle he.holds he.admits).hasLead ?_ fun t ht => ?_
    · rw [ne_eq, replicate_eq_nil_iff]
      exact hwf.1.ne'
    · rw [eq_of_mem_replicate ht]
      exact hlead
  | message h ext ms hwf ih =>
    rintro u hu ⟨d', rfl, h', ms', rfl, hfields, hsame⟩ ⟨hne, hfilled⟩
    have hpairs := pairsFields_of_widens hwf.2.numbered hu.2.numbered hfields hsame
    refine (composed_message hpairs).hasLead (fun hnone => hne ?_) fun t ht => ?_
    · refine eq_nil_iff_forall_not_mem.2 fun f hf => ?_
      rw [← mem_orderedFields, ← hpairs.fst_eq, map_eq_nil_iff.1 hnone] at hf
      exact not_mem_nil hf
    · obtain ⟨p, hp, rfl⟩ := mem_map.1 ht
      obtain ⟨⟨hf, hg⟩, -, hwidens⟩ := hpairs.pair p hp
      exact ih p.1 hf p.2.ty (hu.2.field hg).2.2 hwidens (fieldsFilled_iff.1 hfilled p.1 hf)

theorem Ty.inPlace_of_leaf? (ht : t.leaf? = some (kind, width)) (u : Ty) :
    t.InPlace u := by
  cases t with
  | array o element cap ext => cases ht
  | named d =>
    cases d with
    | enum h o cap ms => cases u <;> trivial
    | _ => cases ht
  | _ => trivial

/-- **Types whose parts are not all in place miss values.** -/
theorem Ty.WellFormed.misses (title : Def → String) (hwf : t.WellFormed) :
    ∀ u : Ty, u.WellFormed → t.Widens u → t.Filled → ¬t.InPlace u → t.Misses title u := by
  induction t, hwf using Ty.WellFormed.induction with
  | leaf t kind width hwf ht =>
    intro u _ _ _ hplace
    exact absurd (Ty.inPlace_of_leaf? ht.leaf_eq u) hplace
  | typeAlias h target hwf ih =>
    rintro u hu ⟨d', rfl, h', target', rfl, hwidens⟩ hfilled hplace around i
    obtain ⟨w, hw, hmiss⟩ := ih target' hu.2.2 hwidens hfilled hplace around i
    exact ⟨w, ⟨hw.holds, trivial⟩, hmiss⟩
  | array o element cap ext hwf ih =>
    rintro u hu ⟨o', element', cap', rfl, hwidens, hle, -⟩ hfilled hplace
    have hu' := hu.2.2.2
    have hlead : element.HasLead title element' := hwf.2.2.2.hasLead element' hu' hwidens hfilled
    obtain ⟨e, he⟩ := hlead.exists_sound
    rw [inPlace_array_iff hwf.1] at hplace
    refine (composed_array hle he.holds he.admits).misses
      (exists_misread (fun t ht => ?_) (fun t ht => ?_) (fun t ht => ?_) hplace)
    all_goals rw [eq_of_mem_replicate ht]
    · exact hlead
    · exact hwf.2.2.2.readsWider title element' hu' hwidens
    · exact ih element' hu' hwidens hfilled
  | message h ext ms hwf ih =>
    rintro u hu ⟨d', rfl, h', ms', rfl, hfields, hsame⟩ ⟨-, hfilled⟩ hplace
    have hpairs := pairsFields_of_widens hwf.2.numbered hu.2.numbered hfields hsame
    have hplace := mt hpairs.inPlace_iff.2 hplace
    refine (composed_message hpairs).misses
      (exists_misread (fun t ht => ?_) (fun t ht => ?_) (fun t ht => ?_) hplace)
    all_goals
      obtain ⟨p, hp, rfl⟩ := mem_map.1 ht
      obtain ⟨⟨hf, hg⟩, -, hwidens⟩ := hpairs.pair p hp
    · exact (hwf.2.field hf).2.2.hasLead p.2.ty (hu.2.field hg).2.2 hwidens (fieldsFilled_iff.1 hfilled p.1 hf)
    · exact (hwf.2.field hf).2.2.readsWider title p.2.ty (hu.2.field hg).2.2 hwidens
    · exact ih p.1 hf p.2.ty (hu.2.field hg).2.2 hwidens (fieldsFilled_iff.1 hfilled p.1 hf)

end

/-! ### Objects -/

/-- **Some objects are not read right** if not all parts are in place. -/
theorem Def.WellFormed.exists_misread {title : Def → String} {h h' : Header} {ms ms' : Members} {new : Object}
    (hwf : (Def.message h ext ms).WellFormed) (hwf' : (Def.message h' ext ms').WellFormed)
    (hwidens : (Def.message h ext ms).Widens (.message h' ext ms')) (hfilled : (Def.message h ext ms).Filled)
    (hplace : ¬(Def.message h ext ms).InPlace (.message h' ext ms')) (hmessage : new.message = .message h ext ms)
    (hnew : new.IsNew title) :
    ∃ (o : Object) (bytes : Array UInt8), o.message = .message h' ext ms' ∧ (Def.message h' ext ms').InRange o.value ∧
      bytes.size = ((Def.message h' ext ms').nbits + 7) / 8 ∧
      Wire.pack (Def.message h' ext ms').processor (Array.replicate bytes.size 0) o.title o.slots = .ok bytes ∧
      ((Def.message h' ext ms').Encodes → o.value.Plain → o.encode = .ok bytes) ∧
      ∀ slots, Wire.unpack (Def.message h ext ms).processor bytes new.title new.slots = (.ok (), slots) →
        ¬(Def.message h ext ms).Agree (.record new.title slots) o.value := by
  obtain ⟨w, hw, hmisses⟩ := Ty.WellFormed.misses title (t := .named (.message h ext ms)) ⟨rfl, hwf⟩
    (.named (.message h' ext ms')) ⟨rfl, hwf'⟩ ⟨_, rfl, hwidens⟩ hfilled hplace (fun _ => false) 0
  have hholds : (Def.message h' ext ms').Holds Leaf.Range w := hw.holds
  obtain ⟨name, own, extra, rfl, -⟩ := (holds_message.1 hholds).1
  let o : Object := ⟨.message h' ext ms', name, own ++ extra⟩
  have hv : (Def.message h' ext ms').InRange o.value := hholds
  obtain ⟨bytes, -, hsize, hpack, hencode, hbits⟩ := hwf'.encode_eq (o := o) rfl hv.fits
  refine ⟨o, bytes, rfl, hv, hsize, hpack, hencode, fun slots hunpack => ?_⟩
  rw [Object.IsNew, hmessage] at hnew
  have hle := hwf'.nbits_le
  obtain ⟨j, hscan⟩ := hwf.scan_of_unpack (by omega) hnew.symm hunpack
  refine hmisses (.ofBytes bytes) (hwf'.gives_packed hsize hbits) (fun k hk => ?_) _ j hscan
  -- after the bits of the object there are none
  have hend : ((Def.message h' ext ms').wireBits o.value).length ≤ k := by
    rw [Def.length_wireBits]
    exact (hk.resolve_left (Nat.not_lt_zero k)).trans_eq' (Nat.zero_add _)
  exact (hbits k).trans (by rw [getElem?_eq_none hend]; rfl)

/-- **An older message reads wider arrays.**  An object of a message whose extensible arrays got wider, with leaves
within the bounds of their types, is packed into bytes.

* If all parts of the older message are in place, a new object of it gets all leaves that it has: the first elements of
  every array, and all fields.  Unpacking ends at `old.reach current`.
* If not, and every message has a field, there are objects from which it does not get all leaves. -/
theorem unpack_wider {title : Def → String} {old current : Def} {new : Object} (hold : old.Accepted)
    (hcurrent : current.Accepted) (hwidens : old.Widens current) (hmessage : new.message = old)
      (hnew : new.IsNew title) :
    (∀ o : Object, o.message = current → current.InRange o.value → ∃ bytes, current.nbytes = .ok bytes.size ∧
      Wire.pack current.processor (Array.replicate bytes.size 0) o.title o.slots = .ok bytes ∧
      (current.Encodes → o.value.Plain → o.encode = .ok bytes) ∧
      (old.InPlace current → ∃ slots,
        old.processor.run (.unpacking bytes new.title new.slots)
          = (.ok (), { Machine.unpacking bytes new.title new.slots with
              cursor := old.reach current, accessor := .record new.title slots }) ∧
        old.Agree (.record new.title slots) o.value ∧
        (old.Decodes → new.decode bytes = ({ new with slots }, .ok ())))) ∧
    (old.Filled → ¬old.InPlace current → ∃ (o : Object) (bytes : Array UInt8),
      o.message = current ∧ current.InRange o.value ∧ current.nbytes = .ok bytes.size ∧
      Wire.pack current.processor (Array.replicate bytes.size 0) o.title o.slots = .ok bytes ∧
      (current.Encodes → o.value.Plain → o.encode = .ok bytes) ∧
      (∀ slots, Wire.unpack old.processor bytes new.title new.slots = (.ok (), slots) →
        ¬old.Agree (.record new.title slots) o.value) ∧
      (old.Decodes → ∀ new', new.decode bytes = (new', .ok ()) → ¬old.Agree new'.value o.value)) := by
  obtain ⟨hwf, h, ext, ms, rfl⟩ := hold.wellFormed
  obtain ⟨hwf', -⟩ := hcurrent.wellFormed
  obtain ⟨h', ms', rfl, -⟩ := id hwidens
  constructor
  · intro o ho hv
    obtain ⟨bytes, hnbytes, hsize, hpack, hencode, hbits⟩ := hwf'.encode_eq ho hv.fits
    exact ⟨bytes, hnbytes, hpack, hencode, fun hplace =>
      hwf.decode_eq_of_widens hwf' hwidens hplace hv hsize hbits hmessage hnew⟩
  · intro hfilled hplace
    obtain ⟨o, bytes, ho, hv, hsize, hpack, hencode, hmisread⟩ :=
      hwf.exists_misread hwf' hwidens hfilled hplace hmessage hnew
    refine ⟨o, bytes, ho, hv, hsize ▸ hwf'.nbytes_eq, hpack, hencode, hmisread, fun hdecodes new' hdecode => ?_⟩
    rw [hnew.decode_of_widens hdecodes hwf hwf' hwidens hmessage hsize] at hdecode
    obtain ⟨rfl, hok⟩ := Prod.mk.inj hdecode
    exact hmisread _ (Prod.ext hok rfl)

/-! ### Two capacities

Both arrays of a message get wider.  The first one is followed by a number, but the product of its capacities is the
size of the larger array.  In another message nothing makes up for the jump.
-/

namespace Sample

def narrowText : String :=
  "proto s message W\x7bbool[2]'  a=1 uint7 b=2 byte[4]' c=3\x7d message V\x7bbyte[4]' w=1 byte n=2\x7d"

def wideText : String :=
  "proto s message W\x7bbool[16]' a=1 uint7 b=2 byte[6]' c=3\x7d message V\x7bbyte[6]' w=1 byte n=2\x7d"

/-- An extensible array of bytes. -/
def words (cap : Nat) : Ty := .array ⟨"<byte>[" ++ toString cap ++ "]", 1, ""⟩ (.byte ⟨"byte", 1, ""⟩) cap true

/-- A message with two arrays. -/
def panel (flags bytes : Nat) : Def :=
  message "W" 1 7 false [
    field 1 "a" 2 17 (.array ⟨"<type bool>[" ++ toString flags ++ "]", 1, ""⟩ (.bool ⟨"bool", 1, ""⟩) flags true) 1,
    field 1 "b" 3 31 (.uint ⟨"uint7", 1, ""⟩ 7) 2,
    field 1 "c" 4 41 (words bytes) 3]

/-- A message in which a byte follows an array. -/
def wordsFirst (cap : Nat) : Def :=
  message "V" 5 55 false [field 5 "w" 6 65 (words cap) 1, field 5 "n" 7 78 (.byte ⟨"byte", 1, ""⟩) 2]

theorem accepts_narrow : Reader.Accepts (.proto { name := "s" } [("W", panel 2 4), ("V", wordsFirst 4)]) :=
  ⟨noFiles, false, narrowText, .inr (by decide +kernel)⟩

theorem accepts_wide : Reader.Accepts (.proto { name := "s" } [("W", panel 16 6), ("V", wordsFirst 6)]) :=
  ⟨noFiles, false, wideText, .inr (by decide +kernel)⟩

theorem panel_widens : (panel 2 4).Widens (panel 16 6) := by
  refine ⟨_, _, rfl, ⟨⟨_, .head _, rfl, _, _, _, rfl, ⟨_, rfl⟩, by norm_num, nofun⟩, ⟨_, .tail _ (.head _), rfl, _, rfl⟩,
    ⟨_, .tail _ (.tail _ (.head _)), rfl, _, _, _, rfl, ⟨_, rfl⟩, by norm_num, nofun⟩, trivial⟩, ?_⟩
  decide

/-- Twice sixteen bits are those of an announcement and sixteen flags. -/
theorem panel_inPlace : (panel 2 4).InPlace (panel 16 6) := by
  refine ⟨fun g hg hnumber => ?_, fun g hg hnumber => ?_, fun g hg hnumber => ?_, trivial⟩
  · rcases mem_cons.1 hg with rfl | hg
    · exact ⟨⟨trivial, fun _ => rfl⟩, fun _ => (Ty.reach_array_eq_nbits_iff (by norm_num) (by decide) rfl).2 rfl⟩
    · rcases mem_pair.1 hg with rfl | rfl <;> cases hnumber
  · rcases mem_cons.1 hg with rfl | hg
    · cases hnumber
    · rcases mem_pair.1 hg with rfl | rfl
      · exact ⟨trivial, fun _ => rfl⟩
      · cases hnumber
  · rcases mem_cons.1 hg with rfl | hg
    · cases hnumber
    · rcases mem_pair.1 hg with rfl | rfl
      · cases hnumber
      · exact ⟨⟨trivial, fun _ => rfl⟩, fun hlater => absurd hlater (by decide)⟩

def panelSlots (a : Array Value) (b : Int) (c : Array UInt8) : List (Slot × Value) :=
  [(⟨1, "a", some (.leaf 1 .bool)⟩, .list a), (⟨2, "b", some (.leaf 0 .unsigned)⟩, .int b),
    (⟨3, "c", some (.leaf 1 .unsigned)⟩, .bytes c)]

def widePanel : Object := ⟨panel 16 6, "W", panelSlots (Array.replicate 16 (.bool true)) 100 #[1, 2, 3, 4, 5, 6]⟩

def newPanel : Object := ⟨panel 2 4, "W", panelSlots (Array.replicate 2 (.bool false)) 0 #[0, 0, 0, 0]⟩

theorem newPanel_isNew : newPanel.IsNew Def.name := by
  show _ = (panel 2 4).initialBy Def.name
  rw [panel, message, initialBy_message, orderedFields_eq]
  rfl

theorem wordsFirst_widens : (wordsFirst 4).Widens (wordsFirst 6) :=
  ⟨_, _, rfl, ⟨⟨_, .head _, rfl, _, _, _, rfl, ⟨_, rfl⟩, by norm_num, nofun⟩,
    ⟨_, .tail _ (.head _), rfl, _, rfl⟩, trivial⟩,
    by decide⟩

/-- Four times six bits are too few for an announcement and six bytes. -/
theorem not_wordsFirst_inPlace : ¬(wordsFirst 4).InPlace (wordsFirst 6) := by
  rintro ⟨hfirst, -⟩
  have hend := (hfirst _ (.head _) rfl).2 ⟨_, .tail _ (.head _), by decide⟩
  exact absurd ((Ty.reach_array_eq_nbits_iff (by norm_num) (by decide) rfl).1 hend) (by decide)

/-- A new object in which a byte follows an array. -/
def newWords : Object :=
  ⟨wordsFirst 4, "V", [(⟨1, "w", some (.leaf 1 .unsigned)⟩, .bytes #[0, 0, 0, 0]),
    (⟨2, "n", some (.leaf 0 .unsigned)⟩, .int 0)]⟩

theorem newWords_isNew : newWords.IsNew Def.name := by
  show _ = (wordsFirst 4).initialBy Def.name
  rw [wordsFirst, message, initialBy_message, orderedFields_eq]
  rfl

end Sample

theorem unpack_wider_panel :
    (∃ bytes new, Sample.widePanel.encode = .ok bytes ∧ Sample.newPanel.decode bytes = (new, .ok ()) ∧
      (Sample.panel 2 4).Agree new.value Sample.widePanel.value) ∧
    ∃ (o : Object) (bytes : Array UInt8), (Sample.wordsFirst 6).InRange o.value ∧
      Wire.pack (Sample.wordsFirst 6).processor (Array.replicate bytes.size 0) o.title o.slots = .ok bytes ∧
      ∀ new, Sample.newWords.decode bytes = (new, .ok ()) → ¬(Sample.wordsFirst 4).Agree new.value o.value := by
  constructor
  · obtain ⟨bytes, -, -, hencode, hdecode⟩ := (unpack_wider ⟨_, "W", Sample.accepts_narrow, by decide +kernel⟩
      ⟨_, "W", Sample.accepts_wide, by decide +kernel⟩ Sample.panel_widens rfl Sample.newPanel_isNew).1
        Sample.widePanel rfl
      (by decide +kernel)
    obtain ⟨slots, -, hagree, hdecode⟩ := hdecode Sample.panel_inPlace
    exact ⟨bytes, _, hencode ⟨by decide +kernel, by decide⟩ (by decide),
      hdecode (.of_free (by decide +kernel) (by decide)), hagree⟩
  · obtain ⟨o, bytes, -, hv, -, hpack, -, -, hdecode⟩ := (unpack_wider ⟨_, "V", Sample.accepts_narrow, by decide +kernel⟩
      ⟨_, "V", Sample.accepts_wide, by decide +kernel⟩ Sample.wordsFirst_widens rfl Sample.newWords_isNew).2
      ⟨by decide, trivial, trivial, trivial⟩ Sample.not_wordsFirst_inPlace
    exact ⟨o, bytes, hv, hpack, hdecode (.of_free (by decide +kernel) (by decide))⟩

-- The byte after the array is lost: it was packed as `9`, and the fifth element is unpacked in its place.
example : (Wire.unpack (.message false 56 [.field 1 (.array true 4 .byte), .field 2 .byte])
    #[6, 0, 1, 2, 3, 4, 5, 6, 9] "V"
    Sample.newWords.slots).2.map (·.2.asInt?) = [none, some 5] := by
  decide +kernel

end BitSchema
