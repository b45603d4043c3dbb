import BitSchema.Proofs.AnyBytes
import BitSchema.Proofs.ByteCopies

/-!
# Unpacking by copies

The copies of a message write the bits of a buffer to the leaves of a record that was empty before.  After some of its
bits were copied, a leaf stands in memory for the number that these bits are (`partLoaded`), and after all of them it is
what is read there otherwise.  Elements and fields follow one another as in `Ty.scan`.

`copies_unpack` says that this gives the record into which the buffer is unpacked otherwise.
-/

namespace BitSchema

open Wire Loading List

/-! ### Leaves in memory -/

section

variable {kind : Leaf} {size : Nat}

theorem Wire.number_stored {n : Nat} (hn : n < 2 ^ (8 * size)) :
    (Source.ofBytes (stored n size)).number 0 (8 * (stored n size).size) = n := by
  rw [size_stored]
  refine Nat.eq_of_testBit_eq fun k => ?_
  rw [Source.testBit_number, Nat.zero_add]
  show (decide (k < 8 * size) && bitAt (stored n size) k) = _
  rw [bitAt_stored]
  by_cases hk : k < 8 * size
  · simp [hk]
  · have hhigh : n < 2 ^ k := lt_of_lt_of_le hn (Nat.pow_le_pow_right Nat.two_pos (by omega))
    simp [hk, Nat.testBit_eq_false_of_lt hhigh]

/-- **What is stored where a leaf was loaded.** -/
theorem Wire.stored_load {n : Nat} (hn : n < 2 ^ (8 * size)) (hpos : 0 < size) (hbool : kind = .bool → n < 2) :
    ∃ d, (kind.load (stored n size)).asInt? = some d ∧ stored d size = stored n size := by
  unfold Leaf.load
  rw [number_stored hn, size_stored]
  cases kind with
  | bool =>
    obtain rfl | rfl : n = 0 ∨ n = 1 := by have := hbool rfl; omega
    · exact ⟨0, rfl, rfl⟩
    · exact ⟨1, rfl, rfl⟩
  | unsigned => exact ⟨n, rfl, rfl⟩
  | signed w =>
    refine ⟨_, rfl, eq_of_bitAt (by rw [size_stored, size_stored]) fun k => ?_⟩
    rw [bitAt_stored, bitAt_stored, testBit_signed (by omega) hn]
    by_cases hk : k < 8 * size
    · rw [min_eq_left (by omega), testBit_natCast]
    · simp [hk]

/-- **A leaf in memory after `j` of its bits were copied** from bit `base` of a buffer on. -/
def partLoaded (kind : Leaf) (size : Nat) (bytes : Array UInt8) (base j : Nat) : Value :=
  kind.load (stored ((Source.ofBytes bytes).number base j) size)

variable {width : Nat} {bytes : Array UInt8} {base j c : Nat}

theorem Wire.Source.number_lt_of_le (src : Source) (i : Nat) {n m : Nat} (h : n ≤ m) : src.number i n < 2 ^ m :=
  lt_of_lt_of_le (src.number_lt i n) (Nat.pow_le_pow_right Nat.two_pos h)

theorem partLoaded_zero : partLoaded kind size bytes base 0 = kind.zero := by
  have hzero : (Source.ofBytes bytes).number base 0 = 0 := Nat.lt_one_iff.1 (Source.number_lt _ base 0)
  unfold partLoaded Leaf.load
  rw [hzero, number_stored (Nat.two_pow_pos _)]
  cases kind with
  | bool => rfl
  | unsigned => rfl
  | signed w =>
    have hpos : ((0 : Nat) : Int) < (weight (8 * (stored (0 : Nat) size).size - 1) : Nat) := by
      exact_mod_cast Nat.two_pow_pos _
    show Value.int (signed _ ((0 : Nat) : Int)) = Value.int 0
    rw [signed, if_pos hpos]
    rfl

theorem partLoaded_width (hwidth : width ≤ 8 * size) (hsigned : ∀ w, kind = .signed w → 8 * size = w) :
    partLoaded kind size bytes base width = kind.hold (kind.ofNumber ((Source.ofBytes bytes).number base width)) := by
  unfold partLoaded Leaf.load
  rw [number_stored (Source.number_lt_of_le _ base hwidth), size_stored]
  cases kind with
  | bool =>
    show Value.bool _ = Value.bool _
    rw [Value.bool.injEq, Bool.eq_iff_iff, bne_iff_ne, bne_iff_ne]
    exact Int.natCast_ne_zero.symm
  | unsigned => rfl
  | signed w =>
    obtain rfl := hsigned w rfl
    rfl

theorem takes_partLoaded (hwidth : width ≤ 8 * size) (hj : j ≤ width) :
    kind.Takes width (partLoaded kind size bytes base j) := by
  unfold partLoaded Leaf.load
  rw [number_stored (Source.number_lt_of_le _ base (by omega))]
  cases kind with
  | bool => exact ⟨_, rfl⟩
  | unsigned =>
    refine ⟨_, rfl, Int.natCast_nonneg _, ?_⟩
    exact_mod_cast Source.number_lt_of_le _ base hj
  | signed w => exact ⟨_, rfl⟩

theorem bit_of_chunk (k : Nat) :
    ((decide (k < j) && bitAt bytes (base + k)) ||
      (decide (j ≤ k) && decide (k < j + c) && bitAt bytes (base + j + (k - j))))
      = (decide (k < j + c) && bitAt bytes (base + k)) := by
  rcases Nat.lt_or_ge k j with hk | hk
  · have hkc : k < j + c := by omega
    have hnot : ¬j ≤ k := by omega
    simp [hk, hkc, hnot]
  · have hnot : ¬k < j := by omega
    have hsum : base + j + (k - j) = base + k := by omega
    simp [hk, hnot, hsum]

/-- **A copy to the memory of a leaf**, which replaces no byte but an empty one, adds a chunk of the bits. -/
theorem Wire.Copied.eq_stored {instead : Bool} {out : Array UInt8}
    (h : Copied instead bytes (stored ((Source.ofBytes bytes).number base j) size) (base + j) j c out)
    (hinstead : instead = true → j % 8 = 0) (hjc : j + c ≤ 8 * size) :
    out = stored ((Source.ofBytes bytes).number base (j + c)) size := by
  refine eq_of_bitAt (by rw [h.size_eq, size_stored, size_stored]) fun k => ?_
  have hold : (!(instead && decide (k / 8 = j / 8)) && bitAt (stored ((Source.ofBytes bytes).number base j) size) k)
      = (decide (k < j) && bitAt bytes (base + k)) := by
    rw [bitAt_stored, testBit_natCast, Source.testBit_number]
    rcases Nat.lt_or_ge k j with hk | hk
    · have hin : k < 8 * size := by omega
      have hkeep : (instead && decide (k / 8 = j / 8)) = false := by
        rw [← Bool.not_eq_true, Bool.and_eq_true, decide_eq_true_eq]
        rintro ⟨hinst, hbyte⟩
        have := hinstead hinst
        omega
      rw [hkeep]
      simp [hk, hin, Source.ofBytes]
    · have hnot : ¬k < j := by omega
      simp [hnot]
  rw [h.bitAt_eq, hold, bit_of_chunk, bitAt_stored, testBit_natCast, Source.testBit_number]
  by_cases hk : k < j + c
  · have hin : k < 8 * size := by omega
    simp [hk, hin, Source.ofBytes]
  · simp [hk]

/-- **Bits that are added to the integer of a leaf** add a chunk of the bits. -/
theorem stored_orInt {n : Int} {bits : Nat} (hn : stored n size = stored ((Source.ofBytes bytes).number base j) size)
    (hbits : ∀ q, bits.testBit q
      = (decide (j % 8 ≤ q) && decide (q < j % 8 + c) && bitAt bytes (base + j + (q - j % 8)))) :
    stored (orInt n (bits * weight (8 * (j / 8)))) size = stored ((Source.ofBytes bytes).number base (j + c)) size := by
  refine eq_of_bitAt (by rw [size_stored, size_stored]) fun k => ?_
  rw [bitAt_stored, bitAt_stored]
  by_cases hin : k < 8 * size
  · have hold : n.testBit k = (decide (k < j) && bitAt bytes (base + k)) := by
      have hbit := congrArg (bitAt · k) hn
      simpa [bitAt_stored, hin, Source.testBit_number, Source.ofBytes] using hbit
    have hnew : ((bits : Int) * weight (8 * (j / 8))).testBit k
        = (decide (j ≤ k) && decide (k < j + c) && bitAt bytes (base + j + (k - j))) := by
      rw [testBit_mul_weight, hbits]
      rcases Nat.lt_or_ge k (8 * (j / 8)) with hk | hk
      · have h1 : ¬8 * (j / 8) ≤ k := by omega
        have h2 : ¬j ≤ k := by omega
        simp [h1, h2]
      · have h1 : j % 8 ≤ k - 8 * (j / 8) ↔ j ≤ k := by omega
        have h2 : k - 8 * (j / 8) < j % 8 + c ↔ k < j + c := by omega
        have h3 : k - 8 * (j / 8) - j % 8 = k - j := by omega
        simp [hk, h1, h2, h3]
    rw [testBit_orInt, hold, hnew, bit_of_chunk, testBit_natCast, Source.testBit_number]
    rfl
  · simp [hin]

end

/-! ### One copy -/

variable {kind : Leaf}

/-- **What a leaf is after a chunk was written to it.** -/
theorem received_chunk (l : Dialect) {copy : ByteCopy} {size base j c : Nat} {bytes : Array UInt8} {d : Int}
    (hbyte : copy.byte = ((j / 8 : Nat) : Int)) (hoffset : copy.offset = ((j % 8 : Nat) : Int))
    (hd : stored d size = stored ((Source.ofBytes bytes).number base j) size) (hbool : kind = .bool → j = 0 ∧ c = 1)
    (hc : 0 < c) (hjc : j + c ≤ 8 * size) (hj : j % 8 + c ≤ 8) (hi : (base + j) % 8 + c ≤ 8) :
    copy.received l (kind, size) d
      (Run.move (bytes[(base + j) / 8]?.getD 0).toNat ((base + j) % 8) (j % 8) &&& Run.mask (j % 8) c)
      = some (partLoaded kind size bytes base (j + c)) := by
  have hbits := Run.testBit_moved bytes (b := j) hi
  unfold ByteCopy.received partLoaded
  by_cases hgo : l = .go
  · rw [if_pos hgo]
    by_cases hkind : kind = .bool
    · -- a truth value is assigned
      obtain ⟨rfl, rfl⟩ := hbool hkind
      subst hkind
      generalize Run.move (bytes[(base + 0) / 8]?.getD 0).toNat ((base + 0) % 8) (0 % 8) &&& Run.mask (0 % 8) 1 = bits
        at hbits
      have heq : bits = (Source.ofBytes bytes).number base (0 + 1) := by
        refine Nat.eq_of_testBit_eq fun k => ?_
        rw [hbits, Source.testBit_number]
        simp [Source.ofBytes]
      rw [if_pos rfl, heq, Leaf.load, number_stored (Source.number_lt_of_le _ base hjc)]
    · rw [if_neg hkind, hbyte, Int.toNat_natCast, stored_orInt hd hbits]
  · rw [if_neg hgo, hbyte, hd]
    obtain ⟨out, hwrite, hcopied⟩ := writeByte_moved (a := base + j) (b := j) copy.starts bytes hc hi hj
      (by rw [size_stored]; exact hjc : j + c ≤ 8 * (stored ((Source.ofBytes bytes).number base j) size).size)
    have hstart : copy.starts = true → j % 8 = 0 := by
      unfold ByteCopy.starts
      rw [hoffset, beq_iff_eq]
      omega
    rw [hwrite, hcopied.eq_stored hstart hjc]
    rfl

variable {route : Route}

/-- **One copy writes a chunk of a leaf.** -/
theorem unpackStep_chunk (l : Dialect) {t : Ty} {width size : Nat} (ht : t.StoredAs kind width size)
    (hsuits : kind.Suits width) {bytes : Array UInt8} {v w : Value} {base j c : Nat} (hc : 0 < c)
    (hjc : j + c ≤ width) (hj : j % 8 + c ≤ 8) (hi : (base + j) % 8 + c ≤ 8) (hroom : base + width ≤ 8 * bytes.size)
    (hlimit : base + width ≤ 2 ^ 53) (hv : v.along route.steps = some (partLoaded kind size bytes base j))
    (hput : v.putAlong route.steps (partLoaded kind size bytes base (j + c)) = some w) :
    ∃ copy, ByteCopy.ofChunk false t route ((base + j : Nat) : Int) j c = .ok copy ∧
      ByteCopy.unpackStep l bytes v copy = some w := by
  have hwidth := ht.width_le
  have hbool (hkind : kind = .bool) : j = 0 ∧ c = 1 := by
    subst hkind
    have hone : width = 1 := hsuits
    omega
  have hsmall (hkind : kind = .bool) : (Source.ofBytes bytes).number base j < 2 := by
    obtain ⟨rfl, -⟩ := hbool hkind
    exact Source.number_lt_of_le _ base (by omega : 0 ≤ 1)
  obtain ⟨d, hd, hstored⟩ := stored_load
    (Source.number_lt_of_le (Source.ofBytes bytes) base (by omega : j ≤ 8 * size)) (by omega) hsmall
  refine ⟨_, ByteCopy.unpack_eq (by omega) (by omega) hj, ?_⟩
  have hbyte : byte? bytes (((base + j) / 8 : Nat) : Int) = some (bytes[(base + j) / 8]?.getD 0).toNat :=
    byte?_natCast (by omega)
  unfold ByteCopy.unpackStep
  simp only [ht.storage_eq, hv, partLoaded, hd, Option.bind_eq_bind, Option.bind_some, hbyte]
  rw [ByteCopy.moved_eq rfl rfl, received_chunk l rfl rfl hstored hbool hc (by omega) hj hi]
  exact hput

/-! ### Types -/

/-- **A place of a type where nothing has been set.** -/
structure Ty.Vacant (title : Def → String) (t : Ty) (p : List RouteStep) (v : Value) : Prop where
  initial : v.along p = some (t.initialBy title)
  free : ∀ x, t.Admits x → ∃ w, v.putAlong p x = some w

/-- **The copies of a type fill a vacant place** with what is read off the buffer. -/
def Ty.FilledBy (l : Dialect) (title : Def → String) (bytes : Array UInt8) (t : Ty) (copier : Copier) : Prop :=
  t.Traditional → ∀ (route : Route) (v x : Value) (i j : Nat), t.Vacant title route.steps v →
    t.scan title (.ofBytes bytes) i = some (x, j) →
    ∃ w, (copier route).Takes (ByteCopy.unpackStep l bytes) i v j w ∧ v.putAlong route.steps x = some w ∧ t.Admits x

variable {ext : Bool} {ms : Members}

section

variable {l : Dialect} {title : Def → String} {bytes : Array UInt8}

/-- **The copies of a leaf** fill its place. -/
theorem filledBy_leaf (hl : l.writesCopies = .ok ()) {t o : Ty} {width size : Nat}
    (ht : t.LeafOf kind width) (ho : o.StoredAs kind width size) : t.FilledBy l title bytes (Copier.leaf l false o) := by
  intro _ route v x i j hvacant hscan
  obtain ⟨hinitial, hfree⟩ := hvacant
  rw [Ty.scan_leaf title _ ht.leaf_eq, Source.leaf] at hscan
  split at hscan
  · next hlimit =>
    cases hscan
    obtain ⟨hroom, hlimit⟩ := le_min_iff.1 hlimit
    have hwidth := ho.width_le
    have hadmits (j : Nat) (hj : j ≤ width) : t.Admits (partLoaded kind size bytes i j) :=
      ht.admits (takes_partLoaded hwidth hj)
    -- after `j` bits of the leaf it holds the number that they are
    have hstart : v.putAlong route.steps (partLoaded kind size bytes i 0) = some v := by
      rw [partLoaded_zero, ← ht.initial_eq title]
      exact Value.putAlong_along hinitial
    have hall : ∃ w, (Copier.leaf l false o route).Takes (ByteCopy.unpackStep l bytes) i v (i + o.nbits) w ∧
        v.putAlong route.steps (partLoaded kind size bytes i o.nbits) = some w := by
      refine takes_leaf (fun j w => v.putAlong route.steps (partLoaded kind size bytes i j) = some w) hl ?_ hstart
      intro j c w hc hjc hj hi hw
      rw [ho.nbits_eq] at hjc
      obtain ⟨w', hw'⟩ := hfree _ (hadmits (j + c) hjc)
      obtain ⟨copy, hcopy, hstep⟩ := unpackStep_chunk l ho ht.suits hc hjc hj hi hroom hlimit
        (Value.putAlong_spec hw).1 (((Value.putAlong_spec hw).2 _).trans hw')
      exact ⟨copy, w', hcopy, hstep, hw'⟩
    obtain ⟨w, htakes, hw⟩ := hall
    rw [ho.nbits_eq] at htakes hw
    rw [← partLoaded_width hwidth ho.signed_eq]
    exact ⟨w, htakes, hw, hadmits width le_rfl⟩
  · cases hscan

variable {element : Ty} {v : Value}

/-- A place inside a part of a value: what is put there changes the part. -/
theorem vacant_further {t : Ty} {s : RouteStep} {p : List RouteStep} {y : Value} {after : Value → Value}
    (hy : v.along p = some y) (hfree : ∀ x, ∃ w, v.putAlong p x = some w) (hget : s.get y = some (t.initialBy title))
    (hput : ∀ x, t.Admits x → s.put y x = some (after x)) :
    t.Vacant title (p ++ [s]) v ∧ ∀ x, t.Admits x → v.putAlong (p ++ [s]) x = v.putAlong p (after x) := by
  have hall (x : Value) (hx : t.Admits x) : v.putAlong (p ++ [s]) x = v.putAlong p (after x) := by
    rw [Value.putAlong_append hy hget, hput x hx, Option.bind_some]
  refine ⟨⟨?_, fun x hx => hall x hx ▸ hfree _⟩, hall⟩
  rw [Value.along_append, hy]
  exact hget

/-- **The copies of the elements of an array** fill their places, those before them being filled. -/
theorem takes_elementsFrom {copier : Copier} (ih : element.FilledBy l title bytes copier)
    (ht : element.Traditional) {count i j : Nat} (done : List Value) {vs : List Value}
    (hv : v.along route.steps = some (element.gather (done ++ List.replicate count (element.initialBy title))))
    (hfree : ∀ x, ∃ w, v.putAlong route.steps x = some w)
    (hscan : scanAll (List.replicate count (element.scan title (.ofBytes bytes))) i = some (vs, j)) :
    ∃ w, (Copier.elementsFrom copier route count done.length).Takes (ByteCopy.unpackStep l bytes) i v j w ∧
      v.putAlong route.steps (element.gather (done ++ vs)) = some w := by
  induction count generalizing i done vs v with
  | zero =>
    obtain ⟨rfl, rfl⟩ := Prod.mk.inj (Option.some.inj hscan)
    exact ⟨v, Listing.takes_nil i v, Value.putAlong_along hv⟩
  | succ count ih' =>
    rw [replicate_succ] at hscan hv
    obtain ⟨x, i₁, rest, hx, hrest, rfl⟩ := scanAll_cons_eq_some hscan
    -- one element in its place
    obtain ⟨hvacant, hput⟩ := vacant_further (s := .element done.length) hv hfree
      (Ty.item?_gather (element.admits_initialBy title) (by simp)) fun _ => RouteStep.put_gather
    obtain ⟨w, htakes, hw, hadmits⟩ := ih ht (route.further (.element done.length)) v x i i₁ hvacant hx
    have hw' := (hput x hadmits).symm.trans hw
    rw [append_cons] at hw'
    -- and then the others
    obtain ⟨halong, hsame⟩ := Value.putAlong_spec hw'
    obtain ⟨w', htakes', hw''⟩ := ih' (done ++ [x]) halong (fun y => hsame y ▸ hfree y) hrest
    rw [length_append, length_singleton] at htakes'
    refine ⟨w', htakes.append htakes', ?_⟩
    rw [hsame, ← append_cons] at hw''
    exact hw''

theorem filledBy_array {o : Origin} {cap : Nat} {copier : Copier}
    (ih : element.FilledBy l title bytes copier) :
    (Ty.array o element cap ext).FilledBy l title bytes (Copier.elements copier cap) := by
  rintro ⟨rfl, ht⟩ route v x i j ⟨hinitial, hfree⟩ hscan
  rw [Ty.initialBy_array] at hinitial
  obtain ⟨vs, hall, rfl⟩ := scanMap_eq_some hscan
  obtain ⟨w, htakes, hw⟩ := takes_elementsFrom ih ht [] hinitial (fun y => hfree y trivial) hall
  exact ⟨w, htakes, hw, trivial⟩

/-- **The copies of the fields of a message** fill their slots, those before them being filled. -/
theorem takes_fields (hl : l.writesCopies = .ok ()) {name : String} (hnumbered : Numbered ms)
    {fs : List Field} (done : List (Slot × Value)) {slots : List (Slot × Value)} {i j : Nat}
    (hfields : done.map (·.1) ++ fs.map Field.slot = (orderedFields ms).map Field.slot)
    (hfs : ∀ f ∈ fs, f.ty.Traditional ∧ f.ty.FilledBy l title bytes (f.ty.copier l false .field))
    (hv : v.along route.steps = some (.record name (done ++ fs.map fun f => (f.slot, f.ty.initialBy title))))
    (hfree : ∀ x, ∃ w, v.putAlong route.steps x = some w)
    (hscan : scanAll (fs.map fun f => f.scan title (.ofBytes bytes)) i = some (slots, j)) :
    ∃ w, (Copier.fields l (fs.map fun f => (Def.field f.header f.ty f.number, f.ty.copier l false .field)) route).Takes
        (ByteCopy.unpackStep l bytes) i v j w ∧
      v.putAlong route.steps (.record name (done ++ slots)) = some w := by
  induction fs generalizing i done slots v with
  | nil =>
    obtain ⟨rfl, rfl⟩ := Prod.mk.inj (Option.some.inj hscan)
    exact ⟨v, Listing.takes_nil i v, Value.putAlong_along hv⟩
  | cons f fs ih =>
    obtain ⟨ht, hfilled⟩ := hfs f (mem_cons_self ..)
    obtain ⟨_, i₁, rest, hread, hrest, rfl⟩ := scanAll_cons_eq_some hscan
    obtain ⟨x, hx, rfl⟩ := scanMap_eq_some hread
    rw [map_cons] at hv
    -- one field in its slot, which is the only one with its number
    have hslots : (done ++ (f.slot, f.ty.initialBy title) :: fs.map fun f => (f.slot, f.ty.initialBy title)).map (·.1)
        = (orderedFields ms).map Field.slot := by
      rw [← hfields, map_append, map_cons, map_map, map_cons]
      rfl
    have hne (e : Slot × Value) (he : e ∈ done) : e.1.number ≠ f.slot.number :=
      number_ne_of_slots hnumbered hslots e (mem_append_left _ he)
    obtain ⟨written, hwritten⟩ := Copier.exists_field_eq hl (.field f.header f.ty f.number)
      (f.ty.copier l false .field) route
    obtain ⟨hpart, hslot⟩ := Value.putSlot_middle hne
    obtain ⟨hvacant, hput⟩ := vacant_further (s := .field f.number written) hv hfree hpart
      fun x _ => congrArg (Option.map (Value.record name)) (hslot x)
    obtain ⟨w, htakes, hw, hadmits⟩ := hfilled ht (route.further (.field f.number written)) v x i i₁ hvacant hx
    have hw' := (hput x hadmits).symm.trans hw
    rw [append_cons] at hw'
    -- and then the others
    have hnext : (done ++ [(f.slot, x)]).map (·.1) ++ fs.map Field.slot = (orderedFields ms).map Field.slot := by
      rw [← hfields, map_append, append_assoc]
      rfl
    obtain ⟨halong, hsame⟩ := Value.putAlong_spec hw'
    obtain ⟨w', htakes', hw''⟩ := ih (done ++ [(f.slot, x)]) hnext (fun g hg => hfs g (mem_cons_of_mem _ hg)) halong
      (fun y => hsame y ▸ hfree y) hrest
    rw [hsame, ← append_cons done (f.slot, x) rest] at hw''
    refine ⟨w', ?_, hw''⟩
    rw [map_cons, Copier.fields, hwritten]
    exact htakes.append htakes'

theorem filledBy_message (hl : l.writesCopies = .ok ()) {h : Header}
    (hwf : (Def.message h ext ms).WellFormed)
    (ih : ∀ f ∈ fieldsOf ms, f.ty.FilledBy l title bytes (f.ty.copier l false .field)) :
    (Ty.named (.message h ext ms)).FilledBy l title bytes (Copier.fields l ((orderedFields ms).map fun f =>
      (Def.field f.header f.ty f.number, f.ty.copier l false .field))) := by
  rintro ⟨rfl, ht⟩ route v x i j ⟨hinitial, hfree⟩ hscan
  rw [Ty.initialBy, initialBy_message] at hinitial
  rw [Ty.scan, scan_message] at hscan
  obtain ⟨slots, hall, rfl⟩ := scanMap_eq_some hscan
  have hfs (f : Field) (hf : f ∈ orderedFields ms) :
      f.ty.Traditional ∧ f.ty.FilledBy l title bytes (f.ty.copier l false .field) := by
    have hmem := mem_orderedFields.1 hf
    exact ⟨fieldsTraditional_iff.1 ht f hmem, ih f hmem⟩
  obtain ⟨w, htakes, hw⟩ := takes_fields hl hwf.numbered [] rfl hfs hinitial (fun y => hfree y trivial) hall
  exact ⟨w, htakes, hw, trivial⟩

/-- **The copies of every well-formed type fill its places.** -/
theorem Ty.WellFormed.filledBy (hl : l.writesCopies = .ok ()) (title : Def → String) (bytes : Array UInt8) {t : Ty}
    (hwf : t.WellFormed) {p : TypePlace} (hp : p.Suits t) : t.FilledBy l title bytes (t.copier l false p) :=
  hwf.copier_induction (Ty.FilledBy l title bytes)
    (fun _ _ _ _ _ ht ho => filledBy_leaf hl ht ho)
    (fun _ _ _ _ _ ih => filledBy_array ih)
    (fun _ _ _ ih ht route v x i j hvacant hscan => by
      obtain ⟨w, htakes, hw, -⟩ := ih ht route v x i j ⟨hvacant.initial, fun y _ => hvacant.free y trivial⟩ hscan
      exact ⟨w, htakes, hw, trivial⟩)
    (fun _ _ _ hwf ih => filledBy_message hl hwf ih) hp

end

/-! ### Messages -/

/-- The copies of a message fill a new record with what is read off any buffer. -/
theorem Def.WellFormed.copies_fill {l : Dialect} (hl : l.writesCopies = .ok ()) (title : Def → String) {h : Header}
    (hwf : (Def.message h ext ms).WellFormed) (ht : (Def.message h ext ms).Traditional) :
    ∃ copies, l.messageCopies false (.message h ext ms) = .ok copies ∧ ∀ (bytes : Array UInt8) (x : Value) (j : Nat),
      (Def.message h ext ms).scan title (.ofBytes bytes) 0 = some (x, j) →
      copies.foldlM (ByteCopy.unpackStep l bytes) ((Def.message h ext ms).initialBy title) = some x := by
  obtain ⟨route, hroute, hcopies⟩ := Dialect.exists_messageCopies_eq hl false (.message h ext ms)
  have hvacant : (Ty.named (.message h ext ms)).Vacant title route.steps ((Def.message h ext ms).initialBy title) := by
    rw [hroute]
    exact ⟨rfl, fun x _ => ⟨x, rfl⟩⟩
  have htakes (bytes : Array UInt8) (x : Value) (j : Nat)
      (hscan : (Def.message h ext ms).scan title (.ofBytes bytes) 0 = some (x, j)) :
      (((Ty.named (.message h ext ms)).copier l false .field) route).Takes (ByteCopy.unpackStep l bytes) 0
        ((Def.message h ext ms).initialBy title) j x := by
    obtain ⟨w, htakes, hw, -⟩ := Ty.WellFormed.filledBy hl title bytes (t := .named (.message h ext ms)) ⟨rfl, hwf⟩
      (p := .field) trivial ht route _ x 0 j hvacant hscan
    rw [hroute] at hw
    cases hw
    exact htakes
  -- the copies do not depend on the buffer, so that any buffer tells what they are
  let zeros : Array UInt8 := Array.replicate (Def.message h ext ms).nbits 0
  obtain ⟨_, hscan, -⟩ := hwf.exists_scan ht (initialBy_message title h ext ms)
    (by rw [Array.size_replicate]; omega : _ ≤ 8 * zeros.size)
  obtain ⟨copies, hlisted, -⟩ := htakes zeros _ _ hscan
  exact ⟨copies, hcopies copies _ hlisted, fun bytes x j hscan => (htakes bytes x j hscan).foldlM_eq hlisted⟩

/-- **Unpacking by copies gives the same record.**  For a message that was accepted in traditional mode, the copies of
either language can be listed.  One after the other they fill a new record from any buffer that is large enough, and
they give each leaf the value that it is unpacked to. -/
theorem copies_unpack {l : Dialect} {title : Def → String} {d : Def} {new : Object} (hl : l.writesCopies = .ok ())
    (hd : d.AcceptedTraditional) (hmessage : new.message = d) (hnew : new.IsNew title) :
    ∃ n copies, d.nbytes = .ok n ∧ l.messageCopies false d = .ok copies ∧ ∀ bytes : Array UInt8, n ≤ bytes.size →
      ∃ slots, Wire.unpack d.processor bytes new.title new.slots = (.ok (), slots) ∧
        copies.foldlM (ByteCopy.unpackStep l bytes) new.value = some (.record new.title slots) ∧
        (d.Decodes → new.decode bytes = ({ new with slots }, .ok ())) := by
  obtain ⟨hwf, h, ext, ms, rfl⟩ := hd.accepted.1.wellFormed
  have ht := hd.accepted.2
  have hinitial := hnew
  rw [Object.IsNew, hmessage] at hinitial
  obtain ⟨copies, hcopies, hrun⟩ := hwf.copies_fill hl title ht
  refine ⟨_, copies, hwf.nbytes_eq, hcopies, fun bytes hbytes => ?_⟩
  obtain ⟨slots, hscan, hown⟩ := hwf.exists_scan ht hinitial.symm (by omega : _ ≤ 8 * bytes.size)
  refine ⟨slots, hown, ?_, fun hdecodes => ?_⟩
  · rw [hinitial]
    exact hrun bytes _ _ hscan
  · rw [hnew.decode_eq hdecodes hmessage hwf hbytes, hown]

theorem copies_unpack_table : ∃ copies new, Dialect.go.messageCopies false Sample.table = .ok copies ∧
    Sample.newTable.decode (Array.replicate 11 165) = (new, .ok ()) ∧
    copies.foldlM (ByteCopy.unpackStep .go (Array.replicate 11 165)) Sample.newTable.value = some new.value := by
  obtain ⟨n, copies, hn, hcopies, hall⟩ := copies_unpack (l := .go) rfl Sample.table_accepted rfl Sample.newTable_isNew
  have hsize : Sample.table.nbytes = .ok 11 := by decide +kernel
  obtain rfl := Except.ok.inj (hsize.symm.trans hn)
  obtain ⟨slots, -, hrun, hdecode⟩ := hall (Array.replicate 11 165) (by decide)
  exact ⟨copies, _, hcopies, hdecode (.of_free (by decide +kernel) (by decide)), hrun⟩

end BitSchema
