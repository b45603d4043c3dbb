import BitSchema.Proofs.MissingBits

/-!
# Unpacking is scanning

What unpacking puts into a new record is what `Ty.scan` reads: wherever a value is read from the bits of the buffer, the
machine succeeds, puts this value where it belongs, and stands at the bit after it; where nothing is read, the machine
fails (`Ty.WellFormed.scans`).  Nothing is asked of the bits, so this is also true of bytes that were never packed.

`Def.WellFormed.unpack_eq` and `Def.WellFormed.scan_of_unpack` say the same of records as a whole.
-/

namespace BitSchema

open Wire Wire.Run Wire.Accessor List

/-! ### Outcomes -/

namespace Wire.Machine

variable {α β : Type} {m m₀ : Machine} {read : Option (α × Nat)} {P : α → Accessor → Indexer Nat → Prop}
  {Q : β → Accessor → Indexer Nat → Prop} {out : Except Fault Unit × Machine}

/-- **The outcome of unpacking is what was read**: the machine stands at the bit after it, and `P` says where it was
put. If nothing was read, the machine has failed. -/
def Yields (m : Machine) (read : Option (α × Nat)) (P : α → Accessor → Indexer Nat → Prop)
    (out : Except Fault Unit × Machine) : Prop :=
  match read with
  | some (v, j) => ∃ a x, out = (.ok (), { m with cursor := (j : Int), accessor := a, indexer := x }) ∧ P v a x
  | none => m.buffer.size ≤ 2 ^ 50 → out.1 ≠ .ok ()

/-- The outcome of something around a run, which fails if the run does. -/
theorem Yields.around {read' : Option (β × Nat)} {out' : Except Fault Unit × Machine} (h : m.Yields read P out)
    (hnone : read = none → read' = none) (hfails : out'.1 = .ok () → out.1 = .ok ())
    (hsome : ∀ v j a x, read = some (v, j) →
      out = (.ok (), { m with cursor := (j : Int), accessor := a, indexer := x }) →
      P v a x → m.Yields read' Q out') :
    m.Yields read' Q out' := by
  cases read with
  | none =>
    rw [hnone rfl]
    exact fun hsize hok => h hsize (hfails hok)
  | some r =>
    obtain ⟨a, x, hout, hP⟩ := h
    exact hsome r.1 r.2 a x rfl hout hP

theorem Yields.map (f : α → β) (h : m.Yields read P out) (hPQ : ∀ v a x, P v a x → Q (f v) a x) :
    m.Yields (read.map fun r => (f r.1, r.2)) Q out := by
  refine h.around (fun hnone => by rw [hnone]; rfl) id fun v j a x hread hout hP => ?_
  rw [hread]
  exact ⟨a, x, hout, hPQ v a x hP⟩

theorem Yields.imp {P' : α → Accessor → Indexer Nat → Prop} (h : m.Yields read P out)
    (hPP' : ∀ v a x, P v a x → P' v a x) : m.Yields read P' out := by
  have hmap := h.map id hPP'
  rwa [show (fun r : α × Nat => (id r.1, r.2)) = id from rfl, Option.map_id_fun, id] at hmap

theorem Yields.bind {run : Run Unit} {f : Unit → Run Unit} {k : α × Nat → Option (β × Nat)}
    (h : m.Yields read P (run m₀))
    (hnext : ∀ v j a x, P v a x →
      m.Yields (k (v, j)) Q (f () { m with cursor := (j : Int), accessor := a, indexer := x })) :
    m.Yields (read.bind k) Q ((run >>= f) m₀) := by
  refine h.around (fun hnone => by rw [hnone]; rfl) (fun hok => ?_) fun v j a x hread hout hP => ?_
  · obtain ⟨_, m₁, hrun, -⟩ := of_bind_ok (x := run) (f := f) (m := m₀) (Prod.ext hok rfl)
    rw [hrun]
  · rw [hread, bind_ok hout]
    exact hnext v j a x hP

theorem stands_of_limit {i n : Nat} (hcursor : m.cursor = i) (h : i + n ≤ (Source.ofBytes m.buffer).limit) :
    m.Stands i n :=
  ⟨hcursor, le_trans h (min_le_left _ _), le_trans h (min_le_right _ _)⟩

end Wire.Machine

open Wire.Machine

/-! ### Frames -/

theorem Wire.carries_number (buffer : Array UInt8) (i : Nat) :
    Carries buffer i (headBits true ((Source.ofBytes buffer).number i aheadBits)) := by
  intro k hk
  rw [length_headBits, if_pos rfl] at hk
  have hbit : ((Source.ofBytes buffer).number i aheadBits).testBit k = bitAt buffer (i + k) := by
    rw [Source.testBit_number]
    simp [hk, Source.ofBytes]
  have hk16 : k < 16 := hk
  rw [headBits, if_pos rfl, getElem?_intBits, Nat.zero_add, testBit_natCast, hbit]
  simp [hk16]

/-- **A frame is unpacked as it is read.** -/
theorem framed_scan (ext : Bool) (n : Int) (run : Run Unit) (goal : Int → Nat → Int) (target : Nat → Nat → Nat)
    (body : BitScan Value) {m : Machine} {i : Nat} {P : Value → Accessor → Indexer Nat → Prop}
    (hpack : m.packing = false) (hcursor : m.cursor = i) (hgoal : ∀ ahead, goal i ahead = target i ahead)
    (hbody : ∀ i' : Nat, m.Yields (body i') P (run { m with cursor := (i' : Int) })) :
    m.Yields ((Source.ofBytes m.buffer).framed ext target body i) P (framed ext n run goal m) := by
  cases ext with
  | false =>
    -- nothing is announced, and nothing is passed over
    have hstart : ({ m with cursor := (i : Int) } : Machine) = m := by rw [← hcursor]
    have hframed : framed false n run goal m = (run >>= fun _ => skipIf false (goal m.cursor 0)) m := rfl
    have hrun := (hstart ▸ hbody i).bind (k := some) (Q := P)
      (f := fun _ => skipIf false (goal m.cursor 0)) fun v j a x hP => ⟨a, x, skipIf_unpack false _ hpack, hP⟩
    rwa [Option.bind_fun_some, ← hframed] at hrun
  | true =>
    rw [Source.framed, if_pos rfl]
    split
    · next hlimit =>
      let size := (Source.ofBytes m.buffer).number i aheadBits
      have hsize : size < 65536 := Source.number_lt _ i 16
      have hlength : (headBits true size).length = aheadBits := length_headBits true size
      have hstands : m.Stands i (headBits true size).length := by
        rw [hlength]
        exact stands_of_limit hcursor hlimit
      have hframed : framed true n run goal m = _ := framed_announced hsize hpack hstands (carries_number m.buffer i)
      rw [hframed, hlength, Option.map_eq_bind]
      refine (hbody (i + aheadBits)).bind fun v j a x hP => ⟨a, x, ?_, hP⟩
      rw [skipIf_unpack true _ (by exact hpack), if_pos rfl, hgoal]
      push_cast
      rfl
    · next hlimit =>
      intro hsize hok
      have hrun : framed true n run goal m = (.ok (), (framed true n run goal m).2) := Prod.ext hok rfl
      rw [framed, get_bind] at hrun
      obtain ⟨ahead, m₁, hannounce, -⟩ := of_bind_ok hrun
      exact hlimit (room_of_announce hsize hpack hcursor hannounce)

/-! ### Places -/

/-- **A machine that is about to unpack** into a place of a type where nothing has been set. -/
structure Ty.Ready (title : Def → String) (t : Ty) (m : Machine) (i : Nat) : Prop where
  unpacking : m.packing = false
  cursor_eq : m.cursor = i
  field_pos : 0 < m.indexer.field
  initial : At m.accessor m.indexer t.access (t.initialBy title)
  free : t.Free m.accessor m.indexer

/-- **A type is unpacked as it is read.** -/
def Ty.Scans (title : Def → String) (t : Ty) : Prop :=
  ∀ (m : Machine) (i : Nat), t.Ready title m i → m.Yields (t.scan title (.ofBytes m.buffer) i)
    (fun v a x => x = m.indexer ∧ PutAt m.accessor m.indexer v a ∧ t.Admits v) (t.processor.run m)

/-- **A single leaf is unpacked as it is read.** -/
theorem Ty.LeafOf.scans {title : Def → String} {t : Ty} {kind : Leaf} {width : Nat} (ht : t.LeafOf kind width) :
    t.Scans title := by
  intro m i hm
  rw [Ty.scan_leaf _ _ ht.leaf_eq, Source.leaf, ht.run_eq]
  split
  · next hlimit =>
    have hlt := (Source.ofBytes m.buffer).number_lt i width
    have hrange := Leaf.range_ofNumber ht.suits hlt
    have hstands := stands_of_limit hm.cursor_eq hlimit
    have hcarries : Carries m.buffer i (intBits (kind.ofNumber ((Source.ofBytes m.buffer).number i width)) 0 width) := by
      intro k hk
      rw [length_intBits] at hk
      rw [getElem?_intBits, Nat.zero_add, Leaf.testBit_ofNumber ht.suits hlt hk, Source.testBit_number]
      simp [hk, Source.ofBytes]
    have hfree (v : Value) (hv : kind.Takes width v) := hm.free v (ht.admits hv)
    have hat := hm.initial
    rw [ht.access_eq, ht.initial_eq] at hat
    generalize kind.ofNumber ((Source.ofBytes m.buffer).number i width) = d at hrange hcarries
    cases hkind : kind with
    | bool =>
      subst hkind
      obtain rfl : width = 1 := ht.suits
      obtain ⟨a, hrun, hput⟩ := bool_unpack hrange hm.unpacking hstands hcarries hat hfree
      exact ⟨a, _, hrun, rfl, hput, ht.admits ⟨_, rfl⟩⟩
    | _ =>
      have hne : kind ≠ .bool := by simp [hkind]
      have hzero : kind.zero = .int 0 := by rw [hkind]; rfl
      rw [hzero] at hat
      obtain ⟨a, hrun, hput⟩ := number_unpack ht.suits hne hrange hm.unpacking hstands hcarries hat hfree
      refine ⟨a, _, hrun, rfl, hput, ht.admits ?_⟩
      have htakes := takes_partly hne hrange width
      rwa [partly_width] at htakes
  · next hlimit =>
    intro hsize hok
    exact hlimit (room_of_leaf ht.suits.pos hsize hm.unpacking hm.cursor_eq (Prod.ext hok rfl))

/-! ### Arrays -/

section

variable {title : Def → String} {element : Ty} {x : Indexer Nat} {v₀ : Value} {a₀ : Accessor}

/-- **One element of an array is unpacked as it is read**, those before it being done. -/
theorem element_scan (ih : element.Scans title) (hfield : 0 < x.field)
    (hat : At a₀ x (element.access.map Access.deeper) v₀)
    (hfree : ∀ v, ∃ a, PutAt a₀ x v a) {i : Nat} {done rest : List Value} {m : Machine}
    (hpack : m.packing = false) (hcursor : m.cursor = i) (hindexer : m.indexer = x.push done.length)
    (hput : PutAt a₀ x (element.gather (done ++ element.initialBy title :: rest)) m.accessor) :
    m.Yields (element.scan title (.ofBytes m.buffer) i)
      (fun v a y => y = x.push done.length ∧ PutAt a₀ x (element.gather (done ++ v :: rest)) a)
      (element.processor.run m) := by
  have hat' := hput.at hat
  have hitem : (element.gather (done ++ element.initialBy title :: rest)).element done.length
      = .ok (element.initialBy title) :=
    Ty.element_gather (element.admits_initialBy title) (by simp)
  have hready : element.Ready title m i := by
    refine ⟨hpack, hcursor, by rw [hindexer]; exact hfield, ?_, fun e he => ?_⟩
    · rw [hindexer]
      exact hat'.item hitem
    · obtain ⟨a, ha⟩ := hfree (element.gather (done ++ e :: rest))
      rw [hindexer]
      exact ⟨a, PutAt.item hat' hitem (Ty.setElement_gather he) (Ty.element_gather he (by simp)) (hput.again.2 ha)⟩
  refine (ih m i hready).imp fun v a y hy => ?_
  obtain ⟨rfl, hputv, hadmits⟩ := hy
  rw [hindexer] at hputv
  obtain ⟨c, hset, -, hputc⟩ := PutAt.of_item hat' hitem hputv
  obtain rfl := Except.ok.inj ((Ty.setElement_gather hadmits).symm.trans hset)
  exact ⟨hindexer, hput.again.1 hputc⟩

/-- **The elements of an array are unpacked as they are read**, those before them being done. -/
theorem forElements_scan (ih : element.Scans title) (hfield : 0 < x.field)
    (hat : At a₀ x (element.access.map Access.deeper) v₀) (hfree : ∀ v, ∃ a, PutAt a₀ x v a) {count k i : Nat}
    (done : List Value) {m : Machine} (hpack : m.packing = false) (hcursor : m.cursor = i)
      (hindexer : m.indexer = x.push k)
    (hput : PutAt a₀ x (element.gather (done ++ List.replicate count (element.initialBy title))) m.accessor) :
    m.Yields (scanAll (List.replicate count (element.scan title (.ofBytes m.buffer))) i)
      (fun vs a y => (∃ k', y = x.push k') ∧ PutAt a₀ x (element.gather (done ++ vs)) a)
      (forElements element.processor.run count done.length m) := by
  induction count generalizing k i done m with
  | zero =>
    refine ⟨m.accessor, m.indexer, ?_, ⟨k, hindexer⟩, hput⟩
    rw [← hcursor]
    rfl
  | succ count ih' =>
    rw [replicate_succ] at hput ⊢
    rw [forElements, bind_ok (toElement_eq done.length hindexer)]
    -- one element in its place, and then the others
    refine (element_scan (m := { m with indexer := x.push done.length }) ih hfield hat hfree hpack hcursor rfl hput).bind
      fun v j a y hy => ?_
    obtain ⟨rfl, hnext⟩ := hy
    rw [append_cons] at hnext
    have hrest := ih' (k := done.length) (i := j) (done ++ [v])
      (m := { m with cursor := (j : Int), accessor := a, indexer := x.push done.length }) hpack rfl rfl hnext
    rw [length_append, length_singleton] at hrest
    refine hrest.map (v :: ·) fun vs a' y' hy' => ⟨hy'.1, ?_⟩
    rw [append_cons]
    exact hy'.2

end

variable {title : Def → String} {ext : Bool} {done rest : List (Slot × Value)} {v : Value} {ms : Members} {f : Field}
  {name : String} {m : Machine} {i j : Nat} {h : Header}

/-- **An array is unpacked as it is read.** -/
theorem scans_array {o : Origin} {element : Ty} {cap : Nat} (ih : element.Scans title) :
    (Ty.array o element cap ext).Scans title := by
  intro m i hm
  have hinitial := hm.initial.putAt_self
  rw [Ty.initialBy_array, ← nil_append (List.replicate cap _)] at hinitial
  have hframed := framed_scan ext cap (forElements element.processor.run cap 0) (fun start ahead => start + ahead * cap)
    (fun start ahead => start + ahead * cap)
    (scanMap element.gather (scanAll (List.replicate cap (element.scan title (.ofBytes m.buffer)))))
    (m := { m with indexer := m.indexer.push 0 }) (P := fun v a x => (∃ k, x = m.indexer.push k) ∧
      PutAt m.accessor m.indexer v a) hm.unpacking hm.cursor_eq
    (fun ahead => by push_cast; rfl) fun i' =>
      (forElements_scan ih hm.field_pos hm.initial (fun v => hm.free v trivial) []
        (m := { m with indexer := m.indexer.push 0, cursor := (i' : Int) }) hm.unpacking rfl rfl hinitial).map _
        fun _ _ _ h => h
  rw [Ty.processor, run_array, Int.toNat_natCast, Ty.scan]
  refine hframed.around id (fun hok => ?_) fun v j a x hread hout hP => ?_
  · obtain ⟨m₁, _, hrun, -⟩ := of_inArray_ok (Prod.ext hok rfl)
    exact congrArg Prod.fst hrun
  · obtain ⟨⟨k, rfl⟩, hput⟩ := hP
    rw [hread]
    exact ⟨a, m.indexer, inArray_eq hout rfl, rfl, hput, trivial⟩

/-! ### Messages -/

theorem Wire.Accessor.setSlot_middle {s : Slot} {y : Value} (h : ∀ e ∈ done ++ rest, e.1.number ≠ s.number) :
    setSlot (done ++ (s, y) :: rest) s.number v = done ++ (s, v) :: rest := by
  have hkeep (l : List (Slot × Value)) (hl : ∀ e ∈ l, e.1.number ≠ s.number) :
      l.map (fun e => if (e.1.number : Int) == s.number then (e.1, v) else e) = l := by
    refine (map_congr_left fun e he => ?_).trans (map_id l)
    have hne : ¬(e.1.number : Int) = s.number := fun heq => hl e he (by exact_mod_cast heq)
    simp [hne]
  unfold setSlot
  rw [map_append, map_cons, hkeep done fun e he => h e (mem_append_left _ he),
    hkeep rest fun e he => h e (mem_append_right _ he)]
  simp

theorem number_ne_of_slots {y : Value} (hnumbered : Numbered ms)
    (hslots : (done ++ (f.slot, y) :: rest).map (·.1) = (orderedFields ms).map Field.slot) :
    ∀ e ∈ done ++ rest, e.1.number ≠ f.slot.number := by
  have hnodup := hnumbered.nodup_ordered
  have hmap : (orderedFields ms).map Field.number = ((orderedFields ms).map Field.slot).map Slot.number := by
    rw [map_map]
    rfl
  rw [hmap, ← hslots, map_map, map_append, map_cons, nodup_middle, ← map_append,
    nodup_cons] at hnodup
  intro e he hnumber
  exact hnodup.1 (mem_map.2 ⟨e, he, hnumber⟩)

/-- **One field is unpacked as it is read**, into its slot. -/
theorem field_scan (hnumbered : Numbered ms)
    (hslots : (done ++ (f.slot, f.ty.initialBy title) :: rest).map (·.1) = (orderedFields ms).map Field.slot)
    (hf : f ∈ fieldsOf ms) (hscans : f.ty.Scans title) (hpack : m.packing = false) (hcursor : m.cursor = i)
    (haccessor : m.accessor = .record name (done ++ (f.slot, f.ty.initialBy title) :: rest)) :
    m.Yields (f.scan title (.ofBytes m.buffer) i)
      (fun s a x => x = m.indexer ∧ s.1 = f.slot ∧ a = .record name (done ++ s :: rest))
      ((Processor.field f.number f.ty.processor).run m) := by
  -- the slot of the field is the only one with its number
  have hready : f.ty.Ready title { m with indexer := ⟨f.number, []⟩ } i := by
    obtain ⟨y, honly, -⟩ := only_of_isRecordOf (isRecordOf_of_slots name hslots) hnumbered hf
    obtain ⟨-, rfl⟩ := Prod.mk.inj (honly.unique (f.slot, f.ty.initialBy title) (by simp) rfl)
    refine ⟨hpack, hcursor, Int.natCast_pos.2 (hnumbered.pos f hf), ?_, fun v _ => ?_⟩
    · show At m.accessor _ _ _
      rw [haccessor]
      exact at_field honly
    · exact ⟨_, name, _, f.slot, _, v, haccessor, honly, ⟨rfl, rfl⟩, rfl⟩
  have hset (v : Value) :
      setSlot (done ++ (f.slot, f.ty.initialBy title) :: rest) f.number v = done ++ (f.slot, v) :: rest :=
    setSlot_middle (number_ne_of_slots hnumbered hslots)
  rw [Processor.run]
  refine (hscans _ i hready).around (fun hnone => by rw [Field.scan, scanMap, hnone]; rfl) id
    fun v j a x hread hout hP => ?_
  obtain ⟨-, hput, -⟩ := hP
  simp only [haccessor] at hput
  obtain rfl := hput.field
  rw [Field.scan, scanMap, hread]
  exact ⟨_, m.indexer, inField_eq hout, rfl, rfl, by rw [hset]⟩

/-- **The fields of a record are unpacked as they are read**, those before them being done. -/
theorem runAll_scan (hnumbered : Numbered ms) {fs : List Field} (done : List (Slot × Value))
    (hfields : done.map (·.1) ++ fs.map Field.slot = (orderedFields ms).map Field.slot)
    (hfs : ∀ f ∈ fs, f ∈ fieldsOf ms ∧ f.ty.Scans title) (hpack : m.packing = false) (hcursor : m.cursor = i)
    (haccessor : m.accessor = .record name (done ++ fs.map fun f => (f.slot, f.ty.initialBy title))) :
    m.Yields (scanAll (fs.map fun f => f.scan title (.ofBytes m.buffer)) i)
      (fun slots a x => x = m.indexer ∧ a = .record name (done ++ slots))
      (runAll (fs.map fun f => .field f.number f.ty.processor) m) := by
  induction fs generalizing done m i with
  | nil =>
    rw [map_nil] at haccessor
    refine ⟨m.accessor, m.indexer, ?_, rfl, haccessor⟩
    rw [← hcursor]
    rfl
  | cons f fs ih =>
    obtain ⟨hf, hscans⟩ := hfs f (mem_cons_self ..)
    have hslots : (done ++ (f.slot, f.ty.initialBy title) :: fs.map fun f => (f.slot, f.ty.initialBy title)).map (·.1)
        = (orderedFields ms).map Field.slot := by
      rw [← hfields, map_append, map_cons, map_map, map_cons]
      rfl
    rw [map_cons, map_cons, runAll]
    refine (field_scan hnumbered hslots hf hscans hpack hcursor haccessor).bind fun s j a x hs => ?_
    obtain ⟨rfl, hslot, rfl⟩ := hs
    have hnext : (done ++ [s]).map (·.1) ++ fs.map Field.slot = (orderedFields ms).map Field.slot := by
      rw [← hfields, map_append, append_assoc, map_singleton, hslot]
      rfl
    refine (ih (done ++ [s]) (m := { m with cursor := (j : Int), accessor := .record name _ }) hnext
      (fun g hg => hfs g (mem_cons_of_mem _ hg)) hpack rfl (by rw [← append_cons])).map (s :: ·)
      fun slots a x hx => ⟨hx.1, ?_⟩
    rw [append_cons]
    exact hx.2

/-- **The body of a message is unpacked as it is read**, inside the record. -/
theorem framed_scan_message (h : Header) (ext : Bool) (hnumbered : Numbered ms)
    (hfields : ∀ f ∈ fieldsOf ms, f.ty.Scans title)
    (hpack : m.packing = false) (hcursor : m.cursor = i)
    (haccessor : m.accessor = .record (title (.message h ext ms)) ((orderedFields ms).map fun f =>
      (f.slot, f.ty.initialBy title))) :
    m.Yields ((Def.message h ext ms).scan title (.ofBytes m.buffer) i)
      (fun v a x => x = m.indexer ∧ ∃ slots, v = .record (title (.message h ext ms)) slots ∧
        a = .record (title (.message h ext ms)) slots)
      (framed ext (Def.message h ext ms).nbits
        (runAll ((orderedFields ms).map fun f => .field f.number f.ty.processor)) (fun start ahead =>
          start + ahead) m) := by
  rw [scan_message]
  refine framed_scan _ _ _ _ _ _ hpack hcursor (fun ahead => by push_cast; rfl) fun i' => ?_
  exact (runAll_scan hnumbered [] (m := { m with cursor := (i' : Int) }) rfl
    (fun f hf => ⟨mem_orderedFields.1 hf, hfields f (mem_orderedFields.1 hf)⟩) hpack rfl haccessor).map _
    fun slots a x hx => ⟨hx.1, slots, rfl, hx.2⟩

/-! ### Types and records -/

/-- **Every well-formed type is unpacked as it is read.** -/
theorem Ty.WellFormed.scans (title : Def → String) {t : Ty} (hwf : t.WellFormed) : t.Scans title := by
  induction t, hwf using Ty.WellFormed.induction with
  | leaf t kind width hwf ht => exact ht.scans
  | typeAlias h target hwf ih =>
    intro m i hm
    rw [Ty.processor, Def.processor, Processor.run]
    exact (ih m i ⟨hm.1, hm.2, hm.3, hm.4, fun v _ => hm.free v trivial⟩).imp fun _ _ _ h => ⟨h.1, h.2.1, trivial⟩
  | array o element cap ext hwf ih => exact scans_array ih
  | message h ext ms hwf ih =>
    intro m i hm
    have hinitial := hm.initial
    rw [Ty.initialBy, initialBy_message] at hinitial
    have hframed := framed_scan_message h ext (m := { m with accessor := .record (title (.message h ext ms)) _ })
      hwf.2.numbered ih hm.unpacking hm.cursor_eq rfl
    rw [Ty.processor, processor_message, run_message,
      inMessage_eq hm.field_pos (child_of_at hinitial) (Prod.eta _).symm, Ty.scan]
    refine hframed.around id id fun v j a x hread hout hP => ?_
    obtain ⟨rfl, slots, rfl, rfl⟩ := hP
    obtain ⟨a, hput⟩ := hm.free (.record (title (.message h ext ms)) slots) trivial
    rw [hread, hout]
    refine ⟨a, m.indexer, ?_, rfl, hput, trivial⟩
    simp only [putChild_of_putAt hinitial hput]

variable {bytes : Array UInt8} {slots₀ slots : List (Slot × Value)}

/-- **The machine unpacks a record as it is read.** -/
theorem Def.WellFormed.yields_unpacking (bytes : Array UInt8) (hwf : (Def.message h ext ms).WellFormed)
    (hnew : (Def.message h ext ms).initialBy title = .record name slots₀) :
    (Machine.unpacking bytes name slots₀).Yields ((Def.message h ext ms).scan title (.ofBytes bytes) 0)
      (fun v a x => x = .top ∧ ∃ slots, v = .record name slots ∧ a = .record name slots)
      ((Def.message h ext ms).processor.run (.unpacking bytes name slots₀)) := by
  rw [initialBy_message] at hnew
  cases hnew
  rw [processor_message, run_message, inMessage_top _ rfl]
  exact framed_scan_message h ext (m := .unpacking bytes (title (.message h ext ms)) _) hwf.numbered
    (fun f hf => (hwf.field hf).2.2.scans title) rfl rfl rfl

/-- **The machine unpacks what is read**, and stops where reading ends. -/
theorem Def.WellFormed.run_eq (hwf : (Def.message h ext ms).WellFormed)
    (hnew : (Def.message h ext ms).initialBy title = .record name slots₀)
    (hscan : (Def.message h ext ms).scan title (.ofBytes bytes) 0 = some (v, j)) :
    ∃ slots, v = .record name slots ∧ (Def.message h ext ms).processor.run (.unpacking bytes name slots₀)
      = (.ok (), { Machine.unpacking bytes name slots₀ with cursor := (j : Int), accessor := .record name slots }) := by
  have hyields := hwf.yields_unpacking bytes hnew
  rw [hscan] at hyields
  obtain ⟨_, _, hrun, rfl, slots, rfl, rfl⟩ := hyields
  exact ⟨slots, rfl, hrun⟩

/-- **A record is unpacked as it is read.** -/
theorem Def.WellFormed.unpack_eq (hwf : (Def.message h ext ms).WellFormed)
    (hnew : (Def.message h ext ms).initialBy title = .record name slots₀)
    (hscan : (Def.message h ext ms).scan title (.ofBytes bytes) 0 = some (v, j)) :
    ∃ slots, v = .record name slots ∧
      Wire.unpack (Def.message h ext ms).processor bytes name slots₀ = (.ok (), slots) := by
  obtain ⟨slots, rfl, hrun⟩ := hwf.run_eq hnew hscan
  refine ⟨slots, rfl, ?_⟩
  rw [Machine.unpacking] at hrun
  rw [Wire.unpack, hrun]

/-- **Whatever the machine unpacks into a record is read.** -/
theorem Def.WellFormed.scan_of_run (hwf : (Def.message h ext ms).WellFormed) (hsize : bytes.size ≤ 2 ^ 50)
    (hnew : (Def.message h ext ms).initialBy title = .record name slots₀)
    (hrun : (Def.message h ext ms).processor.run (.unpacking bytes name slots₀) = (.ok (), m)) :
    ∃ v j, (Def.message h ext ms).scan title (.ofBytes bytes) 0 = some (v, j) := by
  have hyields := hwf.yields_unpacking bytes hnew
  cases hscan : (Def.message h ext ms).scan title (.ofBytes bytes) 0 with
  | some r => exact ⟨r.1, r.2, rfl⟩
  | none =>
    rw [hscan, hrun] at hyields
    exact absurd rfl (hyields hsize)

/-- **A record that is unpacked is the one that is read.** -/
theorem Def.WellFormed.scan_of_unpack (hwf : (Def.message h ext ms).WellFormed)
    (hsize : bytes.size ≤ 2 ^ 50) (hnew : (Def.message h ext ms).initialBy title = .record name slots₀)
    (hunpack : Wire.unpack (Def.message h ext ms).processor bytes name slots₀ = (.ok (), slots)) :
    ∃ j, (Def.message h ext ms).scan title (.ofBytes bytes) 0 = some (.record name slots, j) := by
  have hrun : ((Def.message h ext ms).processor.run (.unpacking bytes name slots₀)).1 = .ok () := by
    rcases hrun : (Def.message h ext ms).processor.run (.unpacking bytes name slots₀) with ⟨r, m⟩
    rw [Machine.unpacking] at hrun
    rw [Wire.unpack, hrun] at hunpack
    dsimp only at hunpack
    split at hunpack
    · exact (Prod.mk.inj hunpack).1
    · exact (Prod.mk.inj hunpack).1
  obtain ⟨v, j, hscan⟩ := hwf.scan_of_run hsize hnew (Prod.ext hrun rfl)
  obtain ⟨slots', rfl, hunpack'⟩ := hwf.unpack_eq hnew hscan
  obtain ⟨-, rfl⟩ := Prod.mk.inj (hunpack.symm.trans hunpack')
  exact ⟨j, hscan⟩

end BitSchema
