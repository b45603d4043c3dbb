import BitSchema.Proofs.Nesting
import BitSchema.Wire.Codec

/-!
# Packing writes the bits of a value

`Packs run a m i bits x` says that the step `run`, from a machine that stands at bit `i`, gives back `a`, adds
`bits` to the buffer, and leaves everything else as it was but for the position, which is then `x`.  Steps that
pack one after the other pack their bits one after the other (`Packs.bind`).

Arrays and messages are packed in the same frame (`framed`): the announcement of an extensible one, then the
elements or fields, then, when unpacking, a jump over what is not known here.  By induction over layouts every
well-formed type packs the bits that `Ty.wireBits` says (`Ty.WellFormed.packs`), and so does a record as a whole
(`Def.WellFormed.pack_eq`).
-/

namespace BitSchema

open Wire List

variable {ext : Bool}

namespace Wire.Run

variable {α β : Type} {m : Machine} {i : Nat} {xs ys : List Bool} {x y : Indexer Nat}

/-- **The step packs the given bits** from bit `i` on. -/
def Packs (run : Run α) (a : α) (m : Machine) (i : Nat) (bits : List Bool) (x : Indexer Nat) : Prop :=
  ∃ buffer, run m = (.ok a, { m with cursor := ((i + bits.length : Nat) : Int), buffer, indexer := x }) ∧
    Adds m.buffer i bits buffer

/-- **Bits that are packed one after the other.** -/
theorem Packs.bind {run : Run α} {next : α → Run β} {a : α} {b : β} (h : Packs run a m i xs x)
    (hnext : ∀ buffer, Adds m.buffer i xs buffer →
      Packs (next a) b { m with cursor := ((i + xs.length : Nat) : Int), buffer, indexer := x } (i + xs.length)
        ys y) : Packs (run >>= next) b m i (xs ++ ys) y := by
  obtain ⟨buffer₁, hrun₁, hadds₁⟩ := h
  obtain ⟨buffer₂, hrun₂, hadds₂⟩ := hnext buffer₁ hadds₁
  refine ⟨buffer₂, ?_, hadds₁.append hadds₂⟩
  rw [bind_ok hrun₁, hrun₂, length_append, Nat.add_assoc]

theorem packs_pure (a : α) (hm : m.cursor = i) : Packs (pure a) a m i [] m.indexer := by
  refine ⟨m.buffer, ?_, .nil _ _⟩
  rw [length_nil, Nat.add_zero, ← hm]
  rfl

/-- A leaf that holds `d` packs its low bits. -/
theorem packs_leaf {d : Int} {n : Nat} (hpack : m.packing = true) (hm : m.Stands i n)
    (hget : ∀ s, m.accessor.getByte m.indexer s = .ok (byteAt d s)) :
    Packs (leaf n) () m i (intBits d 0 n) m.indexer := by
  obtain ⟨buffer, hrun, hadds⟩ := leaf_pack hpack hm hget
  exact ⟨buffer, by rw [hrun, length_intBits], hadds⟩

theorem packs_announce (n : Int) (hpack : m.packing = true) (hm : m.Stands i 16) :
    Packs (announce n) 0 m i (intBits n 0 16) m.indexer := by
  have hm' : ({ m with indexer := ⟨1, []⟩, accessor := .int n } : Machine).Stands i 16 := ⟨hm.1, hm.2, hm.3⟩
  obtain ⟨buffer, hrun, hadds⟩ := packs_leaf (m := { m with indexer := ⟨1, []⟩, accessor := .int n })
    hpack hm' fun _ => rfl
  refine ⟨buffer, ?_, hadds⟩
  rw [announce, get_bind, if_pos hpack, aheadWidth, bind_ok (aside_eq hrun)]
  rfl

/-! ### Frames -/

def announceIf (ext : Bool) (n : Int) : Run Nat := if ext then announce n else pure 0

/-- The jump at the end of something extensible that is unpacked. -/
def skipIf (ext : Bool) (i : Int) : Run Unit := do
  if ext && !(← get).packing then skipTo i

/-- **The frame of an array or a message.** -/
def framed (ext : Bool) (n : Int) (body : Run Unit) (target : Int → Nat → Int) : Run Unit := do
  let start := (← get).cursor
  let ahead ← announceIf ext n
  body
  skipIf ext (target start ahead)

def headBits (ext : Bool) (n : Int) : List Bool := if ext then intBits n 0 16 else []

theorem length_headBits (ext : Bool) (n : Int) : (headBits ext n).length = if ext then aheadBits else 0 := by
  cases ext <;> simp [headBits, aheadBits]

theorem nbits_message (h : Header) (ext : Bool) (ms : Members) :
    (Def.message h ext ms).nbits
      = (headBits ext (Def.message h ext ms).nbits).length + ((orderedFields ms).map fun f => f.ty.nbits).sum := by
  rw [length_headBits, ← fieldBits_eq_ordered]
  rfl

theorem run_array (ext : Bool) (cap : Int) (element : Processor) :
    (Processor.array ext cap element).run
      = inArray (framed ext cap (forElements element.run cap.toNat 0) fun start ahead => start + ahead * cap) := by
  rw [Processor.run]
  cases ext <;> rfl

theorem run_message (ext : Bool) (nbits : Int) (fields : List Processor) :
    (Processor.message ext nbits fields).run
      = inMessage (framed ext nbits (runAll fields) fun start ahead => start + ahead) := by
  rw [Processor.run]
  cases ext <;> rfl

theorem packs_skipIf {target : Int} (hpack : m.packing = true) (hm : m.cursor = i) :
    Packs (skipIf ext target) () m i [] m.indexer := by
  obtain ⟨buffer, hrun, hadds⟩ := packs_pure () hm
  refine ⟨buffer, ?_, hadds⟩
  rw [skipIf, get_bind, if_neg (by simp [hpack])]
  exact hrun

/-- **A frame packs its announcement and then its body.** -/
theorem packs_framed {n : Int} {body : Run Unit} {target : Int → Nat → Int} {bits : List Bool}
    (hpack : m.packing = true) (hm : m.Stands i ((headBits ext n).length + bits.length))
    (hbody : ∀ buffer, Adds m.buffer i (headBits ext n) buffer →
      Packs body () { m with cursor := ((i + (headBits ext n).length : Nat) : Int), buffer }
        (i + (headBits ext n).length) bits x) :
    Packs (framed ext n body target) () m i (headBits ext n ++ bits) x := by
  have hhead : Packs (announceIf ext n) 0 m i (headBits ext n) m.indexer := by
    cases ext with
    | false => exact packs_pure 0 hm.cursor_eq
    | true =>
      have h16 : (headBits true n).length = 16 := length_headBits true n
      exact packs_announce n hpack (hm.within hm.cursor_eq rfl (by omega))
  have hrest : Packs
      (announceIf ext n >>= fun ahead => body >>= fun _ => skipIf ext (target m.cursor ahead)) ()
      m i (headBits ext n ++ (bits ++ [])) x :=
    hhead.bind fun buffer hadds => (hbody buffer hadds).bind fun buffer _ => packs_skipIf hpack rfl
  rw [append_nil] at hrest
  exact hrest

theorem length_flatMap_range {width : Nat} {bits : Nat → List Bool} (hwidth : ∀ k, (bits k).length = width) (n : Nat) :
    ((List.range n).flatMap bits).length = n * width := by
  rw [length_flatMap, map_congr_left fun a _ => hwidth a]
  simp

/-- **The elements of an array pack their bits** in order. -/
theorem packs_forElements {run : Run Unit} {cap width : Nat} {bits : Nat → List Bool}
    (hm : m.Stands i (cap * width)) (hx : m.indexer = x.push 0) (hwidth : ∀ j, (bits j).length = width)
    (helement : ∀ j < cap, ∀ (i' : Nat) buffer,
      ({ m with cursor := (i' : Int), buffer, indexer := x.push j } : Machine).Stands i' width →
        Packs run () { m with cursor := (i' : Int), buffer, indexer := x.push j } i' (bits j) (x.push j)) :
    Packs (forElements run cap 0) () m i ((List.range cap).flatMap bits) (x.push (cap - 1)) := by
  -- after `j` elements their bits have been added, and the position is at the last of them
  let inv (j : Nat) (m' : Machine) : Prop := ∃ buffer,
    m' = { m with
      cursor := ((i + ((List.range j).flatMap bits).length : Nat) : Int), buffer, indexer := x.push (j - 1) } ∧
      Adds m.buffer i ((List.range j).flatMap bits) buffer
  have start : inv 0 m := by
    refine ⟨m.buffer, ?_, .nil _ _⟩
    rw [Nat.zero_sub, ← hx, range_zero, flatMap_nil, length_nil, Nat.add_zero, ← hm.cursor_eq]
  have step (j : Nat) (m' : Machine) (_ : 0 ≤ j) (hj : j < 0 + cap) (h : inv j m') :
      ∃ m'', (toElement j >>= fun _ => run) m' = (.ok (), m'') ∧ inv (j + 1) m'' := by
    obtain ⟨buffer, rfl, hadds⟩ := h
    have hle : j * width + width ≤ cap * width := by
      rw [← Nat.succ_mul]
      exact Nat.mul_le_mul_right _ (by omega)
    have hstands : ({ m with
        cursor := ((i + ((List.range j).flatMap bits).length : Nat) : Int)
        buffer, indexer := x.push j } : Machine).Stands (i + ((List.range j).flatMap bits).length) width :=
      hm.within rfl hadds.size_eq (by rw [length_flatMap_range hwidth]; omega)
    obtain ⟨buffer', hrun, hadds'⟩ := helement j (by omega) _ buffer hstands
    refine ⟨_, (bind_ok (toElement_eq j rfl)).trans hrun, buffer', ?_, ?_⟩
    · rw [range_succ, flatMap_append, flatMap_singleton, length_append, Nat.add_assoc,
        Nat.add_sub_cancel]
    · rw [range_succ, flatMap_append, flatMap_singleton]
      exact hadds.append hadds'
  obtain ⟨m', hrun, buffer, rfl, hadds⟩ := forElements_induction step start
  rw [Nat.zero_add] at hrun hadds
  exact ⟨buffer, hrun, hadds⟩

end Wire.Run

open Wire.Run Wire.Accessor

/-! ### Types -/

/-- **A type packs its values**: wherever a value of the type is in its place, the layout of the type packs the
bits of the value. -/
def Ty.Packs (t : Ty) : Prop :=
  ∀ (v : Value) (m : Machine) (i : Nat), t.Holds (fun _ _ _ => True) v → m.packing = true → m.Stands i t.nbits →
    0 < m.indexer.field → At m.accessor m.indexer t.access v →
      Run.Packs t.processor.run () m i (t.wireBits v) m.indexer

variable {ms : Members} {title : String} {slots : List (Slot × Value)}

theorem Ty.LeafOf.packs {t : Ty} {kind : Leaf} {width : Nat} (ht : t.LeafOf kind width) : t.Packs := by
  intro v m i hv hpack hm _ hat
  obtain ⟨n, hn, -⟩ := (ht.holds_iff _ v).1 hv
  rw [ht.access_eq] at hat
  rw [ht.nbits_eq] at hm
  have hlow : v.lowBits width = intBits n 0 width := by rw [Value.lowBits, hn, Option.getD_some]
  rw [ht.run_eq, ht.wireBits_eq, hlow]
  exact packs_leaf hpack hm fun s => getByte_of_at hat hn s

/-- **The fields of a record pack their bits** one after the other. -/
theorem packs_fields (hrec : (Value.record title slots).IsRecordOf ms) (hnumbered : Numbered ms)
    (hholds : ∀ f ∈ fieldsOf ms, ∃ x, (Value.record title slots).part? f.number = some x ∧
      f.ty.Holds (fun _ _ _ => True) x)
    {fs : List Field} (hfs : ∀ f ∈ fs, f ∈ fieldsOf ms ∧ f.ty.Packs) {m : Machine} {i : Nat}
    (hpack : m.packing = true) (hm : m.Stands i (fs.map fun f => f.ty.nbits).sum)
    (haccessor : m.accessor = .record title slots) :
    Run.Packs (runAll (fs.map fun f => .field f.number f.ty.processor)) () m i
      (fs.flatMap fun f => f.wireBits (.record title slots)) m.indexer := by
  -- `fs` are the fields that are still to be packed, and the record stays the same
  induction fs generalizing m i with
  | nil =>
    rw [map_nil, runAll]
    exact packs_pure () hm.cursor_eq
  | cons f fs ih =>
    obtain ⟨hf, hpacks⟩ := hfs f (mem_cons_self ..)
    obtain ⟨x, hx, hxholds⟩ := hholds f hf
    obtain ⟨y, honly, hy⟩ := only_of_isRecordOf hrec hnumbered hf
    obtain rfl : x = y := Option.some.inj (hx.symm.trans hy)
    have hbits : f.wireBits (.record title slots) = f.ty.wireBits x := by
      rw [Field.wireBits, hx, Option.getD_some]
    have hlength : (f.wireBits (.record title slots)).length = f.ty.nbits := Ty.length_wireBits _ _
    rw [map_cons, sum_cons] at hm
    have hstands : ({ m with indexer := ⟨f.number, []⟩ } : Machine).Stands i f.ty.nbits :=
      hm.within hm.cursor_eq rfl (by omega)
    have hat : At m.accessor ⟨f.number, []⟩ f.ty.access x := by
      rw [haccessor]
      exact at_field honly
    -- the field itself
    have hfield : Run.Packs (Processor.field f.number f.ty.processor).run () m i
        (f.wireBits (.record title slots)) m.indexer := by
      obtain ⟨buffer, hrun, hadds⟩ := hpacks x { m with indexer := ⟨f.number, []⟩ } i hxholds hpack hstands
        (Int.natCast_pos.2 (hnumbered.pos f hf)) hat
      rw [Processor.run, hbits]
      exact ⟨buffer, inField_eq hrun, hadds⟩
    rw [map_cons, flatMap_cons, runAll]
    refine hfield.bind fun buffer hadds => ?_
    exact ih (fun g hg => hfs g (mem_cons_of_mem _ hg)) hpack (hm.within rfl hadds.size_eq (by omega)) haccessor

/-- **The body of a message packs** its announcement and its fields, inside the record. -/
theorem packs_message {h : Header} (hwf : (Def.message h ext ms).WellFormed)
    (htypes : ∀ f ∈ fieldsOf ms, f.ty.Packs)
    (hv : (Def.message h ext ms).Holds (fun _ _ _ => True) (.record title slots)) {m : Machine} {i : Nat}
    (hpack : m.packing = true) (hm : m.Stands i (Def.message h ext ms).nbits)
    (haccessor : m.accessor = .record title slots) :
    Run.Packs (framed ext (Def.message h ext ms).nbits
        (runAll ((orderedFields ms).map fun f => .field f.number f.ty.processor)) fun start ahead => start + ahead) ()
      m i ((Def.message h ext ms).wireBits (.record title slots)) m.indexer := by
  obtain ⟨hrec, hholds⟩ := holds_message.1 hv
  have hnbits := nbits_message h ext ms
  have hlength : ((orderedFields ms).flatMap fun f => f.wireBits (.record title slots)).length
      = ((orderedFields ms).map fun f => f.ty.nbits).sum := by
    rw [length_flatMap]
    exact congrArg List.sum (map_congr_left fun f _ => Ty.length_wireBits _ _)
  rw [wireBits_message]
  refine packs_framed hpack (hm.within hm.cursor_eq rfl (by omega)) fun buffer hadds => ?_
  refine packs_fields hrec hwf.numbered hholds (fun f hf => ?_) hpack (hm.within rfl hadds.size_eq (by omega))
    haccessor
  have hf := mem_orderedFields.1 hf
  exact ⟨hf, htypes f hf⟩

/-- **Every well-formed type packs its values.** -/
theorem Ty.WellFormed.packs {t : Ty} (hwf : t.WellFormed) : t.Packs := by
  induction t, hwf using Ty.WellFormed.induction with
  | leaf t kind width hwf ht => exact ht.packs
  | typeAlias h target hwf ih =>
    intro v m i hv hpack hm hfield hat
    rw [Ty.processor, Def.processor, Processor.run]
    exact ih v m i hv hpack hm hfield hat
  | array o element cap ext hwf ih =>
    intro v m i hv hpack hm hfield hat
    obtain ⟨hsize, hitems⟩ := hv
    let bits (k : Nat) : List Bool := element.wireBits ((v.item? k).getD (.int 0))
    have hwidth (k : Nat) : (bits k).length = element.nbits := Ty.length_wireBits _ _
    have hlength := length_flatMap_range hwidth cap
    rw [Ty.nbits, ← length_headBits ext cap] at hm
    have hframed : Run.Packs (framed ext cap (forElements element.processor.run cap 0)
        fun start ahead => start + ahead * cap) () { m with indexer := m.indexer.push 0 } i
        (headBits ext cap ++ (List.range cap).flatMap bits) (m.indexer.push (cap - 1)) := by
      rw [← hlength] at hm
      refine packs_framed hpack ⟨hm.1, hm.2, hm.3⟩ fun buffer hadds => ?_
      refine packs_forElements (hm.within rfl hadds.size_eq (by omega)) rfl hwidth fun j hj i' buffer' hstands => ?_
      -- an element in its place
      obtain ⟨y, hy, hyholds⟩ := hitems j hj
      have helement : v.element j = .ok y := by
        unfold Value.item? at hy
        cases he : v.element j <;> simp_all [Except.toOption]
      have hbits : bits j = element.wireBits y := by simp only [bits, hy, Option.getD_some]
      rw [hbits]
      exact ih y _ i' hyholds hpack hstands hfield (At.item hat helement)
    obtain ⟨buffer, hrun, hadds⟩ := hframed
    rw [Ty.processor, run_array, Int.toNat_natCast, Ty.wireBits]
    exact ⟨buffer, inArray_eq hrun rfl, hadds⟩
  | message h ext ms hwf ih =>
    intro v m i hv hpack hm hfield hat
    obtain ⟨title, own, extra, rfl, -, -⟩ := (holds_message.1 hv).1
    -- the machine is inside the record, packs it and puts it back unchanged
    obtain ⟨buffer, hrun, hadds⟩ := packs_message hwf.2 ih hv
      (m := { m with accessor := .record title (own ++ extra) }) hpack ⟨hm.1, hm.2, hm.3⟩ rfl
    have hback := putChild_of_putAt hat hat.putAt_self
    rw [Ty.processor, processor_message, run_message]
    refine ⟨buffer, ?_, hadds⟩
    rw [inMessage_eq hfield (child_of_at hat) hrun]
    simp only [hback]
    rfl

/-- **A record is packed into its bits**, and the rest of the buffer stays empty. -/
theorem Def.WellFormed.pack_eq {h : Header} {size : Nat} (hwf : (Def.message h ext ms).WellFormed)
    (hv : (Def.message h ext ms).Fits (.record title slots)) (hsize : (Def.message h ext ms).nbits ≤ 8 * size) :
    ∃ bytes, Wire.pack (Def.message h ext ms).processor (Array.replicate size 0) title slots = .ok bytes ∧
      bytes.size = size ∧
      ∀ k, bitAt bytes k = ((Def.message h ext ms).wireBits (.record title slots))[k]?.getD false := by
  have htypes (f : Field) (hf : f ∈ fieldsOf ms) : f.ty.Packs := (hwf.field hf).2.2.packs
  -- a message has at most 65535 bits, so that their number is never rounded
  have hstands : ({
      packing := true, buffer := Array.replicate size 0, cursor := 0, indexer := .top
      accessor := .record title slots } : Machine).Stands 0 (Def.message h ext ms).nbits := by
    refine ⟨rfl, ?_, ?_⟩
    · simpa using hsize
    · have := hwf.nbits_le
      omega
  obtain ⟨buffer, hrun, hadds⟩ := packs_message hwf htypes hv rfl hstands rfl
  refine ⟨buffer, ?_, ?_, fun k => ?_⟩
  · rw [processor_message, Wire.pack, run_message, inMessage_top _ rfl, hrun]
  · simpa using hadds.size_eq
  · simpa using hadds.bitAt_eq k

end BitSchema
