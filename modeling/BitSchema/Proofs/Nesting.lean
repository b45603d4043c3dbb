import BitSchema.Proofs.LeafCopy
import BitSchema.Proofs.Place
import BitSchema.Proofs.WellFormed

/-!
# Leaves, arrays, fields and records of a running machine

How a machine moves between the parts of a message.  A leaf in its place gives its bytes
(`getByte_of_at`), a record in its place is entered and left (`child_of_at`, `putChild_of_putAt`), and the
steps of a run that go into an array, a field or a record put back what they change (`inArray_eq`,
`inField_eq`, `inMessage_eq`).  `forElements_induction` is the induction over the elements of an array.
-/

namespace BitSchema

open Wire

/-! ### Types of single leaves -/

/-- Widths that leaves of a kind can have. -/
def Wire.Leaf.Suits : Leaf → Nat → Prop
  | .bool, width => width = 1
  | .unsigned, width => 0 < width
  | .signed n, width => n = width ∧ 0 < width

/-- What a leaf of a kind is before anything is set. -/
def Wire.Leaf.zero : Leaf → Value
  | .bool => .bool false
  | _ => .int 0

/-- The kind and the width of the leaves of a type whose values are single leaves. -/
def Ty.leaf? : Ty → Option (Leaf × Nat)
  | .bool _ => some (.bool, 1)
  | .byte _ => some (.unsigned, 8)
  | .uint _ cap => some (.unsigned, cap)
  | .int _ cap => some (.signed cap, cap)
  | .named (.enum _ _ cap _) => some (.unsigned, cap)
  | _ => none

/-- **A type whose values are single leaves** of a kind and width. -/
structure Ty.LeafOf (t : Ty) (kind : Leaf) (width : Nat) : Prop where
  leaf_eq : t.leaf? = some (kind, width)
  suits : kind.Suits width
  run_eq : t.processor.run = Run.leaf width
  access_eq : t.access = some (.leaf 0 kind)
  nbits_eq : t.nbits = width
  initial_eq : ∀ title, t.initialBy title = kind.zero
  wireBits_eq : ∀ v, t.wireBits v = v.lowBits width
  holds_iff : ∀ ok v, t.Holds ok v ↔ v.IsLeaf (ok kind width)
  agree_iff : ∀ v w, t.Agree v w ↔ v.IsLeaf fun n => w.asInt? = some n

theorem Wire.Leaf.Suits.pos {kind : Leaf} {width : Nat} (h : kind.Suits width) : 0 < width := by
  cases kind with
  | bool => exact h ▸ Nat.one_pos
  | unsigned => exact h
  | signed w => exact h.2

theorem Ty.WellFormed.leafOf {t : Ty} {kind : Leaf} {width : Nat} (hwf : t.WellFormed)
    (h : t.leaf? = some (kind, width)) : t.LeafOf kind width := by
  cases t with
  | unknown o missing => cases h
  | array o element cap ext => cases h
  | named d =>
    cases d with
    | enum hd o cap ms =>
      cases h
      exact ⟨rfl, hwf.2.1, by rw [Ty.processor, Def.processor, Processor.run], rfl, rfl, fun _ => rfl, fun _ => rfl,
        fun _ _ => .rfl, fun _ _ => .rfl⟩
    | _ => cases h
  | _ =>
    cases h
    refine ⟨rfl, ?_, by rw [Ty.processor, Processor.run], rfl, rfl, fun _ => rfl, fun _ => rfl, fun _ _ => .rfl,
      fun _ _ => .rfl⟩
    grind [Leaf.Suits, Ty.WellFormed]

/-- **Values that the place of a leaf must take** while the leaf is unpacked. -/
def Wire.Leaf.Takes (width : Nat) : Leaf → Value → Prop
  | .bool, v => ∃ b, v = .bool b
  | .unsigned, v => ∃ n : Int, v = .int n ∧ 0 ≤ n ∧ n < weight width
  | .signed _, v => ∃ n, v = .int n

/-- **Values that the place of a type must take** while it is unpacked.  A single byte may stand in a row of bytes,
which takes nothing but bytes. -/
def Ty.Admits : Ty → Value → Prop
  | .byte _, v => ∃ n : Int, v = .int n ∧ 0 ≤ n ∧ n < 256
  | _, _ => True

theorem Ty.LeafOf.admits {t : Ty} {kind : Leaf} {width : Nat} {v : Value} (ht : t.LeafOf kind width)
    (hv : kind.Takes width v) : t.Admits v := by
  have hleaf := ht.leaf_eq
  cases t with
  | byte o =>
    cases hleaf
    exact hv
  | _ => trivial

/-- **Induction over well-formed types**: leaves, arrays, aliases and messages. -/
theorem Ty.WellFormed.induction {motive : (t : Ty) → t.WellFormed → Prop}
    (leaf : ∀ t kind width hwf, t.LeafOf kind width → motive t hwf)
    (array : ∀ o element cap ext (hwf : (Ty.array o element cap ext).WellFormed),
      motive element hwf.2.2.2 → motive (.array o element cap ext) hwf)
    (typeAlias : ∀ h target (hwf : (Ty.named (.typeAlias h target)).WellFormed),
      motive target hwf.2.2 → motive (.named (.typeAlias h target)) hwf)
    (message : ∀ h ext ms (hwf : (Ty.named (.message h ext ms)).WellFormed),
      (∀ f (hf : f ∈ fieldsOf ms), motive f.ty (hwf.2.field hf).2.2) → motive (.named (.message h ext ms)) hwf)
    (t : Ty) (hwf : t.WellFormed) : motive t hwf := by
  induction t using Ty.layoutInduction with
  | unknown o missing => exact hwf.elim
  | bool o => exact leaf _ .bool 1 hwf (hwf.leafOf rfl)
  | byte o => exact leaf _ .unsigned 8 hwf (hwf.leafOf rfl)
  | uint o cap => exact leaf _ .unsigned cap hwf (hwf.leafOf rfl)
  | int o cap => exact leaf _ (.signed cap) cap hwf (hwf.leafOf rfl)
  | enum h o cap ms => exact leaf _ .unsigned cap hwf (hwf.leafOf rfl)
  | typeAlias h target ih => exact typeAlias h target hwf (ih hwf.2.2)
  | array o element cap ext ih => exact array o element cap ext hwf (ih hwf.2.2.2)
  | message h ext ms ih => exact message h ext ms hwf fun f hf => ih f hf (hwf.2.field hf).2.2
  | other d hd => exact absurd hwf.1 (by simp [hd])

end BitSchema

namespace BitSchema.Wire

open Accessor

variable {a a' : Accessor} {x : Indexer Nat} {v w : Value}

/-! ### Leaves in their places -/

variable {title : String} {slots : List (Slot × Value)} {ms : Members} {f : Field}

theorem indices_eq (x : Indexer Nat) : indices x x.stack.length = .ok x.stack := by
  simp [indices]

/-- **A leaf gives its bytes.** -/
theorem getByte_of_at {kind : Leaf} {n : Int} (hat : At a x (some (.leaf 0 kind)) v)
    (hv : v.asInt? = some n) (s : Nat) : a.getByte x s = .ok (byteAt n s) := by
  obtain ⟨title, slots, ⟨number, name, access⟩, root, rfl, honly, haccess, hfollow⟩ := hat
  obtain rfl : access = some (.leaf x.stack.length kind) := by
    simpa [Access.under] using haccess
  simp only [getByte, honly.slot?_eq, indices_eq, bind, Except.bind, hfollow, leafByte, hv]

/-- **A number takes a byte**, where the result can be put. -/
theorem setByte_of_putAt {kind : Leaf} {n : Int} {s b : Nat} (hkind : kind ≠ .bool)
    (hat : At a x (some (.leaf 0 kind)) (.int n))
    (hput : PutAt a x (.int (orInt n (leafBits kind s b))) a') : a.setByte x s b = .ok a' := by
  obtain ⟨title, slots, ⟨number, name, access⟩, root, rfl, honly, haccess, hfollow⟩ := hat
  obtain ⟨root', hputs, rfl⟩ := hput.of_only honly
  obtain rfl : access = some (.leaf x.stack.length kind) := by
    simpa [Access.under] using haccess
  have hupdate : root.update (addByte kind s b) x.stack = .ok root' := by
    rw [Value.update_congr hfollow (g := fun _ => .ok (.int (orInt n (leafBits kind s b)))) rfl,
      hputs.update_eq]
  cases kind with
  | bool => exact absurd rfl hkind
  | unsigned => simp [setByte, honly.slot?_eq, indices_eq, bind, Except.bind, hupdate, pure, Except.pure]
  | signed width => simp [setByte, honly.slot?_eq, indices_eq, bind, Except.bind, hupdate, pure, Except.pure]

/-- **A truth value is replaced** by a byte, where the result can be put. -/
theorem setByte_bool_of_putAt {s b : Nat} (hat : At a x (some (.leaf 0 .bool)) v)
    (hput : PutAt a x (.bool (b != 0)) a') : a.setByte x s b = .ok a' := by
  obtain ⟨title, slots, ⟨number, name, access⟩, root, rfl, honly, haccess, hfollow⟩ := hat
  obtain ⟨root', hputs, rfl⟩ := hput.of_only honly
  obtain rfl : access = some (.leaf x.stack.length .bool) := by
    simpa [Access.under] using haccess
  have hassign : root.assign (.bool (b != 0)) x.stack = .ok root' := by
    rw [Value.assign_eq_update _ hfollow, hputs.update_eq]
  simp [setByte, honly.slot?_eq, indices_eq, bind, Except.bind, hassign, pure, Except.pure]

/-! ### Records in their places -/

/-- **A record is entered.** -/
theorem child_of_at (hat : At a x (some (.child 0)) (.record title slots)) :
    a.child x = .ok (.record title slots) := by
  obtain ⟨title₁, slots₁, ⟨number, name, access⟩, root, rfl, honly, haccess, hfollow⟩ := hat
  obtain rfl : access = some (.child x.stack.length) := by
    simpa [Access.under] using haccess
  simp [child, honly.slot?_eq, indices_eq, bind, Except.bind, hfollow, pure, Except.pure]

/-- **A record is left** by putting it back. -/
theorem putChild_of_putAt (hat : At a x (some (.child 0)) v) (hput : PutAt a x (.record title slots) a') :
    a.putChild x (.record title slots) = a' := by
  obtain ⟨title₁, slots₁, ⟨number, name, access⟩, root, rfl, honly, haccess, -⟩ := hat
  obtain ⟨root', hputs, rfl⟩ := hput.of_only honly
  obtain rfl : access = some (.child x.stack.length) := by
    simpa [Access.under] using haccess
  simp [putChild, honly.slot?_eq, hputs.update_eq]

theorem only_of_isRecordOf (hrec : (Value.record title slots).IsRecordOf ms) (hnumbered : Numbered ms)
    (hf : f ∈ fieldsOf ms) :
    ∃ y, Only slots f.number (f.slot, y) ∧ (Value.record title slots).part? f.number = some y := by
  obtain ⟨title₁, own, extra, heq, hown, hextra⟩ := hrec
  cases heq
  have hnumbers : (own.map fun e => e.1.number).Nodup := by
    have hmap : own.map (fun e => e.1.number) = (orderedFields ms).map Field.number := by
      have := congrArg (List.map Slot.number) hown
      simpa [List.map_map, Function.comp_def, Field.slot] using this
    rw [hmap]
    exact hnumbered.nodup_ordered
  have hslot : f.slot ∈ own.map (·.1) := by
    rw [hown]
    exact List.mem_map_of_mem (mem_orderedFields.2 hf)
  obtain ⟨⟨s, y⟩, hmem, hs⟩ := List.mem_map.1 hslot
  obtain rfl : s = f.slot := hs
  have honly : Only (own ++ extra) f.number (f.slot, y) := by
    refine ⟨List.mem_append_left _ hmem, rfl, fun e' he' hnum => ?_⟩
    have hnum : e'.1.number = f.number := by exact_mod_cast hnum
    rcases List.mem_append.1 he' with hin | hin
    · exact List.inj_on_of_nodup_map hnumbers hin hmem hnum
    · -- further values have the number 0, which is that of no field
      have hzero := hextra e' hin
      have hpos := hnumbered.pos f hf
      simp [Slot.isField] at hzero
      omega
  exact ⟨y, honly, by simp [Value.part?, honly.slot?_eq]⟩

theorem isRecordOf_of_slots (name : String) (h : slots.map (·.1) = (orderedFields ms).map Field.slot) :
    (Value.record name slots).IsRecordOf ms :=
  ⟨name, slots, [], by rw [List.append_nil], h, fun _ he => absurd he List.not_mem_nil⟩

theorem part?_of_mem (name : String) {y : Value} (hslots : slots.map (·.1) = (orderedFields ms).map Field.slot)
    (hnumbered : Numbered ms) (hf : f ∈ fieldsOf ms) (hmem : (f.slot, y) ∈ slots) :
    (Value.record name slots).part? f.number = some y := by
  obtain ⟨z, honly, hz⟩ := only_of_isRecordOf (isRecordOf_of_slots name hslots) hnumbered hf
  rw [hz, (Prod.mk.inj (honly.unique _ hmem rfl)).2]

/-- **A field of a record is in its place.** -/
theorem at_field {y : Value} (honly : Only slots f.number (f.slot, y)) :
    At (.record title slots) ⟨f.number, []⟩ f.ty.access y := by
  refine ⟨title, slots, f.slot, y, rfl, honly, ?_, rfl⟩
  show f.ty.access = f.ty.access.map (Access.under 0)
  cases f.ty.access with
  | none => rfl
  | some access => cases access <;> rfl

namespace Run

variable {m m' : Machine}

/-! ### Steps that put back what they change -/

variable {run : Run Unit}

theorem toElement_eq {x : Indexer Nat} {j : Nat} (k : Nat) (hm : m.indexer = x.push j) :
    toElement k m = (.ok (), { m with indexer := x.push k }) := by
  have h : m.indexer.replace k = .ok (x.push k) := by rw [hm]; simp [Indexer.replace, Indexer.push]
  rw [toElement, get_bind, ofExcept_bind h]
  rfl

/-- **An array is entered and left.** -/
theorem inArray_eq {k : Nat} (hrun : run { m with indexer := m.indexer.push 0 } = (.ok (), m'))
    (hm' : m'.indexer = m.indexer.push k) :
    inArray run m = (.ok (), { m' with indexer := m.indexer }) := by
  have hdown : m'.indexer.down = .ok m.indexer := by rw [hm']; simp [Indexer.down, Indexer.push]
  have hup : m.indexer.up = m.indexer.push 0 := rfl
  simp only [inArray, hup, hrun, hdown]

/-- **A field is entered and left.** -/
theorem inField_eq {number : Int} {r : Except Fault Unit} (hrun : run { m with indexer := ⟨number, []⟩ } = (r, m')) :
    inField number run m = (r, { m' with indexer := m.indexer }) := by
  simp only [inField, hrun]

/-- **A record is entered and left.** -/
theorem inMessage_eq {inner : Accessor} {r : Except Fault Unit} (hvalid : 0 < m.indexer.field)
    (hchild : m.accessor.child m.indexer = .ok inner) (hrun : run { m with accessor := inner } = (r, m')) :
    inMessage run m = (r, { m' with accessor := m.accessor.putChild m.indexer m'.accessor }) := by
  have h : m.indexer.isValid = true := by simp [Indexer.isValid, hvalid]
  simp only [inMessage, h, if_true, hchild, hrun]

theorem inMessage_top (run : Run Unit) (hm : m.indexer = .top) : inMessage run m = run m := by
  have h : m.indexer.isValid = false := by rw [hm]; rfl
  simp [inMessage, h]

theorem aside_eq {x : Indexer Nat} {a : Accessor} (hrun : run { m with indexer := x, accessor := a } = (.ok (), m')) :
    aside x a run m = (.ok m'.accessor, { m' with indexer := m.indexer, accessor := m.accessor }) := by
  simp only [aside, hrun]

/-! ### Inductions -/

/-- **Induction over the elements of an array.** -/
theorem forElements_induction {inv : Nat → Machine → Prop} {count k : Nat}
    (step : ∀ j m, k ≤ j → j < k + count → inv j m → ∃ m', (toElement j >>= fun _ => run) m = (.ok (), m') ∧
      inv (j + 1) m')
    (h : inv k m) : ∃ m', forElements run count k m = (.ok (), m') ∧ inv (k + count) m' := by
  induction count generalizing k m with
  | zero => exact ⟨m, rfl, h⟩
  | succ count ih =>
    obtain ⟨m₁, hrun₁, h₁⟩ := step k m le_rfl (by omega) h
    obtain ⟨m₂, hrun₂, h₂⟩ := ih (k := k + 1) (fun j m hj hlt => step j m (by omega) (by omega)) h₁
    refine ⟨m₂, ?_, by rwa [show k + (count + 1) = k + 1 + count by omega]⟩
    -- one element and then the others
    have hassoc : forElements run (count + 1) k
        = (toElement k >>= fun _ => run) >>= fun _ => forElements run count (k + 1) := by
      rw [forElements, bind_assoc]
    rw [hassoc, bind_ok hrun₁, hrun₂]

end Run

end BitSchema.Wire
