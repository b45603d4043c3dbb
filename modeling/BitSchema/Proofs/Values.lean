import BitSchema.Proofs.Bits
import BitSchema.Proofs.Fields

/-!
# Values of types

What it means for a value to be one of a type.

* `Ty.Holds ok t v`: the value has the shape of the type, and `ok` is true of every leaf, given the kind
  and the width of the leaf.  A value `Fits` a type if the leaves are any numbers, and is `InRange` if each
  leaf is within the bounds of its own type.
* `Ty.Agree t v w`: both values have all the leaves of the type, and the same number in each.
* `Ty.wireBits t v`: the bits of a value on the wire, one after the other.

Truth values count as the numbers zero and one.  It can be decided whether a value is one of a type.
-/

namespace BitSchema

open Wire List

namespace Wire

/-- **The range of a leaf** of a kind and width. -/
def Leaf.Range : Leaf → Nat → Int → Prop
  | .bool, _, n => 0 ≤ n ∧ n < 2
  | .unsigned, width, n => 0 ≤ n ∧ n < weight width
  | .signed _, width, n => -(weight (width - 1) : Int) ≤ n ∧ n < weight (width - 1)

namespace Value

def item? (v : Value) (k : Nat) : Option Value := (v.element k).toOption

def part? (v : Value) (number : Nat) : Option Value :=
  match v with
  | .record _ slots => (Accessor.slot? slots number).map (·.2)
  | _ => none

/-- The value is a number of which `ok` is true. -/
def IsLeaf (ok : Int → Prop) (v : Value) : Prop := ∃ n, v.asInt? = some n ∧ ok n

def lowBits (v : Value) (n : Nat) : List Bool := intBits (v.asInt?.getD 0) 0 n

/-- **Records of a message** have its slots in wire order; after them may stand values under other names,
which are no fields. -/
def IsRecordOf (v : Value) (ms : Members) : Prop :=
  ∃ title own extra, v = .record title (own ++ extra) ∧
    own.map (·.1) = (orderedFields ms).map Field.slot ∧ ∀ e ∈ extra, e.1.isField = false

end Value

end Wire

mutual

/-- **Values of a type** whose leaves are `ok`. -/
def Ty.Holds (ok : Leaf → Nat → Int → Prop) : Ty → Value → Prop
  | .unknown _ _, _ => False
  | .bool _, v => v.IsLeaf (ok .bool 1)
  | .byte _, v => v.IsLeaf (ok .unsigned 8)
  | .uint _ cap, v => v.IsLeaf (ok .unsigned cap)
  | .int _ cap, v => v.IsLeaf (ok (.signed cap) cap)
  | .array _ element cap _, v => v.size = cap ∧ ∀ k < cap, ∃ x, v.item? k = some x ∧ element.Holds ok x
  | .named d, v => d.Holds ok v

/-- Values of a defined type whose leaves are `ok`. -/
def Def.Holds (ok : Leaf → Nat → Int → Prop) : Def → Value → Prop
  | .typeAlias _ target, v => target.Holds ok v
  | .enum _ _ cap _, v => v.IsLeaf (ok .unsigned cap)
  | .message _ _ ms, v => v.IsRecordOf ms ∧ fieldsHold ok ms v
  | _, _ => False

def fieldsHold (ok : Leaf → Nat → Int → Prop) : List (String × Def) → Value → Prop
  | [], _ => True
  | (_, d) :: r, v => d.FieldHolds ok v ∧ fieldsHold ok r v

def Def.FieldHolds (ok : Leaf → Nat → Int → Prop) : Def → Value → Prop
  | .field _ ty number, v => ∃ x, v.part? number = some x ∧ ty.Holds ok x
  | _, _ => True

end

mutual

/-- **Values that are equal in every leaf** of a type. -/
def Ty.Agree : Ty → Value → Value → Prop
  | .unknown _ _, _, _ => True
  | .bool _, v, w => v.IsLeaf fun n => w.asInt? = some n
  | .byte _, v, w => v.IsLeaf fun n => w.asInt? = some n
  | .uint _ _, v, w => v.IsLeaf fun n => w.asInt? = some n
  | .int _ _, v, w => v.IsLeaf fun n => w.asInt? = some n
  | .array _ element cap _, v, w =>
    ∀ k < cap, ∃ x y, v.item? k = some x ∧ w.item? k = some y ∧ element.Agree x y
  | .named d, v, w => d.Agree v w

/-- Values that are equal in every leaf of a defined type. -/
def Def.Agree : Def → Value → Value → Prop
  | .typeAlias _ target, v, w => target.Agree v w
  | .enum _ _ _ _, v, w => v.IsLeaf fun n => w.asInt? = some n
  | .message _ _ ms, v, w => fieldsAgree ms v w
  | _, _, _ => True

/-- Values that are equal in every leaf of every field among members. -/
def fieldsAgree : List (String × Def) → Value → Value → Prop
  | [], _, _ => True
  | (_, d) :: r, v, w => d.FieldAgrees v w ∧ fieldsAgree r v w

def Def.FieldAgrees : Def → Value → Value → Prop
  | .field _ ty number, v, w =>
    ∃ x y, v.part? number = some x ∧ w.part? number = some y ∧ ty.Agree x y
  | _, _, _ => True

end

mutual

/-- **The bits of a value on the wire.**  A leaf gives its low bits, the least significant one first; an array
its elements in order; a message its fields by increasing number.  In front of an extensible array stand the
sixteen bits of its capacity, in front of an extensible message those of its size. -/
def Ty.wireBits : Ty → Value → List Bool
  | .unknown _ _, _ => []
  | .bool _, v => v.lowBits 1
  | .byte _, v => v.lowBits 8
  | .uint _ cap, v => v.lowBits cap
  | .int _ cap, v => v.lowBits cap
  | .array _ element cap ext, v =>
    (if ext then intBits cap 0 16 else []) ++
      (List.range cap).flatMap fun k => element.wireBits ((v.item? k).getD (.int 0))
  | .named d, v => d.wireBits v

def Def.wireBits : Def → Value → List Bool
  | .typeAlias _ target, v => target.wireBits v
  | .enum _ _ cap _, v => v.lowBits cap
  | .message h ext ms, v =>
    (if ext then intBits (Def.message h ext ms).nbits 0 16 else []) ++
      (byNumber (fieldWires ms)).flatMap fun f => f.2 ((v.part? f.1).getD (.int 0))
  | _, _ => []

/-- How the fields among members give their bits, with their numbers. -/
def fieldWires : List (String × Def) → List (Nat × (Value → List Bool))
  | [] => []
  | (_, d) :: r => d.fieldWire ++ fieldWires r

def Def.fieldWire : Def → List (Nat × (Value → List Bool))
  | .field _ ty number => [(number, ty.wireBits)]
  | _ => []

end

def Def.Fits (d : Def) (v : Value) : Prop := d.Holds (fun _ _ _ => True) v

/-- The value has the shape of the type and every leaf is within the bounds of its own type. -/
def Def.InRange (d : Def) (v : Value) : Prop := d.Holds Leaf.Range v

/-! ### Messages -/

variable {ok : Leaf → Nat → Int → Prop} {ms : Members} {v : Value}

theorem fieldsHold_iff :
    fieldsHold ok ms v ↔ ∀ f ∈ fieldsOf ms, ∃ x, v.part? f.number = some x ∧ f.ty.Holds ok x :=
  forall_fieldsOf_iff (F := (fieldsHold ok · v)) trivial (fun _ _ _ => .rfl)
    (fun d => by cases d <;> simp [Def.FieldHolds, Def.field?]) ms

theorem holds_message {h : Header} {ext : Bool} :
    (Def.message h ext ms).Holds ok v ↔ v.IsRecordOf ms ∧
      ∀ f ∈ fieldsOf ms, ∃ x, v.part? f.number = some x ∧ f.ty.Holds ok x := by
  rw [Def.Holds, fieldsHold_iff]

theorem fieldsAgree_iff {w : Value} :
    fieldsAgree ms v w ↔ ∀ f ∈ fieldsOf ms,
      ∃ x y, v.part? f.number = some x ∧ w.part? f.number = some y ∧ f.ty.Agree x y :=
  forall_fieldsOf_iff (F := (fieldsAgree · v w)) trivial (fun _ _ _ => .rfl)
    (fun d => by cases d <;> simp [Def.FieldAgrees, Def.field?]) ms

theorem fieldWires_eq (ms : Members) :
    fieldWires ms = (fieldsOf ms).map fun f => (f.number, f.ty.wireBits) := by
  induction ms with
  | nil => rfl
  | cons m ms ih =>
    obtain ⟨n, d⟩ := m
    rw [fieldWires, fieldsOf_cons, map_append, ih]
    cases d <;> rfl

def Field.wireBits (f : Field) (v : Value) : List Bool :=
  f.ty.wireBits ((v.part? f.number).getD (.int 0))

theorem wireBits_message (h : Header) (ext : Bool) (ms : Members) (v : Value) :
    (Def.message h ext ms).wireBits v
      = (if ext then intBits (Def.message h ext ms).nbits 0 16 else []) ++
        (orderedFields ms).flatMap fun f => f.wireBits v := by
  rw [Def.wireBits, fieldWires_eq, byNumber_map_fieldsOf, flatMap_map]
  rfl

/-! ### Sizes and shapes -/

@[simp] theorem Wire.Value.length_lowBits (v : Value) (n : Nat) : (v.lowBits n).length = n := by
  simp [Value.lowBits]

/-- **There are as many bits on the wire as the size of the type says.** -/
theorem Ty.length_wireBits (t : Ty) (v : Value) : (t.wireBits v).length = t.nbits := by
  induction t using Ty.layoutInduction generalizing v with
  | unknown o missing => rfl
  | bool o => simp [Ty.wireBits, Ty.nbits]
  | byte o => simp [Ty.wireBits, Ty.nbits]
  | uint o cap => simp [Ty.wireBits, Ty.nbits]
  | int o cap => simp [Ty.wireBits, Ty.nbits]
  | array o element cap ext ih =>
    rw [Ty.wireBits, Ty.nbits, length_append, length_flatMap]
    congr 1
    · cases ext <;> simp [aheadBits]
    · simp [ih]
  | typeAlias h target ih => simpa [Ty.wireBits, Ty.nbits, Def.wireBits, Def.nbits] using ih v
  | enum h o cap ms => simp [Ty.wireBits, Ty.nbits, Def.wireBits, Def.nbits]
  | message h ext ms ih =>
    rw [Ty.wireBits, Ty.nbits, wireBits_message, length_append, length_flatMap, Def.nbits,
      fieldBits_eq_ordered]
    congr 1
    · cases ext <;> simp [aheadBits]
    · congr 1
      refine map_congr_left fun f hf => ?_
      exact ih f (mem_orderedFields.1 hf) _
  | other d hd => cases d <;> first | rfl | simp [Def.isType] at hd

theorem Def.length_wireBits (d : Def) (v : Value) : (d.wireBits v).length = d.nbits :=
  Ty.length_wireBits (.named d) v

/-- Values whose leaves satisfy more satisfy less. -/
theorem Ty.Holds.mono {ok' : Leaf → Nat → Int → Prop} (hok : ∀ kind width n, ok kind width n → ok' kind width n)
    {t : Ty} (h : t.Holds ok v) : t.Holds ok' v := by
  have leaf {kind : Leaf} {width : Nat} {v : Value} (h : v.IsLeaf (ok kind width)) :
      v.IsLeaf (ok' kind width) := by
    obtain ⟨n, hn, hk⟩ := h
    exact ⟨n, hn, hok _ _ _ hk⟩
  induction t using Ty.layoutInduction generalizing v with
  | unknown o missing => exact h
  | bool o => exact leaf h
  | byte o => exact leaf h
  | uint o cap => exact leaf h
  | int o cap => exact leaf h
  | array o element cap ext ih =>
    obtain ⟨hsize, hitems⟩ := h
    refine ⟨hsize, fun k hk => ?_⟩
    obtain ⟨x, hx, hholds⟩ := hitems k hk
    exact ⟨x, hx, ih hholds⟩
  | typeAlias hd target ih => exact ih h
  | enum hd o cap ms => exact leaf h
  | message hd ext ms ih =>
    rw [Ty.Holds, holds_message] at h ⊢
    refine ⟨h.1, fun f hf => ?_⟩
    obtain ⟨x, hx, hholds⟩ := h.2 f hf
    exact ⟨x, hx, ih f hf hholds⟩
  | other d hd => cases d <;> first | exact h | simp [Def.isType] at hd

theorem Def.InRange.fits {d : Def} (h : d.InRange v) : d.Fits v :=
  Ty.Holds.mono (t := .named d) (fun _ _ _ _ => trivial) h

/-! ### Deciding -/

instance Wire.Leaf.decidableRange : ∀ (kind : Leaf) (width : Nat) (n : Int), Decidable (kind.Range width n)
  | .bool, _, _ | .unsigned, _, _ | .signed _, _, _ => by unfold Leaf.Range; infer_instance

instance (ok : Int → Prop) [DecidablePred ok] (v : Value) : Decidable (v.IsLeaf ok) :=
  inferInstanceAs (Decidable (∃ n ∈ v.asInt?, ok n))

theorem isRecordOf_iff {title : String} {slots : List (Slot × Value)} :
    (Value.record title slots).IsRecordOf ms ↔
      (slots.take (fieldsOf ms).length).map (·.1)
          = ((fieldsOf ms).insertionSort fun f g => f.number ≤ g.number).map Field.slot ∧
        ∀ e ∈ slots.drop (fieldsOf ms).length, e.1.isField = false := by
  rw [← orderedFields_eq, ← (mergeSort_perm (fieldsOf ms) Field.before).length_eq]
  constructor
  · rintro ⟨title', own, extra, heq, hown, hextra⟩
    obtain ⟨rfl, rfl⟩ := Value.record.inj heq
    have hlength : own.length = ((fieldsOf ms).mergeSort Field.before).length := by
      simpa [orderedFields] using congrArg List.length hown
    rw [← hlength, take_left, drop_left]
    exact ⟨hown, hextra⟩
  · rintro ⟨hown, hextra⟩
    exact ⟨title, _, _, by rw [take_append_drop], hown, hextra⟩

instance Wire.Value.decidableIsRecordOf : ∀ (v : Value) (ms : Members), Decidable (v.IsRecordOf ms)
  | .record _ _, _ => decidable_of_iff' _ isRecordOf_iff
  | .bool _, _ | .int _, _ | .bytes _, _ | .list _, _ => .isFalse fun ⟨_, _, _, heq, _⟩ => nomatch heq

section

variable (ok : Leaf → Nat → Int → Prop) [∀ kind width n, Decidable (ok kind width n)]

mutual

def Ty.decidableHolds : (t : Ty) → (v : Value) → Decidable (t.Holds ok v)
  | .unknown _ _, _ => .isFalse id
  | .bool _, v | .byte _, v | .uint _ _, v | .int _ _, v => by unfold Ty.Holds; infer_instance
  | .array _ element cap _, v =>
    have (x : Value) : Decidable (element.Holds ok x) := element.decidableHolds x
    inferInstanceAs (Decidable (v.size = cap ∧ ∀ k < cap, ∃ x ∈ v.item? k, element.Holds ok x))
  | .named d, v => d.decidableHolds v
termination_by structural t => t

/-- It can be decided whether a value is one of a defined type. -/
def Def.decidableHolds : (d : Def) → (v : Value) → Decidable (d.Holds ok v)
  | .typeAlias _ target, v => target.decidableHolds v
  | .enum _ _ _ _, v => by unfold Def.Holds; infer_instance
  | .message _ _ ms, v =>
    have := decidableFieldsHold ms v
    inferInstanceAs (Decidable (v.IsRecordOf ms ∧ fieldsHold ok ms v))
  | .option _ _ _, _ | .constant _ _ _, _ | .enumField _ _, _ | .field _ _ _, _ | .proto _ _, _ => .isFalse id
termination_by structural d => d

/-- It can be decided whether all fields among members have values. -/
def decidableFieldsHold : (ms : List (String × Def)) → (v : Value) → Decidable (fieldsHold ok ms v)
  | [], _ => .isTrue trivial
  | (_, d) :: r, v =>
    have := d.decidableFieldHolds v
    have := decidableFieldsHold r v
    inferInstanceAs (Decidable (d.FieldHolds ok v ∧ fieldsHold ok r v))
termination_by structural ms => ms

def Def.decidableFieldHolds : (d : Def) → (v : Value) → Decidable (d.FieldHolds ok v)
  | .field _ ty number, v =>
    have (x : Value) : Decidable (ty.Holds ok x) := ty.decidableHolds x
    inferInstanceAs (Decidable (∃ x ∈ v.part? number, ty.Holds ok x))
  | .option _ _ _, _ | .constant _ _ _, _ | .typeAlias _ _, _ | .enum _ _ _ _, _ | .enumField _ _, _ | .message _ _ _, _
  | .proto _ _, _ => .isTrue trivial
termination_by structural d => d

end

end

instance (d : Def) (v : Value) : Decidable (d.Fits v) := d.decidableHolds _ v

instance (d : Def) (v : Value) : Decidable (d.InRange v) := d.decidableHolds _ v

end BitSchema
