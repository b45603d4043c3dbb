import BitSchema.Wire.Layout
import Mathlib.Algebra.GroupWithZero.Nat
import Mathlib.Data.List.Sort

/-!
# The fields of a message in wire order

Everything that is laid out for a message follows the list of its fields by increasing number,
`orderedFields`.  What the layout computes member by member and then orders (`byNumber`) is a map over
this list: `fieldProcessors_eq` and `slotsBy_eq`.

`Ty.layoutInduction` is the induction that layouts call for: for a message, the statement is known of the
types of its fields.
-/

namespace BitSchema

open Wire List

theorem exists_ok_of_bind {ε α β : Type} {x : Except ε α} {f : α → Except ε β} {b : β} (h : (x >>= f) = .ok b) :
    ∃ a, x = .ok a ∧ f a = .ok b := by
  cases x with
  | error e => cases h
  | ok a => exact ⟨a, rfl, h⟩

structure Field where
  header : Header
  ty : Ty
  number : Nat

namespace Field

def slot (f : Field) : Slot := ⟨f.number, f.header.name, f.ty.access⟩

def before (f g : Field) : Bool := f.number ≤ g.number

theorem before_iff {f g : Field} : f.before g = true ↔ f.number ≤ g.number := decide_eq_true_iff

theorem before_trans (f g h : Field) (hfg : f.before g = true) (hgh : g.before h = true) : f.before h = true :=
  before_iff.2 ((before_iff.1 hfg).trans (before_iff.1 hgh))

theorem before_total (f g : Field) : (f.before g || g.before f) = true := by
  rw [Bool.or_eq_true, before_iff, before_iff]
  exact Nat.le_total _ _

end Field

def Def.field? : Def → Option Field
  | .field h ty number => some ⟨h, ty, number⟩
  | _ => none

theorem Def.isA_messageField (d : Def) : d.isA .messageField = d.field?.isSome := by
  rw [isA_eq rfl]
  cases d <;> rfl

theorem Def.eq_field_of_isA {d : Def} (h : d.isA .messageField = true) : ∃ hd t n, d = .field hd t n := by
  rw [Def.isA_messageField] at h
  cases d with
  | field hd t n => exact ⟨hd, t, n, rfl⟩
  | _ => cases h

/-- The fields among the members of a message in the order of their declaration. -/
def fieldsOf (ms : Members) : List Field := ms.filterMap fun m => m.2.field?

/-- **The fields of a message in wire order.** -/
def orderedFields (ms : Members) : List Field := (fieldsOf ms).mergeSort Field.before

@[simp] theorem fieldsOf_nil : fieldsOf [] = [] := rfl

theorem fieldsOf_cons (n : String) (d : Def) (ms : Members) :
    fieldsOf ((n, d) :: ms) = d.field?.toList ++ fieldsOf ms := by
  unfold fieldsOf
  cases h : d.field? <;> simp [h]

/-- **A condition on members that looks at the fields only.** -/
theorem forall_fieldsOf_iff {F : Members → Prop} {D : Def → Prop} {P : Field → Prop} (hnil : F [])
    (hcons : ∀ n d r, F ((n, d) :: r) ↔ D d ∧ F r) (hfield : ∀ d, D d ↔ ∀ f ∈ d.field?.toList, P f) (ms : Members) :
    F ms ↔ ∀ f ∈ fieldsOf ms, P f := by
  induction ms with
  | nil => exact iff_of_true hnil (by simp [fieldsOf])
  | cons m ms ih => rw [hcons, fieldsOf_cons, forall_mem_append, ih, hfield]

variable {ms : Members}

theorem mem_orderedFields {f : Field} : f ∈ orderedFields ms ↔ f ∈ fieldsOf ms :=
  (mergeSort_perm _ _).mem_iff

/-- **Fields that are told apart by their numbers**, which are positive. -/
structure Numbered (ms : Members) : Prop where
  nodup : ((fieldsOf ms).map Field.number).Nodup
  pos : ∀ f ∈ fieldsOf ms, 0 < f.number

theorem Numbered.eq_of_number (h : Numbered ms) {f g : Field} (hf : f ∈ fieldsOf ms)
    (hg : g ∈ fieldsOf ms) (hnumber : f.number = g.number) : f = g :=
  inj_on_of_nodup_map h.nodup hf hg hnumber

theorem Numbered.nodup_ordered (h : Numbered ms) : ((orderedFields ms).map Field.number).Nodup :=
  (((mergeSort_perm _ _).map _).nodup_iff).2 h.nodup

/-- **Wire order, one field at a time**: a field goes before the first one with a number that is not smaller. -/
theorem orderedFields_eq (ms : Members) :
    orderedFields ms = (fieldsOf ms).insertionSort fun f g => f.number ≤ g.number := by
  unfold orderedFields
  induction fieldsOf ms with
  | nil => simp
  | cons f fs ih =>
    obtain ⟨l₁, l₂, hcons, hrest, hbefore⟩ := mergeSort_cons Field.before_trans Field.before_total f fs
    have hsorted := pairwise_mergeSort Field.before_trans Field.before_total (f :: fs)
    rw [hcons] at hsorted
    rw [hcons, insertionSort_cons, ← ih, hrest, orderedInsert_eq_take_drop]
    have hfirst (g : Field) (hg : g ∈ l₁) : decide (¬f.number ≤ g.number) = true := by
      simpa [Field.before] using hbefore g hg
    have hlast (g : Field) (hg : g ∈ l₂) : f.number ≤ g.number :=
      Field.before_iff.1 ((pairwise_cons.1 (pairwise_append.1 hsorted).2.1).1 g hg)
    rw [takeWhile_append_of_pos hfirst, dropWhile_append_of_pos hfirst]
    cases l₂ with
    | nil => simp
    | cons g l₂ => simp [hlast g (mem_cons_self ..)]

/-- What is gathered member by member and then ordered is a map over the fields in wire order. -/
theorem byNumber_map_fieldsOf {α : Type} (ms : Members) (g : Field → α) :
    byNumber ((fieldsOf ms).map fun f => (f.number, g f))
      = (orderedFields ms).map fun f => (f.number, g f) := by
  unfold byNumber orderedFields
  rw [← map_mergeSort]
  intro a _ b _
  rfl

/-! ### Induction -/

theorem sizeOf_ty_lt {f : Field} (h : f ∈ fieldsOf ms) : sizeOf f.ty < sizeOf ms := by
  induction ms with
  | nil => simp at h
  | cons m ms ih =>
    obtain ⟨n, d⟩ := m
    rw [fieldsOf_cons, mem_append] at h
    rcases h with h | h
    · cases d with
      | field hd ty number =>
        simp only [Def.field?, Option.toList_some, mem_singleton] at h
        subst h
        simp
        omega
      | _ => simp [Def.field?] at h
    · have := ih h
      simp
      omega

/-- **Induction over layouts.**  A message follows from the types of its fields. -/
theorem Ty.layoutInduction {motive : Ty → Prop}
    (unknown : ∀ o missing, motive (.unknown o missing))
    (bool : ∀ o, motive (.bool o))
    (byte : ∀ o, motive (.byte o))
    (uint : ∀ o cap, motive (.uint o cap))
    (int : ∀ o cap, motive (.int o cap))
    (array : ∀ o element cap ext, motive element → motive (.array o element cap ext))
    (typeAlias : ∀ h target, motive target → motive (.named (.typeAlias h target)))
    (enum : ∀ h o cap ms, motive (.named (.enum h o cap ms)))
    (message : ∀ h ext ms, (∀ f ∈ fieldsOf ms, motive f.ty) → motive (.named (.message h ext ms)))
    (other : ∀ d, d.isType = false → motive (.named d)) : ∀ t, motive t
  | .unknown o missing => unknown o missing
  | .bool o => bool o
  | .byte o => byte o
  | .uint o cap => uint o cap
  | .int o cap => int o cap
  | .array o element cap ext =>
    array o element cap ext
      (layoutInduction unknown bool byte uint int array typeAlias enum message other element)
  | .named d =>
    match d with
    | .typeAlias h target =>
      typeAlias h target
        (layoutInduction unknown bool byte uint int array typeAlias enum message other target)
    | .enum h o cap ms => enum h o cap ms
    | .message h ext ms =>
      message h ext ms fun f hf =>
        have := sizeOf_ty_lt hf
        layoutInduction unknown bool byte uint int array typeAlias enum message other f.ty
    | .option h k v => other _ rfl
    | .constant h k v => other _ rfl
    | .enumField h v => other _ rfl
    | .field h ty n => other _ rfl
    | .proto h ms => other _ rfl
termination_by t => sizeOf t

/-! ### Layouts as maps -/

theorem fieldProcessors_eq (ms : Members) :
    fieldProcessors ms = (fieldsOf ms).map fun f => (f.number, f.ty.processor) := by
  induction ms with
  | nil => rfl
  | cons m ms ih =>
    obtain ⟨n, d⟩ := m
    rw [fieldProcessors, fieldsOf_cons, map_append, ih]
    cases d <;> rfl

/-- **The layout of a message** runs its fields in wire order. -/
theorem processor_message (h : Header) (ext : Bool) (ms : Members) :
    (Def.message h ext ms).processor = .message ext (Def.message h ext ms).nbits
      ((orderedFields ms).map fun f => .field f.number f.ty.processor) := by
  rw [Def.processor, fieldProcessors_eq, byNumber_map_fieldsOf, map_map]
  rfl

theorem slotsBy_eq (title : Def → String) (ms : Members) :
    slotsBy title ms = (fieldsOf ms).map fun f => (f.number, f.slot, f.ty.initialBy title) := by
  induction ms with
  | nil => rfl
  | cons m ms ih =>
    obtain ⟨n, d⟩ := m
    rw [slotsBy, fieldsOf_cons, map_append, ih]
    cases d <;> rfl

/-- **The initial record of a message** has its fields in wire order. -/
theorem initialBy_message (title : Def → String) (h : Header) (ext : Bool) (ms : Members) :
    (Def.message h ext ms).initialBy title = .record (title (.message h ext ms))
      ((orderedFields ms).map fun f => (f.slot, f.ty.initialBy title)) := by
  rw [Def.initialBy, slotsBy_eq, byNumber_map_fieldsOf, map_map]
  rfl

theorem fieldBits_eq (ms : Members) : fieldBits ms = ((fieldsOf ms).map fun f => f.ty.nbits).sum := by
  induction ms with
  | nil => rfl
  | cons m ms ih =>
    obtain ⟨n, d⟩ := m
    rw [fieldBits, fieldsOf_cons, map_append, sum_append, ih]
    cases d <;> simp [Def.payloadBits, Def.field?]

theorem fieldBits_eq_ordered (ms : Members) :
    fieldBits ms = ((orderedFields ms).map fun f => f.ty.nbits).sum := by
  rw [fieldBits_eq]
  exact ((mergeSort_perm _ _).map _).sum_nat.symm

end BitSchema
