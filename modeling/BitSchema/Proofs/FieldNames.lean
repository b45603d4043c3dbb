import BitSchema.Loading.Ordinary
import BitSchema.Proofs.Scan

/-!
# Names of fields and of members

The class of a message has members besides the fields, among them the functions that pack and unpack its objects
(`memberNames`).  A field that has the name of one of them takes its place.  `Def.Calls start leaf d` says that no field
of the message `d`, nor of a message inside it at any depth, takes the place of a function that is called when its
function `start` runs.

An object answers if every function that packs or unpacks it is found where it is looked for: at the object itself,
at the records inside it and at new objects of their classes (`Object.Answers`).  Objects that have nothing but their
fields answer if and only if their messages call (`Object.answers_of_holds`, `Object.calls_eq_false`).  A field may also
take the place of the size (`Def.Encodes`, `Def.Decodes`).
-/

namespace BitSchema

open Wire List Loading

/-! ### Every record inside a value -/

namespace Wire.Value

variable {p : List (Slot × Value) → Bool}

theorem all_list (items : Array Value) : (Value.list items).all p = items.toList.all (·.all p) := by
  obtain ⟨items⟩ := items
  rw [all]
  induction items with
  | nil => rfl
  | cons v items ih => rw [allItems, ih, all_cons]

theorem all_record (title : String) (slots : List (Slot × Value)) :
    (Value.record title slots).all p = (p slots && slots.all (·.2.all p)) := by
  rw [all]
  congr 1
  induction slots with
  | nil => rfl
  | cons s slots ih =>
    obtain ⟨s, v⟩ := s
    rw [allSlots, ih, all_cons]

/-- **Values with nothing but fields**: no record inside has a value under a further name. -/
def Plain (v : Value) : Prop := v.all (fun slots => slots.all (·.1.isField)) = true

instance (v : Value) : Decidable v.Plain := inferInstanceAs (Decidable (_ = true))

end Wire.Value

/-! ### Messages inside a message -/

section

variable {h : Header} {ext : Bool} {ms : Members}

theorem mem_messages {d : Def} : d ∈ messages (.message h ext ms) ↔
    d = .message h ext ms ∨ ∃ f ∈ fieldsOf ms, d ∈ typeMessages f.ty := by
  rw [messages, mem_cons]
  refine or_congr_right ?_
  induction ms with
  | nil => simp [memberMessages]
  | cons m ms ih =>
    obtain ⟨n, e⟩ := m
    rw [memberMessages, mem_append, ih, fieldsOf_cons]
    cases e <;> simp [fieldMessages, Def.field?]

/-- The slots of the records of a message that have nothing but its fields. -/
def OwnSlots (ms : Members) (slots : List (Slot × Value)) : Prop :=
  slots.map (·.1) = (orderedFields ms).map Field.slot

theorem Wire.Value.IsRecordOf.exists_record {v : Value} (h : v.IsRecordOf ms) :
    ∃ title slots, v = .record title slots := by
  obtain ⟨title, own, extra, rfl, -⟩ := h
  exact ⟨title, _, rfl⟩

theorem OwnSlots.of_plain {title : String} {slots : List (Slot × Value)}
    (hrec : (Value.record title slots).IsRecordOf ms) (hplain : (Value.record title slots).Plain) :
    OwnSlots ms slots := by
  obtain ⟨title', own, extra, heq, hown, hextra⟩ := hrec
  obtain ⟨-, rfl⟩ := Value.record.inj heq
  rw [Value.Plain, Value.all_record, Bool.and_eq_true, all_eq_true] at hplain
  obtain rfl : extra = [] := eq_nil_iff_forall_not_mem.2 fun e he =>
    Bool.false_ne_true ((hextra e he).symm.trans (hplain.1 e (mem_append_right _ he)))
  rw [append_nil]
  exact hown

/-- Something is true of the slots of the records of every message inside a type. -/
def Ty.RecordsAre (p : List (Slot × Value) → Bool) (t : Ty) : Prop :=
  ∀ h ext ms, .message h ext ms ∈ typeMessages t → ∀ slots, OwnSlots ms slots → p slots = true

variable {p : List (Slot × Value) → Bool}

theorem Ty.RecordsAre.own (hp : (Ty.named (.message h ext ms)).RecordsAre p) {slots : List (Slot × Value)}
    (hslots : OwnSlots ms slots) : p slots = true :=
  hp h ext ms (mem_messages.2 (.inl rfl)) slots hslots

theorem Ty.RecordsAre.field (hp : (Ty.named (.message h ext ms)).RecordsAre p) {f : Field} (hf : f ∈ fieldsOf ms) :
    f.ty.RecordsAre p :=
  fun h' ext' ms' hmem => hp h' ext' ms' (mem_messages.2 (.inr ⟨f, hf, hmem⟩))

/-- **What is true of the records of all messages inside a type is true of every record inside its values**, if these
have nothing but fields. -/
theorem Ty.WellFormed.all_of_holds {ok : Leaf → Nat → Int → Prop} {t : Ty} {v : Value} (hwf : t.WellFormed)
    (hv : t.Holds ok v) (hplain : v.Plain) (hp : t.RecordsAre p) : v.all p = true := by
  induction t, hwf using Ty.WellFormed.induction generalizing v with
  | leaf t kind width hwf ht =>
    obtain ⟨n, hn, -⟩ := (ht.holds_iff _ v).1 hv
    cases v <;> first | rfl | cases hn
  | typeAlias h target hwf ih => exact ih hv hplain hp
  | array o element cap ext hwf ih =>
    obtain ⟨hsize, hitems⟩ := hv
    cases v with
    | list items =>
      rw [Value.Plain, Value.all_list, all_eq_true] at hplain
      rw [Value.all_list, all_eq_true]
      intro x hx
      obtain ⟨k, hk, rfl⟩ := mem_iff_getElem.1 hx
      obtain ⟨y, hy, hholds⟩ := hitems k (hsize ▸ hk)
      have hxy : items[k]? = some y := by
        rw [Value.item?, Value.element] at hy
        cases he : items[k]? <;> simp_all [Except.toOption]
      obtain rfl : items.toList[k] = y := by simpa using (Array.getElem?_eq_some_iff.1 hxy).2
      exact ih hholds (hplain _ hx) hp
    | record title slots =>
      -- an array has elements, and a record has none
      obtain ⟨y, hy, -⟩ := hitems 0 hwf.1
      cases hy
    | _ => rfl
  | message h ext ms hwf ih =>
    obtain ⟨hrec, hholds⟩ := holds_message.1 hv
    obtain ⟨title, slots, rfl⟩ := hrec.exists_record
    have hown := OwnSlots.of_plain hrec hplain
    rw [Value.Plain, Value.all_record, Bool.and_eq_true, all_eq_true, all_eq_true] at hplain
    rw [Value.all_record, hp.own hown, Bool.true_and, all_eq_true]
    rintro ⟨s, x⟩ hs
    obtain ⟨f, hf, rfl⟩ : ∃ f ∈ orderedFields ms, f.slot = s := mem_map.1 (hown ▸ mem_map_of_mem (f := (·.1)) hs)
    have hf := mem_orderedFields.1 hf
    obtain ⟨y, hy, hyholds⟩ := hholds f hf
    obtain rfl : x = y := by
      rw [part?_of_mem title hown hwf.2.numbered hf hs] at hy
      exact Option.some.inj hy
    exact ih f hf hyholds (hplain.2 _ hs) (hp.field hf)

theorem Ty.all_gather {element : Ty} {xs : List Value} (h : ∀ x ∈ xs, x.all p = true) :
    (element.gather xs).all p = true := by
  have hlist : (Value.list xs.toArray).all p = true := by
    rw [Value.all_list, all_eq_true]
    exact h
  cases element <;> first | rfl | exact hlist

/-- **Initial values** have the shape of their type and nothing but fields. -/
theorem Ty.WellFormed.holds_initialBy {t : Ty} (hwf : t.WellFormed) (title : Def → String) :
    t.Holds (fun _ _ _ => True) (t.initialBy title) ∧ (t.initialBy title).Plain := by
  induction t, hwf using Ty.WellFormed.induction with
  | leaf t kind width hwf ht =>
    rw [ht.holds_iff, ht.initial_eq]
    cases kind <;> exact ⟨⟨0, rfl, trivial⟩, rfl⟩
  | typeAlias h target hwf ih => exact ih
  | array o element cap ext hwf ih =>
    rw [initialBy_array]
    refine ⟨⟨?_, fun k hk => ⟨element.initialBy title, ?_, ih.1⟩⟩, all_gather fun x hx => ?_⟩
    · rw [size_gather, length_replicate]
    · exact item?_gather (admits_initialBy title element) (getElem?_replicate_of_lt hk)
    · rw [(mem_replicate.1 hx).2]
      exact ih.2
  | message h ext ms hwf ih =>
    let slots := (orderedFields ms).map fun f => (f.slot, f.ty.initialBy title)
    have hown : OwnSlots ms slots := by simp [OwnSlots, slots, Function.comp_def]
    have hmem (f : Field) (hf : f ∈ fieldsOf ms) : (f.slot, f.ty.initialBy title) ∈ slots :=
      mem_map.2 ⟨f, mem_orderedFields.2 hf, rfl⟩
    rw [Ty.initialBy, initialBy_message, Ty.Holds, holds_message, Value.Plain, Value.all_record,
      Bool.and_eq_true, all_map,
      all_map, all_eq_true, all_eq_true]
    refine ⟨⟨isRecordOf_of_slots _ hown, fun f hf => ⟨_, ?_, (ih f hf).1⟩⟩, fun f hf => ?_, fun f hf => ?_⟩
    · exact part?_of_mem _ hown hwf.2.numbered hf (hmem f hf)
    · have hpos := hwf.2.numbered.pos f (mem_orderedFields.1 hf)
      simpa [Slot.isField, Field.slot] using hpos.ne'
    · exact (ih f (mem_orderedFields.1 hf)).2

/-! ### Conditions on names -/

theorem hasField_iff {name : String} :
    hasField name (.message h ext ms) = true ↔ ∃ f ∈ fieldsOf ms, f.header.name = name := by
  rw [hasField, any_eq_true]
  constructor
  · rintro ⟨d, hd, hname⟩
    obtain ⟨⟨n, d⟩, hmem, rfl⟩ := mem_map.1 hd
    obtain ⟨hmem, hkind⟩ := mem_filter.1 hmem
    obtain ⟨h', ty, number, rfl⟩ := Def.eq_field_of_isA hkind
    exact ⟨_, mem_filterMap.2 ⟨_, hmem, rfl⟩, eq_of_beq hname⟩
  · rintro ⟨f, hf, rfl⟩
    obtain ⟨n, hmem⟩ := mem_of_mem_fieldsOf hf
    exact ⟨_, mem_map.2 ⟨_, mem_filter.2 ⟨hmem, rfl⟩, rfl⟩, beq_self_eq_true _⟩

/-- **Types whose fields are all reached**, at any depth: no field has the name of the function that reaches a field
of the same message.  Leaves are reached by `leaf`. -/
def Ty.FindsAll (leaf : String) (t : Ty) : Prop :=
  ∀ d ∈ typeMessages t, ∀ f ∈ fieldsOf d.members, ∀ access ∈ f.ty.access, hasField (access.function leaf) d = false

/-- **Messages of which the function `start` finds all that it calls**: none of the functions is hidden by a field. -/
structure Def.Calls (start leaf : String) (d : Def) : Prop where
  start_free : hasField start d = false
  layout_free : ∀ m ∈ messages d, hasField layoutName m = false
  reaches : (Ty.named d).FindsAll leaf

/-- **Messages of which `encode` works**: no field has the name of the size either. -/
structure Def.Encodes (d : Def) : Prop extends d.Calls "encode" takerName where
  size_free : hasField sizeName d = false

/-- The field that has the name of the size. -/
def Def.sizeField? (d : Def) : Option Field := (orderedFields d.members).find? fun f => f.header.name == sizeName

/-- **Messages of which `decode` works** on new objects: the size may be hidden by a number, which is zero. -/
structure Def.Decodes (d : Def) : Prop extends d.Calls "decode" adderName where
  size_number : ∀ f ∈ d.sizeField?, (unaliased f.ty).leaf?.isSome = true

instance (start leaf : String) (d : Def) : Decidable (d.Calls start leaf) :=
  decidable_of_iff (hasField start d = false ∧ (∀ m ∈ messages d, hasField layoutName m = false) ∧
      ∀ m ∈ messages d, ∀ f ∈ fieldsOf m.members, ∀ access ∈ f.ty.access, hasField (access.function leaf) m = false)
    ⟨fun h => ⟨h.1, h.2.1, h.2.2⟩, fun h => ⟨h.start_free, h.layout_free, h.reaches⟩⟩

theorem Def.Decodes.of_free (hcalls : (Def.message h ext ms).Calls "decode" adderName)
    (hfree : hasField sizeName (.message h ext ms) = false) : (Def.message h ext ms).Decodes where
  toCalls := hcalls
  size_number f hf := by
    have hname : (f.header.name == sizeName) = true := find?_some (p := fun f : Field => f.header.name == sizeName) hf
    have hhidden : hasField sizeName (.message h ext ms) = true :=
      hasField_iff.2 ⟨f, mem_orderedFields.1 (mem_of_find?_eq_some hf), eq_of_beq hname⟩
    rw [hfree] at hhidden
    cases hhidden

variable {slots : List (Slot × Value)}

/-- A record has a value under a name if and only if this is the name of a field. -/
theorem OwnSlots.field?_eq_none_iff {name : String} (h : Header) (ext : Bool) (hslots : OwnSlots ms slots) :
    Value.field? slots name = none ↔ hasField name (.message h ext ms) = false := by
  rw [← Bool.not_eq_true, hasField_iff, Value.field?, Option.map_eq_none_iff, find?_eq_none]
  have hiff : (∃ s ∈ slots.map (·.1), s.name = name) ↔ ∃ f ∈ fieldsOf ms, f.header.name = name := by
    rw [hslots]
    simp [mem_orderedFields, Field.slot]
  rw [← hiff]
  simp

/-- **The functions are found in the records of types whose fields are all reached.** -/
theorem Ty.FindsAll.recordsAre {t : Ty} {leaf : String} (ht : t.FindsAll leaf) : t.RecordsAre (Value.finds leaf) := by
  intro h ext ms hmem slots hslots
  rw [Value.finds, all_eq_true]
  intro s hs
  obtain ⟨f, hf, hslot⟩ : ∃ f ∈ orderedFields ms, f.slot = s.1 := mem_map.1 (hslots ▸ mem_map_of_mem hs)
  rw [← hslot, Option.all_eq_true]
  intro access haccess
  rw [(hslots.field?_eq_none_iff h ext).2 (ht _ hmem f (mem_orderedFields.1 hf) access haccess)]
  rfl

/-- **New numbers are zero**, and other values are not compared with the number of bytes. -/
theorem Ty.WellFormed.areEnough_initialBy {t : Ty} (hwf : t.WellFormed) (title : Def → String) (bytes : Array UInt8) :
    ((unaliased t).leaf?.isSome = true → areEnough bytes (t.initialBy title) = .ok true) ∧
      ((unaliased t).leaf?.isSome = false → ∃ fault, areEnough bytes (t.initialBy title) = .error fault) := by
  induction t, hwf using Ty.WellFormed.induction with
  | leaf t kind width hwf ht =>
    have hself : unaliased t = t := by
      have hleaf := ht.leaf_eq
      cases t with
      | named d => cases d <;> first | rfl | cases hleaf
      | _ => rfl
    rw [hself, ht.leaf_eq, ht.initial_eq]
    cases kind <;> simp [Leaf.zero, areEnough]
  | typeAlias h target hwf ih => exact ih
  | array o element cap ext hwf ih =>
    refine ⟨(fun h => by cases h), fun _ => ?_⟩
    rw [initialBy_array]
    cases element <;> exact ⟨_, rfl⟩
  | message h ext ms hwf ih =>
    refine ⟨(fun h => by cases h), fun _ => ?_⟩
    rw [Ty.initialBy, initialBy_message]
    exact ⟨_, rfl⟩

/-! ### Objects -/

namespace Loading.Object

variable {o : Object} {start leaf : String}

/-- **Objects of which the function `start` finds all that it calls.** -/
structure Answers (start leaf : String) (o : Object) : Prop where
  own : ∀ name ∈ [start, layoutName], Value.field? o.slots name = none
  layouts : ∀ d ∈ (messages o.message).tail, hasField layoutName d = false
  calls : o.value.calls leaf = true

/-- **New objects**: nothing has been put into them.  Their records are named in the given way. -/
def IsNew (title : Def → String) (o : Object) : Prop := o.value = o.message.initialBy title

/-- **An object that has nothing but its fields answers** if no field hides a function. -/
theorem answers_of_holds {ok : Leaf → Nat → Int → Prop} (hcalls : (Def.message h ext ms).Calls start leaf)
    (hmessage : o.message = .message h ext ms) (hwf : (Def.message h ext ms).WellFormed)
    (hv : (Def.message h ext ms).Holds ok o.value) (hplain : o.value.Plain) : o.Answers start leaf where
  own name hname := by
    have hslots : OwnSlots ms o.slots := .of_plain (holds_message.1 hv).1 hplain
    rw [hslots.field?_eq_none_iff h ext]
    rcases mem_cons.1 hname with rfl | hname
    · exact hcalls.start_free
    · rw [mem_singleton.1 hname]
      exact hcalls.layout_free _ (mem_messages.2 (.inl rfl))
  layouts d hd := hcalls.layout_free d (hmessage ▸ mem_of_mem_tail hd)
  calls := Ty.WellFormed.all_of_holds (t := .named (.message h ext ms)) ⟨rfl, hwf⟩ hv hplain hcalls.reaches.recordsAre

/-- **A new object has nothing but its fields.** -/
theorem IsNew.holds {title : Def → String} (ho : o.IsNew title) (hmessage : o.message = .message h ext ms)
    (hwf : (Def.message h ext ms).WellFormed) : (Def.message h ext ms).Fits o.value ∧ o.value.Plain := by
  rw [ho, hmessage]
  exact Ty.WellFormed.holds_initialBy (t := .named (.message h ext ms)) ⟨rfl, hwf⟩ title

/-- **What a new object has in the place of the size.** -/
theorem IsNew.field?_size {title : Def → String} (ho : o.IsNew title) (hmessage : o.message = .message h ext ms) :
    Value.field? o.slots sizeName = (Def.message h ext ms).sizeField?.map (·.ty.initialBy title) := by
  rw [IsNew, hmessage, initialBy_message, value, Value.record.injEq] at ho
  rw [Value.field?, ho.2, find?_map, Option.map_map]
  rfl

end Loading.Object

end

end BitSchema
