import BitSchema.Proofs.WellFormed

/-!
# Types without extensibility

A type is traditional if no array and no message inside it is extensible, so that nothing is announced on the wire
(`Ty.Traditional`).  A definition is unmarked if nothing that is declared in it, at any depth, is extensible
(`Def.Unmarked`); its types are then traditional (`Ty.Unmarked.traditional`).

In traditional mode the reader refuses the marks of extensibility.  `Ty.WellFormedIn` and `Def.WellFormedIn` say what is
true of everything that is read in one mode or the other.
-/

namespace BitSchema

/-! ### Traditional types -/

mutual

/-- **Types inside which nothing is extensible.** -/
def Ty.Traditional : Ty → Prop
  | .array _ element _ ext => ext = false ∧ element.Traditional
  | .named d => d.Traditional
  | _ => True

/-- Defined types inside which nothing is extensible. -/
def Def.Traditional : Def → Prop
  | .typeAlias _ target => target.Traditional
  | .message _ ext ms => ext = false ∧ fieldsTraditional ms
  | _ => True

/-- Nothing inside the fields among members is extensible. -/
def fieldsTraditional : List (String × Def) → Prop
  | [] => True
  | (_, d) :: r => d.FieldTraditional ∧ fieldsTraditional r

/-- Nothing inside a field is extensible. -/
def Def.FieldTraditional : Def → Prop
  | .field _ ty _ => ty.Traditional
  | _ => True

end

theorem fieldsTraditional_iff {ms : Members} : fieldsTraditional ms ↔ ∀ f ∈ fieldsOf ms, f.ty.Traditional :=
  forall_fieldsOf_iff trivial (fun _ _ _ => .rfl) (fun d => by cases d <;> simp [Def.FieldTraditional, Def.field?]) ms

/-! ### Unmarked definitions -/

mutual

/-- **Types without any mark of extensibility**, also in declarations. -/
def Ty.Unmarked : Ty → Prop
  | .array _ element _ ext => ext = false ∧ element.Unmarked
  | .named d => d.Unmarked
  | _ => True

/-- **Definitions without any mark of extensibility**, also in declarations inside them. -/
def Def.Unmarked : Def → Prop
  | .typeAlias _ target => target.Unmarked
  | .enum _ _ _ ms => membersUnmarked ms
  | .message _ ext ms => ext = false ∧ membersUnmarked ms
  | .field _ ty _ => ty.Unmarked
  | .proto _ ms => membersUnmarked ms
  | _ => True

/-- No member has a mark of extensibility. -/
def membersUnmarked : List (String × Def) → Prop
  | [] => True
  | (_, d) :: r => d.Unmarked ∧ membersUnmarked r

end

theorem membersUnmarked_iff {ms : Members} : membersUnmarked ms ↔ ∀ m ∈ ms, m.2.Unmarked := by
  induction ms with
  | nil => simp [membersUnmarked]
  | cons m ms ih => simp [membersUnmarked, ih]

theorem Def.Unmarked.members {d : Def} (h : d.Unmarked) : ∀ m ∈ d.members, m.2.Unmarked := by
  cases d with
  | enum hd o cap ms => exact membersUnmarked_iff.1 h
  | message hd ext ms => exact membersUnmarked_iff.1 h.2
  | proto hd ms => exact membersUnmarked_iff.1 h
  | _ => simp [Def.members]

theorem Def.Unmarked.concat {d member : Def} (h : d.Unmarked) (hmember : member.Unmarked) (name : String) :
    (d.withMembers (d.members ++ [(name, member)])).Unmarked := by
  have hall : membersUnmarked (d.members ++ [(name, member)]) := by
    rw [membersUnmarked_iff]
    intro m hm
    rcases List.mem_append.1 hm with hm | hm
    · exact h.members m hm
    · rw [List.mem_singleton.1 hm]
      exact hmember
  cases d with
  | enum hd o cap ms => exact hall
  | message hd ext ms => exact ⟨h.1, hall⟩
  | proto hd ms => exact hall
  | _ => exact h

/-- **Unmarked types are traditional.** -/
theorem Ty.Unmarked.traditional {t : Ty} (h : t.Unmarked) : t.Traditional := by
  induction t using Ty.layoutInduction with
  | array o element cap ext ih => exact ⟨h.1, ih h.2⟩
  | typeAlias hd target ih => exact ih h
  | message hd ext ms ih =>
    refine ⟨h.1, fieldsTraditional_iff.2 fun f hf => ih f hf ?_⟩
    obtain ⟨n, hmem⟩ := mem_of_mem_fieldsOf hf
    exact membersUnmarked_iff.1 h.2 _ hmem
  | other d hd => cases d <;> trivial
  | _ => trivial

theorem Def.Unmarked.traditional {d : Def} (h : d.Unmarked) : d.Traditional := Ty.Unmarked.traditional (t := .named d) h

/-! ### The two modes of reading -/

/-- **Well-formed types that can be read** in traditional mode or in the other one. -/
def Ty.WellFormedIn (traditional : Bool) (t : Ty) : Prop := t.WellFormed ∧ (traditional = true → t.Unmarked)

/-- **Well-formed definitions that can be read** in traditional mode or in the other one. -/
def Def.WellFormedIn (traditional : Bool) (d : Def) : Prop := d.WellFormed ∧ (traditional = true → d.Unmarked)

end BitSchema
