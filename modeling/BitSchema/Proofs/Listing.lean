import BitSchema.Proofs.OpenScopes

/-!
# Listings and mentions

`Def.within .definition` lists everything inside a scope, what is inside a member before the member.  A listing grows
with the scope: a new member is appended with what is inside it (`Def.within_push`), and nothing that was listed
moves.  Whatever is inside something listed is listed too (`Def.mem_within_trans`), and so is what a path of names
leads to (`Def.mem_within_of_member?`).

A definition mentions the defined types of its fields, of its target or of its elements, and through them whatever
these mention (`Def.mentions`).  In a list of definitions everything is *defined first* if whatever a definition
mentions stands somewhere before it (`DefinedFirst`); such lists can be joined, and cut at any definition.
-/

namespace BitSchema

open List

namespace Def

/-! ### Listings -/

@[simp] theorem isA_definition (d : Def) : d.isA .definition = true := by
  rw [isA_eq rfl]
  cases d <;> rfl

theorem isA_proto (d : Def) : d.isA .proto = true ↔ d.scopeKind? = some .proto := by
  rw [isA_eq rfl]
  cases d with
  | proto _ _ => exact iff_of_true rfl rfl
  | _ => exact iff_of_false Bool.false_ne_true (by simp [scopeKind?])

theorem within_eq (k : Kind) (d : Def) : d.within k = membersWithin k d.members := by
  cases d <;> simp [within, members, membersWithin]

/-- **A listing of everything** takes the members one after another, what is inside them first. -/
theorem membersWithin_eq_flatMap (ms : Members) :
    membersWithin .definition ms = ms.flatMap fun m => m.2.within .definition ++ [m] := by
  induction ms with
  | nil => simp [membersWithin]
  | cons m ms ih =>
    obtain ⟨n, d⟩ := m
    simp [membersWithin, ih]

/-- **A new member is appended to the listing**, with what is inside it. -/
theorem within_push {d member d' : Def} {name : String} (hscope : d.isScope = true)
    (h : d.push member name = .ok d') :
    d'.within .definition = d.within .definition ++ member.within .definition ++ [(name, member)] := by
  obtain ⟨-, -, -, -, rfl⟩ := push_eq_ok h
  rw [within_eq, members_withMembers hscope, membersWithin_eq_flatMap, flatMap_append, ← membersWithin_eq_flatMap,
    ← within_eq]
  simp

mutual

/-- **A listing by kind** picks from the listing of everything. -/
theorem within_eq_filter (k : Kind) : ∀ d : Def, d.within k = (d.within .definition).filter fun m => m.2.isA k
  | .enum _ _ _ ms => membersWithin_eq_filter k ms
  | .message _ _ ms => membersWithin_eq_filter k ms
  | .proto _ ms => membersWithin_eq_filter k ms
  | .option _ _ _ | .constant _ _ _ | .typeAlias _ _ | .enumField _ _ | .field _ _ _ => rfl

theorem membersWithin_eq_filter (k : Kind) :
    ∀ ms : List (String × Def), membersWithin k ms = (membersWithin .definition ms).filter fun m => m.2.isA k
  | [] => rfl
  | (n, d) :: ms => by
    rw [membersWithin, membersWithin, within_eq_filter k d, membersWithin_eq_filter k ms, isA_definition, if_pos rfl,
      filter_append, filter_append, filter_singleton, Bool.cond_eq_ite]

end

variable {P : Def → Prop}

mutual

/-- **Induction over what stands inside a definition**: a statement is true of a definition if it is true of its
members. -/
theorem memberInduction (h : ∀ d : Def, (∀ m ∈ d.members, P m.2) → P d) : ∀ d, P d
  | .enum _ _ _ ms => h _ (membersInduction h ms)
  | .message _ _ ms => h _ (membersInduction h ms)
  | .proto _ ms => h _ (membersInduction h ms)
  | .option _ _ _ | .constant _ _ _ | .typeAlias _ _ | .enumField _ _ | .field _ _ _ => h _ fun _ hm => by cases hm

theorem membersInduction (h : ∀ d : Def, (∀ m ∈ d.members, P m.2) → P d) :
    ∀ ms : List (String × Def), ∀ m ∈ ms, P m.2
  | [], _, hm => by cases hm
  | (n, d) :: ms, m, hm => by
    rcases mem_cons.1 hm with rfl | hm
    · exact memberInduction h d
    · exact membersInduction h ms m hm

end

/-- **What is passed on to members is true of everything listed.** -/
theorem forall_mem_within {P : String × Def → Prop} (hP : ∀ m, P m → ∀ e ∈ m.2.members, P e) (d : Def)
    (hd : ∀ e ∈ d.members, P e) : ∀ m ∈ d.within .definition, P m := by
  induction d using memberInduction with
  | h d ih =>
    intro m hm
    rw [within_eq, membersWithin_eq_flatMap] at hm
    obtain ⟨e, he, hm⟩ := mem_flatMap.1 hm
    rcases mem_append.1 hm with hm | hm
    · exact ih e he (hP e (hd e he)) m hm
    · exact mem_singleton.1 hm ▸ hd e he

/-- **What is true of members is true of whatever is listed inside**, which is of the kind that is listed. -/
theorem of_mem_within (hP : ∀ d, P d → ∀ m ∈ d.members, P m.2) {k : Kind} {d : Def} {m : String × Def}
    (hd : P d) (hm : m ∈ d.within k) : m.2.isA k = true ∧ P m.2 := by
  rw [within_eq_filter, mem_filter] at hm
  exact ⟨hm.2, forall_mem_within (fun m h e he => hP m.2 h e he) d (hP d hd) m hm.1⟩

/-- What is inside a member is listed, and the member after it. -/
theorem mem_membersWithin {ms : Members} {m e : String × Def} (hm : m ∈ ms)
    (he : e ∈ m.2.within .definition ∨ e = m) : e ∈ membersWithin .definition ms := by
  rw [membersWithin_eq_flatMap]
  refine mem_flatMap.2 ⟨m, hm, ?_⟩
  rw [mem_append, mem_singleton]
  exact he

theorem mem_within_of_mem {d : Def} {m : String × Def} (hm : m ∈ d.members) : m ∈ d.within .definition := by
  rw [within_eq]
  exact mem_membersWithin hm (.inr rfl)

/-- **What is inside something listed is listed.** -/
theorem mem_within_trans {d : Def} {m e : String × Def} (hm : m ∈ d.within .definition)
    (he : e ∈ m.2.within .definition) : e ∈ d.within .definition := by
  -- being inside something listed is passed on to members
  let P (x : Def) : Prop := ∀ e ∈ x.within .definition, e ∈ d.within .definition
  have hP (x : Def) (hx : P x) (m : String × Def) (hm : m ∈ x.members) : P m.2 := by
    intro e he
    refine hx e ?_
    rw [within_eq]
    exact mem_membersWithin hm (.inl he)
  exact (of_mem_within hP (fun _ h => h : P d) hm).2 e he

/-- **What a path of names leads to is listed.** -/
theorem mem_within_of_member? {d e : Def} {names : List String} (h : d.member? names = some e) :
    ∃ n, (n, e) ∈ d.within .definition := by
  let P (x : Def) : Prop := ∃ n, (n, x) ∈ d.within .definition
  have hP (x : Def) (hx : P x) (m : String × Def) (hm : m ∈ x.members) : P m.2 := by
    obtain ⟨n, hn⟩ := hx
    exact ⟨m.1, mem_within_trans hn (mem_within_of_mem hm)⟩
  exact of_member? hP (fun m hm => ⟨m.1, mem_within_of_mem hm⟩) h

end Def

/-! ### Mentions -/

mutual

/-- **The defined types that a type mentions**, at any depth. -/
def Ty.mentions : Ty → List Def
  | .array _ element _ _ => element.mentions
  | .named d => d :: d.mentions
  | _ => []

/-- **The defined types that a definition mentions**: those of its fields, of its target or of its elements, and
through any chain whatever these mention. -/
def Def.mentions : Def → List Def
  | .typeAlias _ target => target.mentions
  | .enum _ _ _ ms => membersMentions ms
  | .message _ _ ms => membersMentions ms
  | .field _ ty _ => ty.mentions
  | .proto _ ms => membersMentions ms
  | _ => []

def membersMentions : List (String × Def) → List Def
  | [] => []
  | (_, d) :: r => d.mentions ++ membersMentions r

end

theorem mem_membersMentions {ms : Members} {e : Def} :
    e ∈ membersMentions ms ↔ ∃ m ∈ ms, e ∈ m.2.mentions := by
  induction ms with
  | nil => simp [membersMentions]
  | cons m ms ih => simp [membersMentions, ih]

theorem Def.mentions_of_isScope {d : Def} (h : d.isScope = true) : d.mentions = membersMentions d.members := by
  cases d <;> first | rfl | simp [isScope, scopeKind?] at h

/-! ### Definition before use -/

/-- **Lists in which everything is defined first**: what a definition mentions stands before it. -/
inductive DefinedFirst : List Def → Prop where
  | nil : DefinedFirst []
  | concat {ds : List Def} {d : Def} (h : DefinedFirst ds) (hd : ∀ e ∈ d.mentions, e ∈ ds) :
      DefinedFirst (ds ++ [d])

namespace DefinedFirst

theorem append {ds es : List Def} (hds : DefinedFirst ds) (hes : DefinedFirst es) : DefinedFirst (ds ++ es) := by
  induction hes with
  | nil => simpa using hds
  | concat _ hd ih =>
    rw [← append_assoc]
    exact ih.concat fun e he => mem_append_right _ (hd e he)

/-- **What a definition mentions stands before it.** -/
theorem mem_before {ds : List Def} (h : DefinedFirst ds) {before after : List Def} {d e : Def}
    (heq : ds = before ++ d :: after) (he : e ∈ d.mentions) : e ∈ before := by
  induction h generalizing before after with
  | nil => simp at heq
  | @concat ds' d' _ hd ih =>
    rcases eq_nil_or_concat after with rfl | ⟨after', last, rfl⟩
    -- the definition is the last one, or stands further in front
    · obtain ⟨rfl, hlast⟩ := append_inj' heq rfl
      obtain rfl : d' = d := by simpa using hlast
      exact hd e he
    · rw [concat_eq_append, ← cons_append, ← append_assoc] at heq
      exact ih (append_inj' heq rfl).1

theorem mem {ds : List Def} (h : DefinedFirst ds) {d e : Def} (hd : d ∈ ds) (he : e ∈ d.mentions) : e ∈ ds := by
  obtain ⟨before, after, rfl⟩ := append_of_mem hd
  exact mem_append_left _ (h.mem_before rfl he)

end DefinedFirst

end BitSchema
