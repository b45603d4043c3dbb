import BitSchema.Proofs.Accepted
import Mathlib.Logic.Relation

/-!
# The order of definitions

Code is written for the definitions of a file in the order in which `Def.select` lists them.  For an accepted file this
is the order in which they were completed: the listing picks from everything that is listed inside the file what belongs
to it (`select_eq_filter`), and what a definition mentions was complete before it.

So every definition of the file is listed once, after all that it mentions, and nothing of an imported file is listed
(`select_definedFirst`).  In particular no definition mentions itself, through any chain.
-/

namespace BitSchema

open Reading List

variable {file : Def}

/-- **References.**  The definition with serial number `a`, inside a file or inside what it imports, mentions the one
with serial number `b`. -/
def Def.Refers (file : Def) (a b : Nat) : Prop :=
  ∃ m ∈ file.within .definition, m.2.id = a ∧ ∃ e ∈ m.2.mentions, e.id = b

abbrev isOwn (file : Nat) (m : String × Def) : Bool := m.2.header.bound == some file

variable {id : Nat}

/-- What is listed with a member belongs to the file if and only if the member does. -/
theorem filter_isOwn_listed {m : String × Def} (h : Proper id m) : (m.2.within .definition ++ [m]).filter (isOwn id) =
    if isOwn id m then m.2.within .definition ++ [m] else [] := by
  cases h with
  | @own d hown _ hinside =>
    rw [if_pos (by simp [hown.bound])]
    exact filter_eq_self.2 (forall_mem_append.2 ⟨fun e he => by simp [(hinside e he).bound], by simp [hown.bound]⟩)
  | @imported d name hkind hbound hinside =>
    rw [if_neg (by simp [hbound])]
    exact filter_eq_nil_iff.2 (forall_mem_append.2 ⟨fun e he => by simpa using hinside e he, by simp [hbound]⟩)

/-- What a member adds to the listing of a file is what belongs to the file. -/
theorem ownListed_eq_filter {m : String × Def} (h : Proper id m) :
    Def.ownListed .boundDefinition true m = (m.2.within .definition ++ [m]).filter (isOwn id) := by
  rw [filter_isOwn_listed h, Def.ownListed]
  cases h with
  | @own d hown _ hinside =>
    have hkinds : d.within .boundDefinition = d.within .definition := by
      rw [Def.within_eq_filter]
      exact filter_eq_self.2 fun e he => Def.isA_boundDefinition (hinside e he).kind
    rw [if_pos hown.kind, Def.listed, if_pos rfl, if_pos (Def.isA_boundDefinition hown.kind), hkinds,
      if_pos (by simp [hown.bound])]
  | @imported d name hkind hbound hinside => rw [if_neg (not_not.2 hkind), if_neg (by simp [hbound])]

/-- **The listing of a file picks what belongs to it.** -/
theorem select_eq_filter (hmembers : ∀ m ∈ file.members, Proper id m) :
    file.select .boundDefinition true (some id) = .ok ((file.within .definition).filter (isOwn id)) := by
  rw [Def.select_bound _ _ hmembers, Def.within_eq, Def.membersWithin_eq_flatMap, filter_flatMap,
    flatMap_def, flatMap_def, map_congr_left fun m hm => ownListed_eq_filter (hmembers m hm)]

/-- What belongs to a file stands inside its own members. -/
theorem filter_isOwn_eq (hmembers : ∀ m ∈ file.members, Proper id m) :
    (file.within .definition).filter (isOwn id) = membersWithin .definition (file.members.filter (isOwn id)) := by
  rw [Def.within_eq, Def.membersWithin_eq_flatMap, Def.membersWithin_eq_flatMap, filter_flatMap]
  generalize file.members = ms at hmembers
  induction ms with
  | nil => rfl
  | cons m ms ih =>
    rw [flatMap_cons, ih fun m' hm' => hmembers m' (mem_cons_of_mem _ hm'),
      filter_isOwn_listed (hmembers m (mem_cons_self ..)), filter_cons]
    split <;> rfl

/-- **Nothing inside an imported file belongs to the importing one.** -/
theorem not_isOwn_of_imported (hmembers : ∀ m ∈ file.members, Proper id m) {child m : String × Def}
    (hchild : child ∈ file.within .proto) (hm : m ∈ child.2.within .definition) : m.2.header.bound ≠ some id := by
  rw [Def.within_eq_filter, mem_filter] at hchild
  obtain ⟨hchild, hproto⟩ := hchild
  have hkind := (Def.isA_proto _).1 hproto
  rw [Def.within_eq, Def.membersWithin_eq_flatMap, mem_flatMap] at hchild
  obtain ⟨member, hmember, hchild⟩ := hchild
  rw [mem_append, mem_singleton] at hchild
  have hproper := hmembers member hmember
  cases hproper with
  | own hown _ hinside =>
    -- there are no files inside the definitions of a file
    rcases hchild with hchild | rfl
    · exact absurd hkind (hinside child hchild).kind
    · exact absurd hkind hown.kind
  | imported name _ _ hinside =>
    rcases hchild with hchild | rfl
    · exact hinside m (Def.mem_within_trans hchild hm)
    · exact hinside m hm

/-! ### Definition before use -/

/-- What is picked from a list in which everything is defined first stands behind what it mentions, if that is
picked. -/
theorem exists_mem_before {l : List (String × Def)} (hfirst : DefinedFirst (l.map (·.2)))
    {before after : List (String × Def)} {d : String × Def} (heq : l.filter (isOwn id) = before ++ d :: after) {e : Def}
    (he : e ∈ d.2.mentions) (hbound : e.header.bound = some id) : ∃ m ∈ before, m.2 = e := by
  obtain ⟨before', rest, rfl, rfl, hrest⟩ := filter_eq_append_iff.1 heq
  obtain ⟨skipped, after', rfl, hskipped, -, -⟩ := filter_eq_cons_iff.1 hrest
  have hlist : (before' ++ (skipped ++ d :: after')).map (·.2) =
      (before' ++ skipped).map (·.2) ++ d.2 :: after'.map (·.2) := by simp
  obtain ⟨m, hm, rfl⟩ := mem_map.1 (hfirst.mem_before hlist he)
  have hown : isOwn id m = true := by simp [hbound]
  rcases mem_append.1 hm with hm | hm
  · exact ⟨m, mem_filter.2 ⟨hm, hown⟩, rfl⟩
  · exact absurd hown (hskipped m hm)

/-- In a list without repetitions what stands in front has a smaller index. -/
theorem idxOf_lt_idxOf {before after : List Nat} {a b : Nat} (hnodup : (before ++ a :: after).Nodup) (hb : b ∈ before) :
    (before ++ a :: after).idxOf b < (before ++ a :: after).idxOf a := by
  have ha : a ∉ before := fun ha => (nodup_append.1 hnodup).2.2 a ha a (mem_cons_self ..) rfl
  rw [idxOf_append_of_mem hb, idxOf_append_of_notMem ha, idxOf_cons_self]
  have := idxOf_lt_length_of_mem hb
  omega

/-- **A definition has a greater index than what it mentions.** -/
theorem Def.Refers.idxOf_lt (hfirst : DefinedFirst ((file.within .definition).map (·.2)))
    (hnodup : ((file.within .definition).map (·.2.id)).Nodup) {a b : Nat} (h : file.Refers a b) :
    ((file.within .definition).map (·.2.id)).idxOf b < ((file.within .definition).map (·.2.id)).idxOf a := by
  obtain ⟨m, hm, rfl, e, he, rfl⟩ := h
  obtain ⟨before, after, hlist⟩ := append_of_mem hm
  rw [hlist, map_append, map_cons] at hfirst hnodup ⊢
  obtain ⟨m', hm', rfl⟩ := mem_map.1 (hfirst.mem_before rfl he)
  exact idxOf_lt_idxOf hnodup (mem_map.2 ⟨m', hm', rfl⟩)

theorem Def.Refers.idxOf_lt_of_transGen (hfirst : DefinedFirst ((file.within .definition).map (·.2)))
    (hnodup : ((file.within .definition).map (·.2.id)).Nodup) {a b : Nat} (h : Relation.TransGen file.Refers a b) :
    ((file.within .definition).map (·.2.id)).idxOf b < ((file.within .definition).map (·.2.id)).idxOf a := by
  induction h with
  | single h => exact h.idxOf_lt hfirst hnodup
  | tail _ h ih => exact (h.idxOf_lt hfirst hnodup).trans ih

/-- **Definition before use, exactly once.**  The listing of an accepted file that code is written from holds

* every definition that belongs to the file, at any depth, and no other,
* none of them twice,
* nothing that is inside an imported file,
* every definition after all definitions of the file that it mentions.

So references never lead in a circle. -/
theorem select_definedFirst (h : Reader.Accepts file) :
    ∃ defs, file.select .boundDefinition true (some file.id) = .ok defs ∧
      (∀ m, m ∈ defs ↔ m ∈ file.within .definition ∧ m.2.header.bound = some file.id) ∧
      (defs.map (·.2.id)).Nodup ∧
      (∀ child ∈ file.within .proto, ∀ m ∈ child.2.within .definition, m.2.id ∉ defs.map (·.2.id)) ∧
      (∀ before d after, defs = before ++ d :: after → ∀ e ∈ d.2.mentions, e.header.bound = some file.id →
        ∃ m ∈ before, m.2 = e) ∧
      ∀ id, ¬Relation.TransGen file.Refers id id := by
  have hmembers := h.proper
  obtain ⟨files, mode, source, h⟩ := h
  obtain ⟨next, hreached⟩ := Reader.AcceptsIn.reached ⟨files, source, h⟩
  have hids : ((file.within .definition).map (·.2.id)).Nodup := by
    have hnodup := hreached.ids.nodup
    rw [serials, soFar_singleton] at hnodup
    exact (List.nodup_append.1 hnodup).2.1
  have hfirst : DefinedFirst ((file.within .definition).map (·.2)) := soFar_singleton file ▸ hreached.definedFirst
  refine ⟨_, select_eq_filter hmembers, ?_, ?_, ?_, ?_, ?_⟩
  · intro m
    rw [List.mem_filter]
    simp
  · exact hids.sublist (List.filter_sublist.map _)
  · -- its serial number would be that of a definition of this file
    intro child hchild m hm hmem
    obtain ⟨d, hd, hid⟩ := List.mem_map.1 hmem
    obtain ⟨hd, hown⟩ := List.mem_filter.1 hd
    have hchild' : child ∈ file.within .definition := by
      rw [Def.within_eq_filter] at hchild
      exact (List.mem_filter.1 hchild).1
    have hsame : d = m := List.inj_on_of_nodup_map hids hd (Def.mem_within_trans hchild' hm) hid
    subst hsame
    exact not_isOwn_of_imported hmembers hchild hm (by simpa using hown)
  · intro before d after heq e he hbound
    exact exists_mem_before hfirst heq he hbound
  · intro id hcycle
    exact Nat.lt_irrefl _ (Def.Refers.idxOf_lt_of_transGen hfirst hids hcycle)

namespace Sample

/-- Two files, of which one imports the other and has an enum and a message inside a message. -/
def library : Files := .ofTree {
  cwd := "/"
  files := [
    (["a"], "proto a import l \"b\" message M\x7benum C:uint2\x7bX=1\x7d message N\x7bC[3] c=1 l.T t=2\x7d N n=1\x7d"),
    (["b"], "proto b type T=int8")] }

def ownNames (files : Files) (path : String) : Except Fault (List String) := do
  let file ← (Reader.parse files path false).result
  let defs ← file.select .boundDefinition true (some file.id)
  return defs.map (·.1)

end Sample

/-- The enum is listed before the message inside that has it, and this before the message around both. -/
theorem select_definedFirst_library :
    ∃ file defs, Reader.Accepts file ∧ file.select .boundDefinition true (some file.id) = .ok defs ∧
      defs.map (·.1) = ["X", "C", "c", "t", "N", "n", "M"] ∧ (defs.map (·.2.id)).Nodup ∧
      ∀ before d after, defs = before ++ d :: after → ∀ e ∈ d.2.mentions, e.header.bound = some file.id →
        ∃ m ∈ before, m.2 = e := by
  have hnames : Sample.ownNames Sample.library "a" = .ok ["X", "C", "c", "t", "N", "n", "M"] := by decide +kernel
  unfold Sample.ownNames at hnames
  cases hparse : (Reader.parse Sample.library "a" false).result with
  | error f =>
    rw [hparse] at hnames
    cases hnames
  | ok file =>
    have haccepts : Reader.Accepts file := ⟨_, false, "a", .inl hparse⟩
    obtain ⟨defs, hselect, -, hnodup, -, hfirst, -⟩ := select_definedFirst haccepts
    simp only [hparse, bind, Except.bind, hselect] at hnames
    exact ⟨file, defs, haccepts, hselect, Except.ok.inj hnames, hnodup, hfirst⟩

end BitSchema
