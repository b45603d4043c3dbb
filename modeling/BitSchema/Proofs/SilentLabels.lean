import BitSchema.Proofs.Relabeling
import BitSchema.Target.Names

/-!
# Labels that are not written

Code that is written for a schema shows names, comments and the paths of files, but neither where a definition was
read nor its serial number.  A relabeling is *silent* if it changes only what does not show (`Relabeling.Silent`).  It
may also move the fields of a message around, since these are written in the order of their numbers.

Members other than fields stay in order.  So they are listed in the same order (`Def.select_silent`), scopes are found
by the new serial numbers (`Env.scope?_silent`), and definitions keep the names by which scopes know them
(`Env.knownName_silent`).
-/

namespace BitSchema

open List

/-- **The members that are no fields** of messages. -/
def others (ms : Members) : Members := ms.filter fun m => !m.2.isA .messageField

/-- **Relabelings that change nothing that is written.** -/
structure Relabeling.Silent (ρ : Relabeling) : Prop where
  scopes : ∀ refs, ρ.scopes refs = refs.map ρ.ref
  comments : ∀ cs, (ρ.comments cs).map Comment.source = cs.map Comment.source
  file : ∀ o, (ρ.origin o).file = o.file
  others_arrange : ∀ ms, others (ρ.arrange ms) = others ms
  ordered : ∀ ms, orderedFields (ρ.arrange ms) = orderedFields ms

/-! ### Members -/

variable {d : Def}

theorem others_append (ms ms' : Members) : others (ms ++ ms') = others ms ++ others ms' := filter_append ..

variable {m : String × Def}

theorem others_cons_field (ms : Members) (h : m.2.isA .messageField = true) :
    others (m :: ms) = others ms :=
  filter_cons_of_neg (by simp [h])

theorem others_cons (ms : Members) (h : m.2.isA .messageField = false) :
    others (m :: ms) = m :: others ms :=
  filter_cons_of_pos (by simp [h])

theorem others_others (ms : Members) : others (others ms) = others ms := by
  rw [others, others, filter_filter]
  simp

theorem others_flatMap {g : String × Def → Members} (hg : ∀ m, m.2.isA .messageField = true → others (g m) = [])
    (ms : Members) : others (ms.flatMap g) = others ((others ms).flatMap g) := by
  induction ms with
  | nil => rfl
  | cons m ms ih =>
    rw [flatMap_cons, others_append, ih]
    cases hm : m.2.isA .messageField with
    | true => rw [hg m hm, others_cons_field ms hm, nil_append]
    | false => rw [others_cons ms hm, flatMap_cons, others_append]

theorem others_map {ρ : Relabeling} (ms : Members) : others (ms.map ρ.member) = (others ms).map ρ.member := by
  rw [others, filter_map]
  simp only [Function.comp_def, Relabeling.member, Def.isA_relabel]
  rfl

variable {ρ : Relabeling}

def Field.relabel (ρ : Relabeling) (f : Field) : Field := ⟨ρ.header f.header, f.ty.relabel ρ, f.number⟩

theorem Def.field?_relabel (d : Def) : (d.relabel ρ).field? = d.field?.map (Field.relabel ρ) := by cases d <;> rfl

theorem fieldsOf_map (ms : Members) : fieldsOf (ms.map ρ.member) = (fieldsOf ms).map (Field.relabel ρ) := by
  rw [fieldsOf, fieldsOf, filterMap_map, map_filterMap]
  simp only [Function.comp_def, Relabeling.member, Def.field?_relabel]

theorem orderedFields_map (ms : Members) :
    orderedFields (ms.map ρ.member) = (orderedFields ms).map (Field.relabel ρ) := by
  rw [orderedFields, orderedFields, fieldsOf_map, map_mergeSort]
  intro _ _ _ _
  rfl

namespace Def

section

variable [Fact ρ.Silent]

/-- **Members other than fields stay in order.** -/
theorem others_members_relabel (d : Def) : others (d.relabel ρ).members = (others d.members).map ρ.member := by
  rcases d.members_relabel_cases with h | h
  · rw [h, others_map]
  · rw [h, (Fact.out : ρ.Silent).others_arrange, others_map]

/-- **Fields stay in the order of their numbers.** -/
theorem orderedFields_relabel (d : Def) :
    orderedFields (d.relabel ρ).members = (orderedFields d.members).map (Field.relabel ρ) := by
  rcases d.members_relabel_cases with h | h
  · rw [h, orderedFields_map]
  · rw [h, (Fact.out : ρ.Silent).ordered, orderedFields_map]

end

/-! ### Fields -/

def ofField (f : Field) : Def := .field f.header f.ty f.number

theorem fields_eq (d : Def) : d.fields = (fieldsOf d.members).map ofField := by
  rw [fields, direct, fieldsOf]
  induction d.members with
  | nil => rfl
  | cons m ms ih =>
    obtain ⟨n, d⟩ := m
    rw [filter_cons, isA_eq rfl]
    cases d with
    | field h ty number => exact congrArg (List.cons _) ih
    | _ => exact ih

theorem sortedFields_eq (d : Def) : d.sortedFields = (orderedFields d.members).map ofField := by
  rw [sortedFields, fields_eq, orderedFields, map_mergeSort]
  intro _ _ _ _
  rfl

@[simp] theorem length_fields_relabel (d : Def) : (d.relabel ρ).fields.length = d.fields.length := by
  have hperm : (fieldsOf (d.relabel ρ).members).Perm (fieldsOf (d.members.map ρ.member)) :=
    d.members_relabel_perm.filterMap _
  rw [fields_eq, fields_eq, length_map, length_map, hperm.length_eq, fieldsOf_map, length_map]

@[simp] theorem isEmpty_fields_relabel (d : Def) : (d.relabel ρ).fields.isEmpty = d.fields.isEmpty := by
  rw [Bool.eq_iff_iff, isEmpty_iff_length_eq_zero, isEmpty_iff_length_eq_zero, length_fields_relabel]

/-- **Fields are written in the same order.** -/
@[simp] theorem sortedFields_relabel [Fact ρ.Silent] (d : Def) :
    (d.relabel ρ).sortedFields = d.sortedFields.map (relabel ρ) := by
  rw [sortedFields_eq, sortedFields_eq, orderedFields_relabel, map_map, map_map]
  rfl

/-! ### Listings -/

theorem membersWithin_eq_flatMap_listed (k : Kind) (ms : Members) : membersWithin k ms = ms.flatMap (listed k true) := by
  induction ms with
  | nil => rfl
  | cons m ms ih =>
    obtain ⟨n, d⟩ := m
    rw [membersWithin, ih, flatMap_cons]
    rfl

variable {k : Kind}

theorem others_listed {recursive : Bool} (h : m.2.isA .messageField = true) :
    others (listed k recursive m) = [] := by
  have hwithin : m.2.within k = [] := by
    obtain ⟨hd, t, n, heq⟩ := eq_field_of_isA h
    rw [heq]
    rfl
  rw [listed, hwithin, ite_self, nil_append]
  split
  · exact others_cons_field [] h
  · rfl

mutual

/-- **What is no field is listed in the same order**, at every depth. -/
theorem others_within_relabel [Fact ρ.Silent] (k : Kind) :
    ∀ d : Def, others ((d.relabel ρ).within k) = (others (d.within k)).map ρ.member
  | .enum _ _ _ ms => others_membersWithin_relabel k ms
  | .message _ _ ms => by
    rw [relabel, within, within, membersWithin_eq_flatMap_listed, others_flatMap (fun _ => others_listed),
      (Fact.out : ρ.Silent).others_arrange, ← others_flatMap (fun _ => others_listed), ← membersWithin_eq_flatMap_listed,
      others_membersWithin_relabel k ms]
  | .proto _ ms => others_membersWithin_relabel k ms
  | .option _ _ _ | .constant _ _ _ | .typeAlias _ _ | .enumField _ _ | .field _ _ _ => rfl

theorem others_membersWithin_relabel [Fact ρ.Silent] (k : Kind) : ∀ ms : List (String × Def),
    others (membersWithin k (membersRelabel ρ ms)) = (others (membersWithin k ms)).map ρ.member
  | [] => rfl
  | (n, d) :: ms => by
    rw [membersRelabel, membersWithin, membersWithin, others_append, others_append, others_append, others_append,
      others_within_relabel k d, others_membersWithin_relabel k ms, isA_relabel, map_append, map_append]
    cases d.isA k with
    | true =>
      rw [if_pos rfl, if_pos rfl]
      exact congrArg (_ ++ · ++ _) (others_map [(n, d)])
    | false => rfl

end

theorem others_listed_relabel [Fact ρ.Silent] (k : Kind) (recursive : Bool) (m : String × Def) :
    others (listed k recursive (ρ.member m)) = (others (listed k recursive m)).map ρ.member := by
  have hself : others (if (ρ.member m).2.isA k then [ρ.member m] else []) =
      (others (if m.2.isA k then [m] else [])).map ρ.member := by
    rw [← others_map, Relabeling.member, isA_relabel]
    cases m.2.isA k <;> rfl
  rw [listed, listed, others_append, others_append, map_append, hself]
  cases recursive with
  | true => exact congrArg (· ++ _) (others_within_relabel k m.2)
  | false => rfl

theorem others_flatMap_members_relabel [Fact ρ.Silent] (d : Def) {g g' : String × Def → Members}
    (hg : ∀ m, m.2.isA .messageField = true → others (g m) = [])
    (hg' : ∀ m, m.2.isA .messageField = true → others (g' m) = [])
    (h : ∀ m, others (g' (ρ.member m)) = (others (g m)).map ρ.member) :
    others ((d.relabel ρ).members.flatMap g') = (others (d.members.flatMap g)).map ρ.member := by
  rw [others_flatMap hg', others_members_relabel, others_flatMap hg]
  generalize others d.members = ms
  induction ms with
  | nil => rfl
  | cons m ms ih =>
    rw [map_cons, flatMap_cons, flatMap_cons, others_append, others_append, map_append, ih, h m]

/-! ### Listings by file -/

theorem others_listedFor {file : Nat} {recursive : Bool}
    (h : m.2.isA .messageField = true) : others (listedFor file k recursive m) = [] := by
  unfold listedFor
  split
  · exact others_listed h
  · rfl

theorem others_listedFor_relabel [Fact ρ.Silent] (file : Nat) (k : Kind) (recursive : Bool) (m : String × Def) :
    others (listedFor (ρ.id file) k recursive (ρ.member m)) =
      (others (listedFor file k recursive m)).map ρ.member := by
  rw [listedFor, listedFor, Relabeling.member, isBound_relabel]
  split
  · exact others_listed_relabel k recursive m
  · rfl

/-- **A listing has the same members other than fields**, and fails alike. -/
theorem select_silent [Fact ρ.Silent] (d : Def) (k : Kind) (recursive : Bool) (bound : Option Nat) :
    ((d.relabel ρ).select k recursive (bound.map ρ.id)).map others =
      ((d.select k recursive bound).map others).map (List.map ρ.member) := by
  cases bound with
  | none =>
    exact congrArg Except.ok (others_flatMap_members_relabel d (fun _ => others_listed) (fun _ => others_listed)
      (others_listed_relabel k recursive))
  | some file =>
    rw [Option.map_some, select_some, select_some, all_placed_relabel]
    cases d.members.all fun m => m.2.placed with
    | false => rfl
    | true =>
      exact congrArg Except.ok (others_flatMap_members_relabel d (fun _ => others_listedFor)
        (fun _ => others_listedFor) (others_listedFor_relabel file k recursive))

/-! ### Members of other kinds -/

theorem isA_messageField_eq_false (hk : Kind.messageField.within k = false) (hd : d.isA k = true) :
    d.isA .messageField = false := by
  by_contra hfield
  obtain ⟨h, t, n, rfl⟩ := eq_field_of_isA (Bool.eq_true_of_not_eq_false hfield)
  rw [isA, kind, hk] at hd
  cases hd

theorem others_direct (hk : Kind.messageField.within k = false) (d : Def) :
    d.direct k = (others d.members).filter fun m => m.2.isA k := by
  rw [direct, others, filter_filter]
  refine filter_congr fun m _ => ?_
  cases hm : m.2.isA k with
  | false => rfl
  | true => rw [isA_messageField_eq_false hk hm]; rfl

/-- **Members of a kind without fields** are the same, in the same order. -/
theorem direct_silent [Fact ρ.Silent] (hk : Kind.messageField.within k = false) (d : Def) :
    (d.relabel ρ).direct k = (d.direct k).map ρ.member := by
  rw [others_direct hk, others_direct hk, others_members_relabel, filter_map]
  simp only [Function.comp_def, Relabeling.member, isA_relabel]

@[simp] theorem enumFields_silent [Fact ρ.Silent] (d : Def) :
    (d.relabel ρ).enumFields = d.enumFields.map (relabel ρ) := by
  rw [enumFields, enumFields, direct_silent rfl, map_map, map_map]
  rfl

/-! ### Options -/

/-- **The same options are set.** -/
@[simp] theorem options_silent [Fact ρ.Silent] (d : Def) : (d.relabel ρ).options = d.options.map (List.map ρ.member) :=
  options_of_direct (direct_silent rfl d)

@[simp] theorem intOption_silent [Fact ρ.Silent] (d : Def) (name : String) :
    (d.relabel ρ).intOption name = d.intOption name := by
  rw [intOption, intOption, optionValue_relabel (options_silent d)]

@[simp] theorem strOption_silent [Fact ρ.Silent] (d : Def) (name : String) :
    (d.relabel ρ).strOption name = d.strOption name := by
  rw [strOption, strOption, optionValue_relabel (options_silent d)]

end Def

/-! ### Scopes by serial number -/

theorem membersScope?_others (id : Nat) (ms : Members) : membersScope? id (others ms) = membersScope? id ms := by
  induction ms with
  | nil => rfl
  | cons m ms ih =>
    obtain ⟨n, d⟩ := m
    cases hd : d.isA .messageField with
    | true =>
      have hnone : d.scope? id = none := by
        obtain ⟨h, t, number, rfl⟩ := Def.eq_field_of_isA hd
        rfl
      rw [others_cons_field ms hd, ih, membersScope?, hnone]
    | false => rw [others_cons ms hd, membersScope?, membersScope?, ih]

theorem foundHere_relabel (h : Header) (id : Nat) (d : Def) (inside : Option Def) :
    (if (ρ.header h).id = ρ.id id then some (d.relabel ρ) else inside.map (Def.relabel ρ)) =
      (if h.id = id then some d else inside).map (Def.relabel ρ) := by
  simp only [Relabeling.header, ρ.id_injective.eq_iff]
  split <;> rfl

mutual

/-- **Scopes are found by their new serial numbers.** -/
theorem Def.scope?_relabel (hρ : ∀ ms, others (ρ.arrange ms) = others ms) (id : Nat) :
    ∀ d : Def, (d.relabel ρ).scope? (ρ.id id) = (d.scope? id).map (Def.relabel ρ)
  | .enum h o cap ms => by
    rw [Def.relabel, Def.scope?, Def.scope?, membersScope?_relabel hρ id ms]
    exact foundHere_relabel h id (.enum h o cap ms) _
  | .message h ext ms => by
    rw [Def.relabel, Def.scope?, Def.scope?, ← membersScope?_others, hρ, membersScope?_others,
      membersScope?_relabel hρ id ms]
    exact foundHere_relabel h id (.message h ext ms) _
  | .proto h ms => by
    rw [Def.relabel, Def.scope?, Def.scope?, membersScope?_relabel hρ id ms]
    exact foundHere_relabel h id (.proto h ms) _
  | .option _ _ _ | .constant _ _ _ | .typeAlias _ _ | .enumField _ _ | .field _ _ _ => rfl

theorem membersScope?_relabel (hρ : ∀ ms, others (ρ.arrange ms) = others ms) (id : Nat) : ∀ ms : List (String × Def),
    membersScope? (ρ.id id) (membersRelabel ρ ms) = (membersScope? id ms).map (Def.relabel ρ)
  | [] => rfl
  | (n, d) :: ms => by
    rw [membersRelabel, membersScope?, membersScope?, Def.scope?_relabel hρ id d, membersScope?_relabel hρ id ms]
    cases d.scope? id <;> rfl

end

namespace Env

def relabel (ρ : Relabeling) (env : Env) : Env := ⟨env.roots.map (Def.relabel ρ)⟩

/-- **Members are told apart by their serial numbers** in every scope that can be found. -/
def Apart (env : Env) : Prop := ∀ id scope, env.scope? id = some scope → (scope.members.map (·.2.id)).Nodup

variable {env : Env}

@[simp] theorem scope?_silent [Fact ρ.Silent] (id : Nat) :
    (env.relabel ρ).scope? (ρ.id id) = (env.scope? id).map (Def.relabel ρ) := by
  rw [scope?, scope?, relabel, findSome?_map]
  induction env.roots with
  | nil => rfl
  | cons root roots ih =>
    rw [findSome?_cons, findSome?_cons, ih, Function.comp_apply, Def.scope?_relabel (Fact.out : ρ.Silent).others_arrange]
    cases root.scope? id <;> rfl

end Env

/-! ### Names -/

/-- What is found by a key that tells all elements apart does not depend on their order. -/
theorem find?_perm {α β : Type} [DecidableEq β] {key : α → β} {as as' : List α} (h : as.Perm as')
    (hnodup : (as.map key).Nodup) (b : β) : as.find? (fun a => key a == b) = as'.find? fun a => key a == b := by
  induction h with
  | nil => rfl
  | cons a _ ih => rw [find?_cons, find?_cons, ih (nodup_cons.1 hnodup).2]
  | swap a a' as =>
    simp only [map_cons, nodup_cons, mem_cons, not_or] at hnodup
    rw [find?_cons, find?_cons, find?_cons, find?_cons]
    cases ha : key a == b with
    | false => rfl
    | true =>
      have hne : (key a' == b) = false := by
        rw [← eq_of_beq ha, beq_eq_false_iff_ne]
        exact hnodup.1.1
      rw [hne]
  | trans h _ ih ih' => exact (ih hnodup).trans (ih' ((h.map key).nodup_iff.1 hnodup))

theorem Def.nameOf?_relabel (h : (d.members.map (·.2.id)).Nodup) (id : Nat) :
    Members.nameOf? (d.relabel ρ).members (ρ.id id) = Members.nameOf? d.members id := by
  have hmap : (d.members.map ρ.member).map (·.2.id) = (d.members.map (·.2.id)).map ρ.id := by
    rw [map_map, map_map]
    exact map_congr_left fun m _ => Def.id_relabel m.2
  have hnodup : ((d.relabel ρ).members.map (·.2.id)).Nodup := by
    rw [(d.members_relabel_perm.map _).nodup_iff, hmap]
    exact h.map ρ.id_injective
  rw [Members.nameOf?, Members.nameOf?, find?_perm d.members_relabel_perm hnodup, find?_map, Option.map_map]
  have hid (m : String × Def) : ((ρ.member m).2.id == ρ.id id) = (m.2.id == id) := by
    rw [Relabeling.member, Def.id_relabel, Bool.eq_iff_iff, beq_iff_eq, beq_iff_eq, ρ.id_injective.eq_iff]
  simp only [Function.comp_def, hid]
  rfl

@[simp] theorem Def.scopes_silent [Fact ρ.Silent] (d : Def) :
    (d.relabel ρ).header.scopes = d.header.scopes.map ρ.ref := by
  rw [Def.header_relabel]
  exact (Fact.out : ρ.Silent).scopes _

namespace Env

variable {env : Env}

section

variable [Fact ρ.Silent]

@[simp] theorem knownName_silent [Fact env.Apart] (d : Def) :
    (env.relabel ρ).knownName (d.relabel ρ) = env.knownName d := by
  unfold knownName
  rw [Def.scopes_silent, getLast?_map, Def.name_relabel, Def.id_relabel]
  cases d.header.scopes.getLast? with
  | none => rfl
  | some s =>
    simp only [Option.map_some, Relabeling.ref, scope?_silent]
    cases hscope : env.scope? s.id with
    | none => rfl
    | some scope => simp only [Option.map_some, Option.bind_some,
        Def.nameOf?_relabel ((Fact.out : env.Apart) _ _ hscope)]

@[simp] theorem knownScopeName_silent [Fact env.Apart] (s : ScopeRef) :
    (env.relabel ρ).knownScopeName (ρ.ref s) = env.knownScopeName s := by
  unfold knownScopeName
  rw [Relabeling.ref, scope?_silent]
  cases env.scope? s.id with
  | none => rfl
  | some scope => exact knownName_silent scope

@[simp] theorem boundOrFail_silent (d : Def) :
    (env.relabel ρ).boundOrFail (d.relabel ρ) = (env.boundOrFail d).map (Def.relabel ρ) := by
  unfold boundOrFail bound?
  rw [Def.header_relabel, Relabeling.header]
  cases d.header.bound with
  | none => rfl
  | some file =>
    rw [Option.map_some, Option.bind_some, Option.bind_some, scope?_silent]
    cases env.scope? file <;> rfl

/-- **Fields are in the same messages**, and values in the same enums. -/
@[simp] theorem ownerOf_silent (d : Def) :
    (env.relabel ρ).messageOf (d.relabel ρ) = (env.messageOf d).map (Def.relabel ρ) ∧
      (env.relabel ρ).enumOf (d.relabel ρ) = (env.enumOf d).map (Def.relabel ρ) := by
  unfold messageOf enumOf
  rw [Def.scopes_silent, getLast?_map]
  cases d.header.scopes.getLast? with
  | none => exact ⟨rfl, rfl⟩
  | some s =>
    simp only [Option.map_some, Relabeling.ref, scope?_silent]
    cases env.scope? s.id with
    | none => exact ⟨rfl, rfl⟩
    | some scope => cases scope <;> exact ⟨rfl, rfl⟩

end

end Env

namespace Dialect

variable {env : Env} (l : Dialect)

section

variable [Fact ρ.Silent]

@[simp] theorem nameStart_silent (d : Def) : l.nameStart (env.relabel ρ) (d.relabel ρ) = l.nameStart env d := by
  unfold nameStart
  rw [Def.isA_relabel, Env.boundOrFail_silent]
  split
  · cases env.boundOrFail d with
    | error f => rfl
    | ok file => simp only [Except.map, bind, Except.bind, Def.strOption_silent]
  · rfl

@[simp] theorem namespaces_silent (d : Def) :
    (d.relabel ρ).header.scopes.filter ScopeRef.isNamespace =
      (d.header.scopes.filter ScopeRef.isNamespace).map ρ.ref := by
  rw [Def.scopes_silent, filter_map]
  rfl

variable [Fact env.Apart]

@[simp] theorem nestNames_silent (d : Def) : nestNames (env.relabel ρ) (d.relabel ρ) = nestNames env d := by
  unfold nestNames
  simp only [namespaces_silent, ← map_reverse, takeWhile_map, map_map, Function.comp_def,
    Env.knownScopeName_silent]
  rfl

@[simp] theorem plainName_silent (d : Def) : l.plainName (env.relabel ρ) (d.relabel ρ) = l.plainName env d := by
  unfold plainName
  rw [nameStart_silent, namespaces_silent, length_map, nestNames_silent, Env.knownName_silent]

@[simp] theorem innerName_silent (d : Def) (kind : Option Kind) :
    l.innerName (env.relabel ρ) (d.relabel ρ) kind = l.innerName env d kind := by
  rw [innerName, innerName, plainName_silent, Def.kind_relabel]

@[simp] theorem reached_silent (d : Def) (name : String) :
    l.reached (env.relabel ρ) (d.relabel ρ) name = l.reached env d name := by
  have hfiles : (d.relabel ρ).header.scopes.filter (fun s => s.kind == .proto) =
      (d.header.scopes.filter fun s => s.kind == .proto).map ρ.ref := by
    rw [Def.scopes_silent, filter_map]
    rfl
  unfold reached
  simp only [hfiles, getLast?_map, length_map]
  cases (d.header.scopes.filter fun s => s.kind == .proto).getLast? with
  | none => rfl
  | some file => simp only [Option.map_some, Env.knownScopeName_silent]

/-- **Definitions keep their names.** -/
@[simp] theorem name_silent (d : Def) (kind : Option Kind) :
    l.name (env.relabel ρ) (d.relabel ρ) kind = l.name env d kind := by
  simp only [name, innerName_silent, reached_silent]

@[simp] theorem derivedName_silent (d : Def) (make : String → Except Fault String) (kind : Option Kind) :
    l.derivedName (env.relabel ρ) (d.relabel ρ) make kind = l.derivedName env d make kind := by
  simp only [derivedName, innerName_silent, reached_silent]

end

@[simp] theorem fieldName_relabel (d : Def) : l.fieldName (d.relabel ρ) = l.fieldName d := by
  rw [fieldName, fieldName, Def.name_relabel]

end Dialect

end BitSchema
