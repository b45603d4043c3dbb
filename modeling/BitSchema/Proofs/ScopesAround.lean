import BitSchema.Proofs.SchemaRules
import BitSchema.Proofs.SilentLabels

/-!
# The scopes around a definition

Each definition lists the scopes that were open around it when it was read, outermost first.  In a file that has been
read these are the scopes in which it is found again: whatever is a member of a scope lists the scopes that the scope
lists, and then the scope itself (`Def.Nests`).  So a definition inside a file lists the scopes around the file, the
file, and scopes of the file (`Def.LaidOut.scopes_eq`), and the last file among them is the one that it belongs to
(`Def.Placed`).

Serial numbers tell all definitions apart.  So a scope is found by its number (`Def.scope?_of_contains`), and a
definition is known by the name under which it is a member (`Def.LaidOut.knownName_eq`).
-/

namespace BitSchema

open Reading List

/-! ### Scopes by serial number -/

variable {m : String × Def}

namespace Def

variable {d s : Def} {id : Nat}

theorem scope?_eq (id : Nat) (d : Def) : d.scope? id =
    if d.isScope then if d.id = id then some d else d.members.findSome? fun m => m.2.scope? id else none := by
  have hmembers (ms : Members) : membersScope? id ms = ms.findSome? fun m => m.2.scope? id := by
    induction ms with
    | nil => rfl
    | cons m ms ih =>
      rw [membersScope?, findSome?_cons, ih]
      cases m.2.scope? id <;> rfl
  cases d <;> simp only [Def.scope?, hmembers] <;> rfl

theorem within_sublist_of_mem (hm : m ∈ d.members) :
    (m.2.within .definition ++ [m]).Sublist (d.within .definition) := by
  rw [within_eq _ d, membersWithin_eq_flatMap, List.flatMap]
  exact sublist_flatten_of_mem (mem_map_of_mem hm)

theorem members_sublist_within (d : Def) : d.members.Sublist (d.within .definition) := by
  rw [within_eq, membersWithin_eq_flatMap]
  induction d.members with
  | nil => exact .refl _
  | cons m ms ih =>
    rw [flatMap_cons, append_assoc]
    exact (ih.cons_cons m).trans (sublist_append_right _ _)

/-- **What is found is a scope with the number**, and what is inside it is inside. -/
theorem of_scope? (h : d.scope? id = some s) :
    s.id = id ∧ s.isScope = true ∧ d.Contains s ∧ (s.within .definition).Sublist (d.within .definition) := by
  induction d using memberInduction with
  | h d ih =>
    rw [scope?_eq] at h
    split at h
    · next hscope =>
      split at h
      · next hid =>
        cases h
        exact ⟨hid, hscope, .inl rfl, .refl _⟩
      · obtain ⟨m, hm, h⟩ := exists_of_findSome?_eq_some h
        obtain ⟨hid, hs, hcontains, hsublist⟩ := ih m hm h
        refine ⟨hid, hs, .inr ?_, hsublist.trans ((sublist_append_left ..).trans (within_sublist_of_mem hm))⟩
        rcases hcontains with rfl | ⟨n, hn⟩
        · exact ⟨m.1, mem_within_of_mem hm⟩
        · exact ⟨n, mem_within_trans (mem_within_of_mem hm) hn⟩
    · cases h

/-- **Serial numbers tell everything apart**: the definition itself and what is inside it. -/
def Numbered (d : Def) : Prop := (d.id :: (d.within .definition).map (·.2.id)).Nodup

theorem Numbered.member (h : d.Numbered) (hm : m ∈ d.members) : m.2.Numbered := by
  have hsublist := ((within_sublist_of_mem hm).map (·.2.id)).nodup (nodup_cons.1 h).2
  rw [map_append] at hsublist
  exact (nodup_append_comm.1 hsublist)

theorem Numbered.eq_of_id (h : d.Numbered) {e e' : Def} (he : d.Contains e) (he' : d.Contains e') (hid : e.id = e'.id) :
    e = e' := by
  obtain ⟨hfresh, hnodup⟩ := nodup_cons.1 h
  rcases he with rfl | ⟨n, hn⟩ <;> rcases he' with rfl | ⟨n', hn'⟩
  · rfl
  · exact absurd (mem_map.2 ⟨_, hn', hid.symm⟩) hfresh
  · exact absurd (mem_map.2 ⟨_, hn, hid⟩) hfresh
  · exact congrArg Prod.snd (inj_on_of_nodup_map hnodup hn hn' hid)

/-- **Scopes are found by their numbers.** -/
theorem scope?_of_contains (h : d.Numbered) (hs : d.Contains s) (hscope : s.isScope = true) :
    d.scope? s.id = some s := by
  -- something is found; it has the same number, so it is the same
  suffices hsome : d.scope? s.id ≠ none by
    obtain ⟨s', hs'⟩ := Option.ne_none_iff_exists'.1 hsome
    obtain ⟨hid, -, hcontains, -⟩ := of_scope? hs'
    rw [hs', h.eq_of_id hcontains hs hid]
  induction d using memberInduction with
  | h d ih =>
    rw [scope?_eq]
    rcases hs with rfl | ⟨n, hn⟩
    · rw [if_pos hscope, if_pos rfl]
      exact Option.some_ne_none _
    · rw [within_eq, membersWithin_eq_flatMap] at hn
      obtain ⟨m, hm, hn⟩ := mem_flatMap.1 hn
      have hfound : m.2.scope? s.id ≠ none := by
        refine ih m hm (h.member hm) ?_
        rcases mem_append.1 hn with hn | hn
        · exact .inr ⟨n, hn⟩
        · exact .inl (congrArg Prod.snd (mem_singleton.1 hn))
      have hd : d.isScope = true := by
        cases d <;> first | rfl | cases hm
      rw [if_pos hd]
      split
      · exact Option.some_ne_none _
      · exact fun hnone => hfound (findSome?_eq_none_iff.1 hnone m hm)

end Def

/-! ### Scopes that are listed -/

/-- **Members stand inside the scope** of which they are members. -/
def Def.Nests (d : Def) : Prop := ∀ m ∈ d.members, m.2.header.scopes = d.header.scopes ++ [frameRef d]

/-- The files among scopes. -/
def files (refs : List ScopeRef) : List ScopeRef := refs.filter fun r => r.kind == .proto

/-- **Definitions in their place**: their members stand inside them, and they belong to the last file around them. -/
structure Def.Placed (d : Def) : Prop where
  nests : d.Nests
  home : ∀ b ∈ d.header.bound, (files d.header.scopes).getLast? = some ⟨b, .proto⟩

theorem files_append (refs refs' : List ScopeRef) : files (refs ++ refs') = files refs ++ files refs' := filter_append ..

namespace Reading

variable {mode : Bool} {outer : List ScopeRef} {file next : Nat} {frames : List Def} {d d' member : Def} {name : String}

theorem frameRef_of_push (h : d.push member name = .ok d') : frameRef d' = frameRef d := by
  rw [frameRef, frameRef, Def.scopeRef?, Def.scopeRef?, scopeKind?_of_push h, id_of_push h]

theorem frameRef_withHeader {h : Header} (hid : h.id = d.id) : frameRef (d.withHeader h) = frameRef d := by
  rw [frameRef, frameRef, Def.scopeRef?, Def.scopeRef?, d.scopeKind?_withHeader, d.id_withHeader, hid]

theorem frameRef_of_kind {k : ScopeKind} (h : d.scopeKind? = some k) : frameRef d = ⟨d.id, k⟩ := by
  rw [frameRef, Def.scopeRef?, h]
  rfl

/-- **The file is the only file among its open scopes.** -/
theorem Framed.files (h : Framed file frames) : files (frames.reverse.map frameRef) = [⟨file, .proto⟩] := by
  induction frames with
  | nil => exact h.elim
  | cons d frames ih =>
    rw [reverse_cons, map_append, files_append]
    cases frames with
    | nil =>
      rw [map_singleton, frameRef_of_kind h.kind, h.id_eq]
      rfl
    | cons e frames =>
      have hinner : BitSchema.files [frameRef d] = [] := by
        obtain ⟨k, hk⟩ := Option.isSome_iff_exists.1 h.1.scope
        rw [frameRef_of_kind hk]
        cases k <;> first | rfl | exact absurd hk h.1.kind
      rw [ih h.2, map_singleton, hinner, append_nil]

/-- Each open scope lists the ones around it. -/
def Stacked (outer : List ScopeRef) : List Def → Prop
  | [] => True
  | d :: frames => d.header.scopes = outer ++ frames.reverse.map frameRef ∧ Stacked outer frames

theorem Reached.stacked (h : Reached mode outer file frames next) : Stacked outer frames := by
  induction h with
  | start _ hscopes => exact ⟨hscopes.trans (append_nil _).symm, trivial⟩
  | rehead _ _ _ hscopes ih => exact ⟨(congrArg Header.scopes (Def.header_withHeader ..)).trans
      (hscopes.trans ih.1), ih.2⟩
  | define _ _ _ hpush ih => exact ⟨(congrArg Header.scopes (header_of_push hpush)).trans ih.1, ih.2⟩
  | importFile _ _ _ _ hpush ih _ => exact ⟨(congrArg Header.scopes (header_of_push hpush)).trans ih.1, ih.2⟩
  | openScope _ _ hnext ih => exact ⟨hnext.scopes, ih⟩
  | closeScope _ _ _ _ hpush ih => exact ⟨(congrArg Header.scopes (header_of_push hpush)).trans ih.2.1, ih.2.2⟩

theorem Stacked.append_singleton (h : Stacked outer (d :: frames)) :
    outer ++ (d :: frames).reverse.map frameRef = d.header.scopes ++ [frameRef d] := by
  rw [h.1, reverse_cons, map_append, append_assoc]
  rfl

theorem IsNext.home {h : Header} (hnext : IsNext outer file frames next h) (hframed : Framed file frames) :
    ∀ b ∈ h.bound, (files h.scopes).getLast? = some ⟨b, .proto⟩ := by
  intro b hb
  rw [hnext.bound, Option.mem_some] at hb
  rw [hnext.scopes, files_append, hframed.files, getLast?_concat, hb]

theorem push_placed (hd : d.Placed) (hscope : d.isScope = true) (hpush : d.push member name = .ok d')
    (hmember : member.header.scopes = d.header.scopes ++ [frameRef d]) : d'.Placed := by
  have hheader := header_of_push hpush
  refine ⟨?_, hheader ▸ hd.home⟩
  rw [Def.Nests, hheader, frameRef_of_push hpush]
  exact forall_members_push hscope hpush hd.nests hmember

theorem placed_of_members (hmembers : d.members = [])
    (hhome : ∀ b ∈ d.header.bound, (files d.header.scopes).getLast? = some ⟨b, .proto⟩) : d.Placed :=
  ⟨by simp [Def.Nests, hmembers], hhome⟩

/-- **Everything is in its place**, and imported files have names. -/
theorem Reached.placed (h : Reached mode outer file frames next) : (∀ d ∈ frames, d.Placed) ∧
    ∀ m ∈ soFar frames, m.2.Placed ∧ (m.2.scopeKind? = some .proto → m.1 ≠ "") := by
  induction h with
  | start hbound _ =>
    refine ⟨forall_mem_singleton.2 (placed_of_members rfl fun b hb => ?_), by simp [soFar, Def.within, membersWithin]⟩
    rw [Def.header, hbound] at hb
    cases hb
  | @rehead _ _ _ d h _ _ hid hbound hscopes ih =>
    obtain ⟨hd, hframes⟩ := forall_mem_cons.1 ih.1
    rw [soFar_rehead]
    refine ⟨forall_mem_cons.2 ⟨⟨?_, ?_⟩, hframes⟩, ih.2⟩
    · rw [Def.Nests, d.members_withHeader, d.header_withHeader, hscopes, frameRef_withHeader hid]
      exact hd.nests
    · rw [d.header_withHeader, hbound, hscopes]
      exact hd.home
  | define before hread hnext hpush ih =>
    obtain ⟨hd, hframes⟩ := forall_mem_cons.1 ih.1
    refine ⟨forall_mem_cons.2
      ⟨push_placed hd before.isScope hpush (hnext.scopes.trans before.stacked.append_singleton), hframes⟩, ?_⟩
    rw [before.soFar_push hpush, hread.within_eq]
    refine forall_mem_append.2 ⟨ih.2, forall_mem_singleton.2 ⟨placed_of_members ?_ (hnext.home before.framed), ?_⟩⟩
    · cases hread <;> rfl
    · exact fun hkind => absurd hkind hread.scopeKind?_ne
  | importFile before himport hname _ hpush ih ihchild =>
    obtain ⟨hd, hframes⟩ := forall_mem_cons.1 ih.1
    have hscopes := himport.stacked.1.trans ((append_nil _).trans before.stacked.append_singleton)
    refine ⟨forall_mem_cons.2 ⟨push_placed hd before.isScope hpush hscopes, hframes⟩, ?_⟩
    rw [before.soFar_push hpush, ← soFar_singleton]
    exact forall_mem_append.2 ⟨ih.2, forall_mem_append.2
      ⟨ihchild.2, forall_mem_singleton.2 ⟨ihchild.1 _ (mem_singleton_self _), fun _ => hname⟩⟩⟩
  | openScope before hopens hnext ih =>
    rw [soFar_opens hopens]
    refine ⟨forall_mem_cons.2 ⟨placed_of_members ?_ (hnext.home before.framed), ih.1⟩, ih.2⟩
    cases hopens <;> rfl
  | closeScope before _ _ _ hpush ih =>
    obtain ⟨hd, hrest⟩ := forall_mem_cons.1 ih.1
    obtain ⟨he, hframes⟩ := forall_mem_cons.1 hrest
    have hstacked := before.stacked
    have hscopes := hstacked.1.trans hstacked.2.append_singleton
    have hscope := before.framed.isScope _ (mem_cons_of_mem _ (mem_cons_self ..))
    refine ⟨forall_mem_cons.2 ⟨push_placed he hscope hpush hscopes, hframes⟩, ?_⟩
    rw [before.soFar_close hpush]
    exact forall_mem_append.2
      ⟨ih.2, forall_mem_singleton.2 ⟨hd, fun hkind => absurd hkind before.framed.1.kind⟩⟩

end Reading

/-! ### Files that have been read -/

/-- **Laid-out files**: numbers tell definitions apart, everything is in its place, and imported files have names. -/
structure Def.LaidOut (p : Def) : Prop where
  kind : p.scopeKind? = some .proto
  numbered : p.Numbered
  nests : p.Nests
  placed : ∀ m ∈ p.within .definition, m.2.Placed
  named : ∀ m ∈ p.within .definition, m.2.scopeKind? = some .proto → m.1 ≠ ""

variable {p : Def}

theorem Reading.Reached.laidOut {mode : Bool} {outer : List ScopeRef} {file next : Nat}
    (h : Reached mode outer file [p] next) : p.LaidOut := by
  obtain ⟨hframes, hlisted⟩ := h.placed
  have hids := h.ids.nodup
  rw [soFar_singleton] at hlisted
  rw [serials, soFar_singleton] at hids
  exact ⟨(h.framed : IsFile file p).kind, hids, (hframes p (mem_singleton_self p)).nests,
    fun m hm => (hlisted m hm).1, fun m hm => (hlisted m hm).2⟩

theorem Env.scope?_singleton (p : Def) (id : Nat) : Env.scope? ⟨[p]⟩ id = p.scope? id := findSome?_singleton

/-- **Everything listed is a member** of the file or of something listed. -/
theorem Def.exists_parent (hm : m ∈ p.within .definition) : ∃ d, p.Contains d ∧ d.isScope = true ∧ m ∈ d.members := by
  have hscope {d : Def} {e : String × Def} (he : e ∈ d.members) : d.isScope = true := by
    cases d <;> first | rfl | cases he
  let P (m : String × Def) : Prop := m ∈ p.within .definition ∧ ∃ d, p.Contains d ∧ d.isScope = true ∧ m ∈ d.members
  have hP (m : String × Def) (hm : P m) (e : String × Def) (he : e ∈ m.2.members) : P e :=
    ⟨mem_within_trans hm.1 (mem_within_of_mem he), m.2, .inr ⟨m.1, hm.1⟩, hscope he, he⟩
  exact (forall_mem_within hP p (fun e he => ⟨mem_within_of_mem he, p, .inl rfl, hscope he, he⟩) m hm).2

namespace Def.LaidOut

variable {p : Def} (hp : p.LaidOut) {m : String × Def}
include hp

theorem nests_of_contains {d : Def} (hd : p.Contains d) : d.Nests := by
  rcases hd with rfl | ⟨n, hn⟩
  · exact hp.nests
  · exact (hp.placed _ hn).nests

/-- **A definition inside a file** lists the scopes around the file, the file, and scopes inside the file. -/
theorem scopes_eq (hm : m ∈ p.within .definition) : ∃ refs, m.2.header.scopes = p.header.scopes ++ frameRef p :: refs ∧
    ∀ r ∈ refs, ∃ e ∈ p.within .definition, e.2.isScope = true ∧ frameRef e.2 = r := by
  let P (m : String × Def) : Prop := m ∈ p.within .definition ∧
    ∃ refs, m.2.header.scopes = p.header.scopes ++ frameRef p :: refs ∧
      ∀ r ∈ refs, ∃ e ∈ p.within .definition, e.2.isScope = true ∧ frameRef e.2 = r
  have hP (m : String × Def) (hm : P m) (e : String × Def) (he : e ∈ m.2.members) : P e := by
    obtain ⟨hmem, refs, hscopes, hrefs⟩ := hm
    refine ⟨mem_within_trans hmem (mem_within_of_mem he), refs ++ [frameRef m.2], ?_, ?_⟩
    · rw [(hp.placed m hmem).nests e he, hscopes, append_assoc, cons_append]
    · refine forall_mem_append.2 ⟨hrefs, forall_mem_singleton.2 ⟨m, hmem, ?_, rfl⟩⟩
      generalize m.2 = d at he
      cases d <;> first | rfl | cases he
  exact (forall_mem_within hP p (fun e he => ⟨mem_within_of_mem he, [], hp.nests e he, by simp⟩) m hm).2

/-- **A definition is known by the name** under which it is listed. -/
theorem knownName_eq (hm : m ∈ p.within .definition) :
    Env.knownName ⟨[p]⟩ m.2 = if m.1.isEmpty then m.2.name else m.1 := by
  obtain ⟨d, hd, hscope, hmem⟩ := exists_parent hm
  obtain ⟨k, hk⟩ := Option.isSome_iff_exists.1 hscope
  have hfind : d.members.find? (fun e => e.2.id == m.2.id) = some m := by
    cases hfound : d.members.find? fun e => e.2.id == m.2.id with
    | none => exact absurd (find?_eq_none.1 hfound m hmem) (by simp)
    | some e =>
      have he := hd.member (mem_of_find?_eq_some hfound)
      have hid : e.2.id = m.2.id := by simpa using find?_some hfound
      rw [inj_on_of_nodup_map (nodup_cons.1 hp.numbered).2 he hm hid]
  rw [Env.knownName, hp.nests_of_contains hd m hmem, getLast?_concat, frameRef_of_kind hk]
  simp only [Env.scope?_singleton, scope?_of_contains hp.numbered hd hscope, Option.bind_some, Members.nameOf?, hfind,
    Option.map_some]

/-- **Members are told apart by their serial numbers.** -/
theorem apart : Env.Apart ⟨[p]⟩ := by
  intro id scope hscope
  rw [Env.scope?_singleton] at hscope
  have hsublist : scope.members.Sublist (p.within .definition) :=
    scope.members_sublist_within.trans (of_scope? hscope).2.2.2
  exact (hsublist.map _).nodup (nodup_cons.1 hp.numbered).2

end Def.LaidOut

/-- **Accepted schemas are laid out**, with no scopes around them. -/
theorem Reader.AcceptsIn.laidOut {mode : Bool} (h : AcceptsIn mode p) : p.LaidOut ∧ p.header.scopes = [] := by
  obtain ⟨next, hreached⟩ := h.reached
  exact ⟨hreached.laidOut, hreached.stacked.1⟩

theorem Reader.Accepts.laidOut (h : Accepts p) : p.LaidOut ∧ p.header.scopes = [] := by
  obtain ⟨files, mode, source, h⟩ := h
  exact AcceptsIn.laidOut ⟨files, source, h⟩

end BitSchema
