import BitSchema.Proofs.TraditionalMode

/-!
# Imported files

An imported file does not see the files that import it.  It is the same as if it had been read on its own, but for the
scopes around it, for comments and for serial numbers, which are given out in the same order
(`Reader.parse_imported`).  So whatever is mentioned inside an imported file is defined inside it.
-/

namespace BitSchema

/-- **Without what stands around a file**: the first `n` scopes and all comments are left out. -/
def Relabeling.inside (n : Nat) : Relabeling :=
  { Relabeling.same with scopes := List.drop n, comments := fun _ => [] }

theorem Relabeling.add_injective (k : Nat) : Function.Injective (· + k) := add_left_injective k

/-- **Serial numbers from `k` on**, without comments. -/
def Relabeling.renumbered (k : Nat) : Relabeling :=
  { Relabeling.same with
    id := (· + k)
    scopes := List.map fun r => ⟨r.id + k, r.kind⟩
    comments := fun _ => []
    id_injective := Relabeling.add_injective k }

namespace Reader

open Reading

variable {files : Files} {mode : Bool} {d : Def}

/-- **A file inside `n` scopes is compared with the same file on its own.** -/
def aloneComparison (files : Files) (n k : Nat) : Comparison files where
  left := .inside n
  right := .renumbered k
  Lax := False
  Comments := False
  Near p p' := p' = p
  plain _ := rfl
  plain' _ := rfl
  indent _ := rfl
  comments _ _ _ := rfl
  origin := by
    rintro p _ rfl token line
    rfl
  path _ _ _ := False.elim
  text := (Comparison.exact files False).text
  child := (Comparison.exact files False).child
  strict := .inr ⟨fun _ _ h => h, fun _ _ h => congrArg Origin.file h.symm⟩

theorem outer_alone (outer : List ScopeRef) (k : Nat) : (aloneComparison files outer.length k).Outer outer [] := by
  intro refs refs' hrefs
  change refs.map Relabeling.same.ref = _ at hrefs
  rw [Relabeling.map_same_ref] at hrefs
  change (outer ++ refs).drop outer.length = _
  rw [List.drop_left, hrefs]
  rfl

theorem match_alone {s : State} (hs : s.Fresh) (n : Nat) : (aloneComparison files n s.nextId).Match s {} := by
  refine ⟨?_, fun j => ?_, hs.rest.symm, ?_, hs.newlinePos.symm, False.elim⟩
  · rw [hs.frames]
    rfl
  · change s.nextId + j = 0 + j + s.nextId
    omega
  · rw [hs.ending]

theorem id_of_parse {path : String} (h : (parse files path mode).result = .ok d) : d.id = 0 := by
  obtain ⟨next, hreached⟩ := AcceptsIn.reached ⟨files, path, .inl h⟩
  exact (hreached.framed : IsFile 0 d).id_eq

/-- **A file that has been read can be read on its own**, and is then the same. -/
theorem Given.parse_eq (h : Given files mode d) :
    ∃ e, (parse files d.header.origin.file mode).result = .ok e ∧
      d.relabel (.inside d.header.scopes.length) = e.relabel (.renumbered d.id) := by
  obtain ⟨depth, paths, s, t, hdepth, hs, hread⟩ := h
  have hfinishes : (aloneComparison files d.header.scopes.length s.nextId).Finishes
      ((mode = false ∧ mode = true) ∧ ¬ d.Unmarked) d t
      (readPath files mode (files.reals.length + 1) [] d.header.origin.file [] {}) :=
    finishes_readPath _ rfl (outer_alone _ _) (.inr ⟨fun _ hp => (List.not_mem_nil hp).elim, hdepth⟩) hdepth
      hs fresh_empty
      (match_alone hs _) hread
  cases hread' : readPath files mode (files.reals.length + 1) [] d.header.origin.file [] {} with
  | mk r u =>
    rw [hread'] at hfinishes
    cases r with
    | error f =>
      obtain ⟨⟨hfalse, htrue⟩, -⟩ := hfinishes.resolve_left id
      rw [hfalse] at htrue
      cases htrue
    | ok e =>
      have hparse : (parse files d.header.origin.file mode).result = .ok e := congrArg Prod.fst hread'
      have hlike : d.relabel (.inside d.header.scopes.length) = e.relabel (.renumbered s.nextId) := hfinishes.1
      -- the file itself has the first serial number
      have hid := congrArg Def.id hlike
      rw [Def.id_relabel, Def.id_relabel, id_of_parse hparse] at hid
      change d.id = 0 + s.nextId at hid
      rw [Nat.zero_add] at hid
      rw [← hid] at hlike
      exact ⟨e, hparse, hlike⟩

theorem Given.reached (h : Given files mode d) : ∃ first next, Reached mode d.header.scopes first [d] next := by
  obtain ⟨depth, paths, s, t, hdepth, hs, hread⟩ := h
  -- what is being read around the file does not matter
  have hfinishes : (Comparison.exact files False).Finishes ((mode = false ∧ mode = true) ∧ ¬ d.Unmarked) d t
      (readPath files mode depth [] d.header.origin.file d.header.scopes s) :=
    finishes_readPath _ rfl (outer_exact _) (.inr ⟨fun _ hp => (List.not_mem_nil hp).elim, le_refl _⟩) hdepth
      hs hs (match_exact s) hread
  have hending : Ending (unlimited files).Fails (fun e s' => IsRead mode d.header.scopes s.nextId e s'.nextId)
      (readPath files mode depth [] d.header.origin.file d.header.scopes s) :=
    ending_readPath (unlimited files) (.inl trivial) (by simp) hs.frames
  cases hread' : readPath files mode depth [] d.header.origin.file d.header.scopes s with
  | mk r u =>
    rw [hread'] at hfinishes hending
    cases r with
    | error f =>
      obtain ⟨⟨hfalse, htrue⟩, -⟩ := hfinishes.resolve_left id
      rw [hfalse] at htrue
      cases htrue
    | ok e =>
      have hlike : d.relabel .same = e.relabel .same := hfinishes.1
      rw [Def.relabel_same, Def.relabel_same] at hlike
      subst hlike
      exact ⟨_, _, hending.reached⟩

/-- **What is mentioned in a file is defined in it.** -/
theorem Given.defined (h : Given files mode d) {e : Def} (he : e ∈ d.mentions) : ∃ n, (n, e) ∈ d.within .definition := by
  obtain ⟨first, next, hreached⟩ := h.reached
  have hfirst : DefinedFirst ((d.within .definition).map (·.2)) := soFar_singleton d ▸ hreached.definedFirst
  rw [Def.mentions_of_isScope hreached.isScope, mem_membersMentions] at he
  obtain ⟨m, hm, he⟩ := he
  obtain ⟨e', he', rfl⟩ := List.mem_map.1 (hfirst.mem (List.mem_map_of_mem (Def.mem_within_of_mem hm)) he)
  exact ⟨e'.1, he'⟩

theorem given_of_mem {path : String} {p : Def} (h : (parse files path mode).result = .ok p) {m : String × Def}
    (hm : m ∈ p.within .proto) : Given files mode m.2 := by
  have hread : readPath files mode (files.reals.length + 1) [] path [] {} = (.ok p, _) := Prod.ext h rfl
  rw [Def.within_eq_filter, List.mem_filter] at hm
  exact (loaded_readPath (le_refl _) fresh_empty hread).given m hm.1 ((Def.isA_proto _).1 hm.2)

/-- **Imported files are the same as if they had been read on their own**, at any depth of imports: reading the same
path in the same mode gives the same file, but for the scopes around it, for comments and for serial numbers.  In
particular whatever is mentioned inside an imported file is defined inside it, and not in a file that imports it. -/
theorem parse_imported {files : Files} {path : String} {mode : Bool} {p : Def}
    (h : (parse files path mode).result = .ok p) {m : String × Def} (hm : m ∈ p.within .proto) :
    (∃ d, (parse files m.2.header.origin.file mode).result = .ok d ∧
      m.2.relabel (.inside m.2.header.scopes.length) = d.relabel (.renumbered m.2.id)) ∧
    ∀ e ∈ m.2.mentions, ∃ n, (n, e) ∈ m.2.within .definition :=
  ⟨(given_of_mem h hm).parse_eq, fun _ he => (given_of_mem h hm).defined he⟩

namespace Sample

/-- Three files, each of which imports the next. -/
def chain : Files := .ofTree {
  cwd := "/"
  files := [
    (["a"], "proto a\nmessage T\x7bbool b=1\x7d\nimport \"b\""),
    (["b"], "proto b\nimport l \"c\"\nmessage M\x7bl.T t=1\x7d"),
    (["c"], "// Of c\nproto c\n  message T\x7benum C:uint2\x7bX=1\x7d C c=1\x7d")] }

/-- The names, paths and numbers of scopes around of the imported files. -/
def imported (p : Def) : List (String × String × Nat) :=
  (p.within .proto).map fun m => (m.1, m.2.header.origin.file, m.2.header.scopes.length)

end Sample

theorem parse_imported_chain : ∃ p, (parse Sample.chain "a" true).result = .ok p ∧
    Sample.imported p = [("l", "c", 2), ("b", "b", 1)] ∧
    ∀ m ∈ p.within .proto,
      (∃ d, (parse Sample.chain m.2.header.origin.file true).result = .ok d ∧
        m.2.relabel (.inside m.2.header.scopes.length) = d.relabel (.renumbered m.2.id)) ∧
      ∀ e ∈ m.2.mentions, ∃ n, (n, e) ∈ m.2.within .definition := by
  have himported : (parse Sample.chain "a" true).result.map Sample.imported = .ok [("l", "c", 2), ("b", "b", 1)] := by
    decide +kernel
  cases hparse : (parse Sample.chain "a" true).result with
  | error f =>
    rw [hparse] at himported
    cases himported
  | ok p =>
    rw [hparse] at himported
    exact ⟨p, rfl, Except.ok.inj himported, fun m hm => parse_imported hparse hm⟩

end Reader

end BitSchema
