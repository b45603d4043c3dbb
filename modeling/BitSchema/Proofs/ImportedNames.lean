import BitSchema.Proofs.ImportedFiles
import BitSchema.Proofs.ScopesAround

/-!
# Names in imported files

The name of a definition inside its file is made of the names of the messages around it.  The definition lists more
scopes when its file is imported than when its file is read alone, and the scopes have other numbers; but going outwards
from the definition the scopes are the same up to the file, and the name looks no further (`Dialect.nestNames_eq`).  So
the code written for a file that is imported and the code of the files that import it call its definitions by the same
names (`Reader.innerName_alone`).
-/

namespace BitSchema

open Reading List

/-! ### The same definition in two files -/

/-- **The same definition**, in a file inside `n` scopes whose number is `k` and in the file alone. -/
def Def.SameAlone (n k : Nat) (d e : Def) : Prop := d.relabel (.inside n) = e.relabel (.renumbered k)

/-- The reference to a scope when all numbers grow by `k`. -/
def ScopeRef.shift (k : Nat) (r : ScopeRef) : ScopeRef := ⟨r.id + k, r.kind⟩

namespace Def.SameAlone

variable {n k : Nat} {d e : Def} (h : d.SameAlone n k e)
include h

theorem id_eq : d.id = e.id + k := by
  simpa [Relabeling.inside, Relabeling.same, Relabeling.renumbered] using congrArg Def.id h

theorem kind_eq : d.kind = e.kind := by simpa using congrArg Def.kind h

theorem name_eq : d.name = e.name := by simpa using congrArg Def.name h

theorem header_eq : (Relabeling.inside n).header d.header = (Relabeling.renumbered k).header e.header := by
  simpa using congrArg Def.header h

theorem scopes_eq : d.header.scopes.drop n = e.header.scopes.map (ScopeRef.shift k) := congrArg Header.scopes h.header_eq

theorem bound_eq : d.header.bound = e.header.bound.map (· + k) := by
  have hbound := congrArg Header.bound h.header_eq
  exact Option.map_id'.symm.trans hbound

theorem strOption_eq (name : String) : d.strOption name = e.strOption name := by
  have hleft := optionValue_relabel (options_relabel (ρ := .inside n) (fun _ => rfl) d) name .string
  have hright := optionValue_relabel (options_relabel (ρ := .renumbered k) (fun _ => rfl) e) name .string
  rw [strOption, strOption, ← hleft, ← hright, h]

theorem nameOf?_eq {x y : Def} (hd : (d.members.map (·.2.id)).Nodup) (he : (e.members.map (·.2.id)).Nodup)
    (hx : x.SameAlone n k y) : Members.nameOf? d.members x.id = Members.nameOf? e.members y.id := by
  have hleft := nameOf?_relabel (ρ := .inside n) hd x.id
  have hright := nameOf?_relabel (ρ := .renumbered k) he y.id
  rw [← hleft, ← hright, h, hx.id_eq]
  rfl

theorem exists_scope? {j : Nat} {t : Def} (ht : e.scope? j = some t) :
    ∃ s, d.scope? (j + k) = some s ∧ s.SameAlone n k t := by
  have hleft := scope?_relabel (ρ := .inside n) (fun _ => rfl) (j + k) d
  have hright := scope?_relabel (ρ := .renumbered k) (fun _ => rfl) j e
  change _ = Option.map _ (d.scope? (j + k)) at hleft
  have hfound : (d.scope? (j + k)).map (relabel (.inside n)) = some (t.relabel (.renumbered k)) := by
    rw [← hleft, h, ← Option.map_some, ← ht]
    exact hright
  exact Option.map_eq_some_iff.1 hfound

end Def.SameAlone

/-! ### Names that end at the file -/

theorem takeWhile_append_cons {α : Type} {P : α → Bool} {a : α} (ha : P a = false) (as bs : List α) :
    (as ++ a :: bs).takeWhile P = as.takeWhile P := by
  induction as with
  | nil => exact takeWhile_cons_of_neg (by simp [ha])
  | cons b as ih =>
    rw [cons_append, takeWhile_cons, takeWhile_cons, ih]

namespace Dialect

variable {env : Env} {d : Def} {outer refs : List ScopeRef} {file : ScopeRef}

/-- **Names end at the file**: the scopes around the file of a definition do not matter. -/
theorem nestNames_eq (h : d.header.scopes = outer ++ file :: refs) (hfile : file.kind = .proto) : nestNames env d =
    ((((refs.filter ScopeRef.isNamespace).reverse.takeWhile fun s => s.kind == .message).map
      env.knownScopeName).reverse) := by
  have hspace : file.isNamespace = true := by simp [ScopeRef.isNamespace, hfile]
  unfold nestNames
  simp only [h, filter_append, filter_cons_of_pos hspace, reverse_append, reverse_cons,
    append_assoc, singleton_append]
  rw [takeWhile_append_cons (by simp [hfile])]

/-- A definition that stands directly in its file needs no other rule. -/
theorem plainName_eq (l : Dialect) (h : d.header.scopes = outer ++ file :: refs) (hfile : file.kind = .proto) :
    l.plainName env d = do
      return (← l.nameStart env d) ++ nestSeparator.intercalate (nestNames env d ++ [env.knownName d]) := by
  have hspace : file.isNamespace = true := by simp [ScopeRef.isNamespace, hfile]
  unfold plainName
  cases l.nameStart env d with
  | error f => rfl
  | ok start =>
    simp only [bind, Except.bind]
    split
    · next hlength =>
      rw [h, filter_append, filter_cons_of_pos hspace, length_append, length_cons] at hlength
      have hrefs : refs.filter ScopeRef.isNamespace = [] := length_eq_zero_iff.1 (by omega)
      rw [nestNames_eq h hfile, hrefs]
      rfl
    · rfl

end Dialect

/-! ### Names in a file and in the file alone -/

/-- **A file inside another one, and the same file alone.** -/
structure Def.Alone (p q e : Def) (n k : Nat) : Prop where
  root : p.LaidOut
  inside : p.Contains q
  same : q.SameAlone n k e
  alone : e.LaidOut
  first : e.header.scopes = []

namespace Def.Alone

variable {p q e : Def} {n k : Nat} (h : p.Alone q e n k) {x : Def} {m : String × Def}
include h

theorem exists_scope? {j : Nat} {t : Def} (ht : e.scope? j = some t) :
    ∃ s, Env.scope? ⟨[p]⟩ (j + k) = some s ∧ s.SameAlone n k t := by
  obtain ⟨s, hs, hsame⟩ := h.same.exists_scope? ht
  obtain ⟨hid, hscope, hcontains, -⟩ := of_scope? hs
  have hp : p.Contains s := by
    rcases hcontains with rfl | ⟨n, hn⟩
    · exact h.inside
    · rcases h.inside with rfl | ⟨n', hn'⟩
      · exact .inr ⟨n, hn⟩
      · exact .inr ⟨n, mem_within_trans hn' hn⟩
  rw [Env.scope?_singleton, ← hid, scope?_of_contains h.root.numbered hp hscope]
  exact ⟨s, rfl, hsame⟩

/-- **A definition alone lists its file and scopes inside it**, all of which are found. -/
theorem exists_refs (hm : m ∈ e.within .definition) : ∃ refs, m.2.header.scopes = [] ++ ⟨e.id, .proto⟩ :: refs ∧
    (∀ r ∈ m.2.header.scopes, ∃ t, e.scope? r.id = some t) ∧
    ∀ r ∈ refs, ∃ i ∈ e.within .definition, e.scope? r.id = some i.2 := by
  obtain ⟨refs, hscopes, hrefs⟩ := h.alone.scopes_eq hm
  rw [h.first, frameRef_of_kind h.alone.kind] at hscopes
  have hfound (r : ScopeRef) (hr : r ∈ refs) : ∃ i ∈ e.within .definition, e.scope? r.id = some i.2 := by
    obtain ⟨i, hi, hscope, rfl⟩ := hrefs r hr
    obtain ⟨kind, hkind⟩ := Option.isSome_iff_exists.1 hscope
    rw [frameRef_of_kind hkind]
    exact ⟨i, hi, scope?_of_contains h.alone.numbered (.inr ⟨i.1, hi⟩) hscope⟩
  refine ⟨refs, hscopes, fun r hr => ?_, hfound⟩
  rw [hscopes, nil_append] at hr
  rcases mem_cons.1 hr with rfl | hr
  · have hscope : e.isScope = true := by
      rw [isScope, h.alone.kind]
      rfl
    exact ⟨e, scope?_of_contains h.alone.numbered (.inl rfl) hscope⟩
  · obtain ⟨i, -, hi⟩ := hfound r hr
    exact ⟨i.2, hi⟩

variable (hm : m ∈ e.within .definition) (hx : x.SameAlone n k m.2)
include hm hx

theorem knownName_eq : Env.knownName ⟨[p]⟩ x = Env.knownName ⟨[e]⟩ m.2 := by
  obtain ⟨refs, hscopes, hfound, -⟩ := h.exists_refs hm
  obtain ⟨r, hr⟩ : ∃ r, m.2.header.scopes.getLast? = some r :=
    Option.ne_none_iff_exists'.1 (by rw [hscopes]; simp)
  obtain ⟨t, ht⟩ := hfound r (mem_of_getLast? hr)
  obtain ⟨s, hs, hsame⟩ := h.exists_scope? ht
  have hlast := congrArg List.getLast? hx.scopes_eq
  rw [getLast?_drop, getLast?_map, hr] at hlast
  split at hlast
  · cases hlast
  have ht' : Env.scope? ⟨[e]⟩ r.id = some t := (Env.scope?_singleton e r.id).trans ht
  rw [Env.knownName, Env.knownName, hlast, hr]
  simp only [Option.map_some, ScopeRef.shift, hs, ht', Option.bind_some, hx.name_eq,
    hsame.nameOf?_eq (h.root.apart _ _ hs) (h.alone.apart _ _ ht') hx]

theorem nameStart_eq (l : Dialect) : l.nameStart ⟨[p]⟩ x = l.nameStart ⟨[e]⟩ m.2 := by
  unfold Dialect.nameStart Env.boundOrFail Env.bound?
  rw [isA, isA, hx.kind_eq, hx.bound_eq]
  cases hbound : m.2.header.bound with
  | none => rfl
  | some b =>
    obtain ⟨refs, -, hfound, -⟩ := h.exists_refs hm
    have hfile := mem_of_getLast? ((h.alone.placed m hm).home b hbound)
    obtain ⟨t, ht⟩ := hfound _ (mem_filter.1 hfile).1
    obtain ⟨s, hs, hsame⟩ := h.exists_scope? ht
    simp only [Option.map_some, Option.bind_some, hs, Env.scope?_singleton e, ht, bind, Except.bind, hsame.strOption_eq]

/-- **The name inside the file is the same.** -/
theorem innerName_eq (l : Dialect) (kind : Option Kind) : l.innerName ⟨[p]⟩ x kind = l.innerName ⟨[e]⟩ m.2 kind := by
  obtain ⟨refs, hscopes, -, hrefs⟩ := h.exists_refs hm
  have hscopes' : x.header.scopes = x.header.scopes.take n ++ ⟨e.id + k, .proto⟩ :: refs.map (ScopeRef.shift k) := by
    have hdrop := hx.scopes_eq
    rw [hscopes, nil_append, map_cons] at hdrop
    exact (take_append_drop n _).symm.trans (congrArg (x.header.scopes.take n ++ ·) hdrop)
  -- the messages around the definition are found in both files
  have hnest : Dialect.nestNames ⟨[p]⟩ x = Dialect.nestNames ⟨[e]⟩ m.2 := by
    rw [Dialect.nestNames_eq hscopes' rfl, Dialect.nestNames_eq hscopes rfl]
    refine congrArg List.reverse ?_
    rw [filter_map, ← map_reverse, takeWhile_map, map_map]
    refine map_congr_left fun r hr => ?_
    obtain ⟨i, hi, hfound⟩ := hrefs r (mem_of_mem_filter (mem_reverse.1 (takeWhile_subset _ hr)))
    obtain ⟨s, hs, hsame⟩ := h.exists_scope? hfound
    rw [Function.comp_apply, Env.knownScopeName, Env.knownScopeName, Env.scope?_singleton e, hfound, ScopeRef.shift, hs]
    exact h.knownName_eq hi hsame
  rw [Dialect.innerName, Dialect.innerName, l.plainName_eq hscopes' rfl, l.plainName_eq hscopes rfl,
    h.nameStart_eq hm hx, hnest, h.knownName_eq hm hx, hx.kind_eq]

end Def.Alone

namespace Reader

/-- **Both sides of an import use the same names.**  Whatever a file imports, directly or not, can be read alone from
the same path, with the same definitions in the same order.  In every language the name that a definition has inside
its file is the same, the start of names that the file chooses included. -/
theorem innerName_alone {files : Files} {path : String} {mode : Bool} {p : Def}
    (h : (parse files path mode).result = .ok p) {q : String × Def} (hq : q ∈ p.within .proto) :
    ∃ e, (parse files q.2.header.origin.file mode).result = .ok e ∧
      List.Forall₂ (fun m m' => m.1 = m'.1 ∧ m.2.kind = m'.2.kind ∧
          (m.2.header.bound = some q.2.id ↔ m'.2.header.bound = some e.id) ∧
          ∀ (l : Dialect) kind, l.innerName ⟨[p]⟩ m.2 kind = l.innerName ⟨[e]⟩ m'.2 kind)
        (q.2.within .definition) (e.within .definition) := by
  obtain ⟨e, he, hsame⟩ := (given_of_mem h hq).parse_eq
  obtain ⟨halone, hfirst⟩ := AcceptsIn.laidOut ⟨files, _, .inl he⟩
  rw [Def.within_eq_filter, List.mem_filter] at hq
  have hboth : p.Alone q.2 e q.2.header.scopes.length q.2.id :=
    ⟨(AcceptsIn.laidOut ⟨files, path, .inl h⟩).1, .inr ⟨q.1, hq.1⟩, hsame, halone, hfirst⟩
  have hwithin := congrArg (Def.within .definition) hsame
  rw [Def.within_relabel fun _ => rfl, Def.within_relabel fun _ => rfl] at hwithin
  have hpairs : List.Forall₂ Eq _ _ := List.forall₂_eq_eq_eq ▸ hwithin
  rw [List.forall₂_map_left_iff, List.forall₂_map_right_iff] at hpairs
  refine ⟨e, he, (List.forall₂_iff_get.2 ⟨hpairs.length_eq, fun i hi hi' => ?_⟩)⟩
  have hpair := hpairs.get hi hi'
  have hx : Def.SameAlone _ _ _ _ := congrArg Prod.snd hpair
  have hname := congrArg Prod.fst hpair
  refine ⟨hname, hx.kind_eq, ?_, hboth.innerName_eq (List.get_mem ..) hx⟩
  rw [hx.bound_eq, id_of_parse he]
  simp

namespace Sample

/-- A file that is imported through another one, with nested definitions and a start for names in C. -/
def nested : Files := .ofTree {
  cwd := "/"
  files := [
    (["a"], "proto a\nimport l \"b\""),
    (["b"], "proto b\nimport \"c\""),
    (["c"], "proto c\noption c.name_prefix = \"p_\"\nmessage T\x7benum C:uint2\x7bX=0\x7d C c=1\x7d")] }

/-- The names in C inside the file that is listed first. -/
def innerNames (p : Def) : List (List (Except Fault String)) :=
  (p.within .proto).map fun q => (q.2.within .definition).map fun m => Dialect.c.innerName ⟨[p]⟩ m.2 none

end Sample

theorem innerName_alone_nested : ∃ p, (parse Sample.nested "a" false).result = .ok p ∧
    (Sample.innerNames p).head? = some [.ok "p_c.name_prefix", .ok "P_T_X", .ok "PTC", .ok "p_T_c", .ok "PT"] ∧
    ∀ q ∈ p.within .proto, ∃ e, (parse Sample.nested q.2.header.origin.file false).result = .ok e ∧
      List.Forall₂ (fun m m' => m.1 = m'.1 ∧ m.2.kind = m'.2.kind ∧
          (m.2.header.bound = some q.2.id ↔ m'.2.header.bound = some e.id) ∧
          ∀ (l : Dialect) kind, l.innerName ⟨[p]⟩ m.2 kind = l.innerName ⟨[e]⟩ m'.2 kind)
        (q.2.within .definition) (e.within .definition) := by
  have hnames : (parse Sample.nested "a" false).result.map (fun p => (Sample.innerNames p).head?) =
      .ok (some [.ok "p_c.name_prefix", .ok "P_T_X", .ok "PTC", .ok "p_T_c", .ok "PT"]) := by
    decide +kernel
  cases hparse : (parse Sample.nested "a" false).result with
  | error f =>
    rw [hparse] at hnames
    cases hnames
  | ok p =>
    rw [hparse] at hnames
    exact ⟨p, rfl, Except.ok.inj hnames, fun q hq => innerName_alone hparse hq⟩

end Reader

end BitSchema
