import BitSchema.Lint
import BitSchema.Proofs.DefinitionOrder
import BitSchema.Proofs.ScopesAround
import Mathlib.Data.List.Perm.Basic

/-!
# What the linter warns about

The linter goes through the kinds for which there are rules, lists the definitions of a file of each kind, and applies
the rules of the kind.  A definition can be of several of these kinds, and a rule is applied for one of them only.

So the warnings are those of all pairs of a definition of the file and a rule for a kind to which it belongs, in some
order and each of them once (`lint_perm`).  Definitions at every depth are among them, and none of an imported file.
-/

namespace BitSchema

open Reading List

variable {file : Def}

/-! ### The definitions of a file -/

/-- **The definitions that belong to a file**, at every depth, with the names by which they are known. -/
def Def.owned (file : Def) : List (String × Def) := (file.within .definition).filter (isOwn file.id)

theorem ownListed_of_proper {id : Nat} {m : String × Def} (h : Proper id m) (k : Kind) :
    Def.ownListed k true m = ((m.2.within .definition ++ [m]).filter (isOwn id)).filter fun e => e.2.isA k := by
  rw [filter_isOwn_listed h, Def.ownListed]
  cases h with
  | @own d hown =>
    rw [if_pos hown.kind, if_pos (by simp [hown.bound]), Def.listed, if_pos rfl, filter_append, Def.within_eq_filter k,
      filter_singleton, Bool.cond_eq_ite]
  | imported _ hkind hbound => rw [if_neg (not_not.2 hkind), if_neg (by simp [hbound]), filter_nil]

/-- **A listing by kind** picks from the definitions of the file. -/
theorem select_eq_owned (hmembers : ∀ m ∈ file.members, Proper file.id m) (k : Kind) :
    file.select k true (some file.id) = .ok (file.owned.filter fun m => m.2.isA k) := by
  rw [Def.select_bound _ _ hmembers, Def.owned, Def.within_eq, Def.membersWithin_eq_flatMap, filter_flatMap,
    filter_flatMap, flatMap_def, flatMap_def, map_congr_left fun m hm => ownListed_of_proper (hmembers m hm) k]

/-! ### Rules -/

namespace Lint

/-- **What a rule says about a definition**, if it is of the rule's kind. -/
def Rule.verdict (r : Rule) (m : String × Def) : Option Report := if m.2.isA r.kind then r.check m.1 m.2 else none

/-- The warnings about the definitions of a kind are what the rules of the kind say about all definitions. -/
theorem flatMap_warningsOf (k : Kind) (defs : List (String × Def)) :
    (defs.filter fun m => m.2.isA k).flatMap (warningsOf k) =
      defs.flatMap fun m => (rules.filter fun r => r.kind = k).filterMap (·.verdict m) := by
  have hrule {m : String × Def} {r : Rule} (hr : r ∈ rules.filter fun r => r.kind = k) :
      r.verdict m = if m.2.isA k then r.check m.1 m.2 else none := by
    rw [Rule.verdict, of_decide_eq_true (mem_filter.1 hr).2]
  induction defs with
  | nil => rfl
  | cons m defs ih =>
    rw [flatMap_cons, ← ih, filter_cons]
    by_cases hm : m.2.isA k = true
    · rw [if_pos hm, flatMap_cons, warningsOf, filterMap_congr fun r hr => (hrule hr).trans (if_pos hm)]
    · have hnone : (rules.filter fun r => r.kind = k).filterMap (·.verdict m) = [] :=
        filterMap_eq_nil_iff.2 fun r hr => (hrule hr).trans (if_neg hm)
      rw [if_neg hm, hnone, nil_append]

/-- **Each rule belongs to one of the kinds** that are gone through. -/
theorem flatMap_kinds_perm (f : Rule → Option Report) :
    (kinds.flatMap fun k => (rules.filter fun r => r.kind = k).filterMap f).Perm (rules.filterMap f) := by
  have hrules : (kinds.flatMap fun k => rules.filter fun r => r.kind = k) = rules.tail ++ [indentRule] := rfl
  rw [← filterMap_flatMap, hrules]
  exact (perm_append_singleton indentRule rules.tail).filterMap f

theorem flatMap_flatMap_perm {α β γ : Type} (f : α → β → List γ) (l : List α) (l' : List β) :
    (l.flatMap fun a => l'.flatMap (f a)).Perm (l'.flatMap fun b => l.flatMap (f · b)) := by
  induction l' with
  | nil => simp
  | cons b l' ih =>
    simp only [flatMap_cons]
    exact (flatMap_append_perm l (f · b) _).symm.trans (ih.append_left _)

end Lint

/-- **The warnings about a file**, up to their order. -/
theorem lint_perm (hmembers : ∀ m ∈ file.members, Proper file.id m) :
    ∃ warnings, file.lint = .ok warnings ∧
      warnings.Perm (file.owned.flatMap fun m => Lint.rules.filterMap (·.verdict m)) := by
  refine ⟨Lint.kinds.flatMap fun k => (file.owned.filter fun m => m.2.isA k).flatMap (Lint.warningsOf k), ?_, ?_⟩
  · -- there are no rules for files, so it does not matter that the file itself is looked at
    have hkind (k : Kind) : ((Lint.members file k).map fun ms => ms.flatMap (Lint.warningsOf k)) =
        .ok ((file.owned.filter fun m => m.2.isA k).flatMap (Lint.warningsOf k)) := by
      unfold Lint.members
      split
      · next h =>
        have hnone (ms : List (String × Def)) : ms.flatMap (Lint.warningsOf .proto) = [] :=
          flatMap_eq_nil_iff.2 fun _ _ => rfl
        rw [h, Except.map, hnone, hnone]
      · rw [select_eq_owned hmembers]
        rfl
    have hmap (ks : List Kind) : (ks.mapM fun k => (Lint.members file k).map fun ms => ms.flatMap (Lint.warningsOf k)) =
        .ok (ks.map fun k => (file.owned.filter fun m => m.2.isA k).flatMap (Lint.warningsOf k)) := by
      simp only [hkind]
      exact mapM_pure
    rw [flatMap_def]
    exact congrArg (Except.map flatten) (hmap Lint.kinds)
  · simp only [Lint.flatMap_warningsOf]
    exact (Lint.flatMap_flatMap_perm _ _ _).trans (Perm.flatMap_left _ fun m _ => Lint.flatMap_kinds_perm _)

/-- **The linter warns about each mistake once.**  The warnings about an accepted file are what the rules say about the
definitions that belong to it: one for each pair of such a definition, at any depth, and a rule for a kind to which the
definition belongs and with which it does not comply.  There are no others; in particular there is none about what is
inside an imported file. -/
theorem lint_warns (h : Reader.Accepts file) :
    ∃ warnings, file.lint = .ok warnings ∧
      warnings.Perm ((file.owned.product Lint.rules).filterMap fun p => p.2.verdict p.1) ∧
      warnings.length = ((file.owned.product Lint.rules).filter fun p => (p.2.verdict p.1).isSome).length ∧
      (∀ m, m ∈ file.owned ↔ m ∈ file.within .definition ∧ m.2.header.bound = some file.id) ∧
      (file.owned.map (·.2.id)).Nodup ∧
      ∀ child ∈ file.within .proto, ∀ m ∈ child.2.within .definition, m ∉ file.owned := by
  obtain ⟨warnings, hlint, hperm⟩ := lint_perm h.proper
  have hpairs : ((file.owned.product Lint.rules).filterMap fun p => p.2.verdict p.1) =
      file.owned.flatMap fun m => Lint.rules.filterMap (·.verdict m) := by
    rw [List.product, filterMap_flatMap]
    simp only [filterMap_map]
    rfl
  rw [← hpairs] at hperm
  have hids : ((file.within .definition).map (·.2.id)).Nodup := (nodup_cons.1 h.laidOut.1.numbered).2
  refine ⟨warnings, hlint, hperm, ?_, fun m => ?_, hids.sublist (filter_sublist.map _), fun child hchild m hm hmem => ?_⟩
  · rw [hperm.length_eq, length_filterMap_eq_countP, countP_eq_length_filter]
  · rw [Def.owned, mem_filter, beq_iff_eq]
  · exact not_isOwn_of_imported h.proper hchild hm (beq_iff_eq.1 (mem_filter.1 hmem).2)

namespace Sample

/-- A file with bad style inside a message, which imports another one. -/
def untidy : Files := .ofTree {
  cwd := "/"
  files := [(["a"], "proto a import l \"b\"\nmessage m\x7b\n enum C:uint1\x7bx=1\x7d\x7d"),
    (["b"], "proto b const k=1")] }

def problems (files : Files) (path : String) : Except Fault (List Problem) := do
  return (← (← (Reader.parse files path false).result).lint).map (·.problem)

end Sample

theorem lint_warns_untidy :
    ∃ file warnings, Reader.Accepts file ∧ file.lint = .ok warnings ∧
      warnings.map (·.problem) = [.enumZeroMissing, .enumFieldName, .messageName, .indent, .indent] ∧
      ((file.owned.product Lint.rules).filter fun p => (p.2.verdict p.1).isSome).length = 5 := by
  have hproblems : Sample.problems Sample.untidy "a" = .ok [.enumZeroMissing, .enumFieldName, .messageName,
    .indent, .indent] := by
    decide +kernel
  unfold Sample.problems at hproblems
  cases hparse : (Reader.parse Sample.untidy "a" false).result with
  | error f =>
    rw [hparse] at hproblems
    cases hproblems
  | ok file =>
    have haccepts : Reader.Accepts file := ⟨_, false, "a", .inl hparse⟩
    obtain ⟨warnings, hlint, -, hlength, -⟩ := lint_warns haccepts
    simp only [hparse, bind, Except.bind, hlint] at hproblems
    have hmap := Except.ok.inj hproblems
    refine ⟨file, warnings, haccepts, hlint, hmap, ?_⟩
    rw [← hlength, ← length_map (f := (·.problem)), hmap]
    rfl

end BitSchema
