import BitSchema.Proofs.Linting
import BitSchema.Proofs.Reported

/-!
# Checking without writing

With the flag that only checks, the command reads a file and writes none.  Its end depends on three things: whether the
file can be read, whether the linter is enabled, and whether it warns (`check_ends`).

The linter always has an answer about a file that was read.  So the run ends with the code 0 or 1 if the linter is
enabled, and a fault escapes only where reading lets one escape, and where the linter is disabled: then nobody has
counted the warnings that the last step asks for.
-/

namespace BitSchema.Command

open Reading

variable {s : Settings} {path : String}

/-- Nothing is checked in the mode without extensible types. -/
theorem mode_of_check (h : s.check = true) : (s.optimize && !s.check) = false := by rw [h, Bool.not_true, Bool.and_false]

theorem outputs_faulting (r : Result) (families : List Family) (f : Fault) :
    (r.faulting families f).outputs = r.outputs := by
  unfold Result.faulting
  split
  · split <;> rfl
  all_goals rfl

theorem outputs_checkOnly (warnings : List Report) (r : Result) : (checkOnly s warnings r).outputs = r.outputs := by
  unfold checkOnly
  split
  · rfl
  · split <;> rfl

/-- **A run that only checks a file that can be read** goes by what the linter says, if it is asked. -/
theorem work_of_parse {files : Files} {d : Def} {warnings : List Report} (hcheck : s.check = true)
    (hparse : (Reader.parse files path false).result = .ok d) (hlint : d.lint = .ok warnings) :
    ∃ told stderr, work files s path = checkOnly s told { exit := .ok 0, stderr } ∧
      (s.noLint = false → told = warnings) := by
  refine ⟨if s.noLint then [] else warnings, (Reader.parse files path false).notes ++
    (if s.noLint then [] else warnings).map Report.painted, ?_, fun h => if_neg (by simp [h])⟩
  have hanswer : (if s.noLint then .ok [] else d.lint : Except Fault (List Report)) =
      .ok (if s.noLint then [] else warnings) := by
    rw [hlint]
    split <;> rfl
  unfold work
  rw [mode_of_check hcheck]
  simp only [hparse, hanswer, hcheck, if_true]

/-- **How a run that only checks ends.**  It writes no file.

* If the file can be read and the linter is enabled, the linter has an answer, and the exit code is 0 if it does not
  warn and 1 if it does.
* If the file can be read and the linter is disabled, the run ends with the fault that nobody looked for warnings.
* If the file cannot be read, the exit code is 1, or the fault is one of those that escape. -/
theorem check_ends (t : Tree) (s : Settings) (path : String) (hcheck : s.check = true) :
    (work (.ofTree t) s path).outputs = [] ∧
    (∀ d, (Reader.parse (.ofTree t) path false).result = .ok d →
      ∃ warnings, d.lint = .ok warnings ∧ (work (.ofTree t) s path).exit =
        if s.noLint then .error .lintSkipped else .ok (if warnings = [] then 0 else 1)) ∧
    ∀ f, (Reader.parse (.ofTree t) path false).result = .error f →
      Reported (.ofTree t) f ∧ (work (.ofTree t) s path).exit = .ok 1 ∨
        Escapes (.ofTree t) f ∧ (work (.ofTree t) s path).exit = .error f := by
  have hread {d : Def} (hparse : (Reader.parse (.ofTree t) path false).result = .ok d) :
      ∃ warnings, d.lint = .ok warnings := by
    obtain ⟨warnings, hlint, -⟩ := lint_perm (Reader.Accepts.proper ⟨_, false, path, .inl hparse⟩)
    exact ⟨warnings, hlint⟩
  have hfault {f : Fault} (hparse : (Reader.parse (.ofTree t) path false).result = .error f) :=
    work_eq_faulting (s := s) (mode_of_check hcheck ▸ hparse)
  refine ⟨?_, fun d hparse => ?_, fun f hparse => ?_⟩
  · cases hparse : (Reader.parse (.ofTree t) path false).result with
    | ok d =>
      obtain ⟨warnings, hlint⟩ := hread hparse
      obtain ⟨told, stderr, hwork, -⟩ := work_of_parse hcheck hparse hlint
      rw [hwork, outputs_checkOnly]
    | error f => rw [hfault hparse, outputs_faulting]
  · obtain ⟨warnings, hlint⟩ := hread hparse
    obtain ⟨told, stderr, hwork, htold⟩ := work_of_parse hcheck hparse hlint
    refine ⟨warnings, hlint, ?_⟩
    rw [hwork, checkOnly]
    cases hskip : s.noLint with
    | true => rfl
    | false =>
      rw [htold hskip]
      cases warnings <;> rfl
  · rw [hfault hparse]
    rcases reported_or_escapes_of_parse hparse with hreported | hescapes
    · exact .inl ⟨hreported, by rw [faulting_of_reported hreported]⟩
    · exact .inr ⟨hescapes, exit_faulting_of_escapes hescapes _⟩

/-- A file without bad style passes, and the same file with the linter disabled does not. -/
theorem check_ends_disabled :
    let tree : Tree := { cwd := "/", files := [(["a"], "proto a\nconst A=1")] }
    (work (.ofTree tree) { check := true } "a").exit = .ok 0 ∧
      (work (.ofTree tree) { check := true, noLint := true } "a").exit = .error .lintSkipped ∧
      (work (.ofTree tree) { check := true, noLint := true } "a").outputs = [] := by
  intro tree
  have hlint : (do return (← (← (Reader.parse (.ofTree tree) "a" false).result).lint).length) = .ok 0 := by
    decide +kernel
  cases hparse : (Reader.parse (.ofTree tree) "a" false).result with
  | error f =>
    rw [hparse] at hlint
    cases hlint
  | ok d =>
    obtain ⟨-, hends, -⟩ := check_ends tree { check := true } "a" rfl
    obtain ⟨houtputs, hskipped, -⟩ := check_ends tree { check := true, noLint := true } "a" rfl
    obtain ⟨warnings, hwarnings, hexit⟩ := hends d hparse
    obtain ⟨_, -, hexit'⟩ := hskipped d hparse
    simp only [hparse, bind, Except.bind, hwarnings] at hlint
    have hnone : warnings = [] := List.length_eq_zero_iff.1 (Except.ok.inj hlint)
    exact ⟨by rw [hexit, hnone]; rfl, hexit', houtputs⟩

end BitSchema.Command
