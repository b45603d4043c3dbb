import BitSchema.Proofs.Accepted
import BitSchema.Proofs.FollowingFiles

/-!
# The two modes of reading

Traditional mode refuses the marks of extensibility and changes nothing else.  So it accepts a file exactly if the other
mode accepts it and nothing inside it is extensible, and then both modes give the same
(`Reader.parse_traditional_iff`).
-/

namespace BitSchema.Reader

open Reading

variable {files : Files}

theorem match_exact {lax : Prop} (s : State) : (Comparison.exact files lax).Match s s :=
  ⟨rfl, fun _ => rfl, rfl, rfl, rfl, fun _ => ⟨rfl, rfl, rfl⟩⟩

theorem fresh_empty : ({} : State).Fresh := ⟨rfl, rfl, rfl, rfl, rfl⟩

/-- **What one mode gives is given by the other**, if that one does not refuse a mark in it. -/
theorem parse_of_parse {path : String} {mode mode' : Bool} {d : Def} (hmode : mode' = true → mode = true ∨ d.Unmarked)
    (h : (parse files path mode).result = .ok d) : (parse files path mode').result = .ok d := by
  have hread : readPath files mode (files.reals.length + 1) [] path [] {} = (.ok d, _) := Prod.ext h rfl
  have hfinishes : (Comparison.exact files False).Finishes ((mode = false ∧ mode' = true) ∧ ¬ d.Unmarked) d _
      (readPath files mode' (files.reals.length + 1) [] path [] {}) :=
    finishes_readPath _ rfl (outer_exact []) (.inr ⟨fun _ hp => hp, le_refl _⟩) (le_refl _) fresh_empty fresh_empty
      (match_exact {}) hread
  cases hread' : readPath files mode' (files.reals.length + 1) [] path [] {} with
  | mk r t =>
    rw [hread'] at hfinishes
    cases r with
    | error f =>
      -- there is no excuse for failing
      obtain ⟨⟨hfalse, htrue⟩, hmarked⟩ := hfinishes.resolve_left id
      rcases hmode htrue with hmode | hunmarked
      · rw [hmode] at hfalse
        cases hfalse
      · exact absurd hunmarked hmarked
    | ok d' =>
      have hlike : d.relabel .same = d'.relabel .same := hfinishes.1
      rw [Def.relabel_same, Def.relabel_same] at hlike
      have hresult : (parse files path mode').result = .ok d' := congrArg Prod.fst hread'
      rw [hresult, hlike]

/-- **Traditional mode** accepts exactly what the other mode accepts without anything extensible inside. -/
theorem parse_traditional_iff (files : Files) (path : String) (p : Def) :
    (parse files path true).result = .ok p ↔ (parse files path false).result = .ok p ∧ p.Unmarked := by
  constructor
  · intro h
    have haccepts : AcceptsIn true p := ⟨files, path, .inl h⟩
    exact ⟨parse_of_parse (fun hfalse => absurd hfalse Bool.false_ne_true) h, haccepts.wellFormedIn.2 rfl⟩
  · rintro ⟨h, hunmarked⟩
    exact parse_of_parse (fun _ => .inr hunmarked) h

end BitSchema.Reader
