import BitSchema.Proofs.Accepted
import BitSchema.Target

/-!
# Constants that cannot be written

A constant may be any integer that a text can compute, but a numeral has a greatest length.  So a file that has been
accepted is not written in any language if a constant of its own is too long: the header, the Go file and the Python
module hold the values of all constants (`Artifact.fits_of_text`).
-/

namespace BitSchema

variable {ε α β : Type}

theorem exists_ok_of_mapM {f : α → Except ε β} {as : List α} {bs : List β} (h : as.mapM f = .ok bs) :
    ∀ a ∈ as, ∃ b, f a = .ok b := by
  induction as generalizing bs with
  | nil => simp
  | cons a as ih =>
    rw [List.mapM_cons] at h
    obtain ⟨b, hb, h⟩ := exists_ok_of_bind h
    obtain ⟨cs, hcs, -⟩ := exists_ok_of_bind h
    exact List.forall_mem_cons.2 ⟨⟨b, hb⟩, ih hcs⟩

theorem exists_ok_of_map {x : Except ε α} {f : α → β} {b : β} (h : f <$> x = .ok b) : ∃ a, x = .ok a := by
  cases x with
  | error e => cases h
  | ok a => exact ⟨a, rfl⟩

theorem exists_ok_of_forDefinitions {ds : List Def} {make : Def → Except Fault (Option Block)}
    {bs : List Block} {d : Def}
    {x : Except Fault Block} (h : Block.forDefinitions ds make = .ok bs) (hd : d ∈ ds) (hmake : make d = some <$> x) :
    ∃ b, x = .ok b := by
  obtain ⟨_, hmap, -⟩ := exists_ok_of_bind h
  obtain ⟨b, hb⟩ := exists_ok_of_mapM hmap d hd
  exact exists_ok_of_map (hmake.symm.trans hb)

/-! ### Literals -/

/-- **Every literal can be written**, but for integers with more digits than numerals have. -/
theorem Dialect.literal_eq_error_iff {l : Dialect} {v : Literal} {f : Fault} (hl : l ≠ .neutral) :
    l.literal v = .error f ↔ f = .tooManyDigits none ∧ ∃ n, v = .int n ∧ Numeral.fits n = false := by
  cases v with
  | int n =>
    have hnumeral : l.literal (.int n) = Numeral.ofInt n := by
      cases l with
      | neutral => exact absurd rfl hl
      | _ => rfl
    rw [hnumeral, Numeral.ofInt]
    constructor
    · intro h
      split at h
      · cases h
      · next hfits => exact ⟨(Except.error.inj h).symm, n, rfl, Bool.eq_false_of_not_eq_true hfits⟩
    · rintro ⟨rfl, _, ⟨⟩, hfits⟩
      rw [hfits]
      rfl
  | _ => cases l <;> simp [literal, boolValue, strValue, choose] at hl ⊢

theorem Dialect.fits_of_literal {l : Dialect} {n : Int} {text : String} (h : l.literal (.int n) = .ok text) :
    Numeral.fits n = true := by
  by_contra hfits
  have hl : l ≠ .neutral := by
    rintro rfl
    cases h
  rw [(literal_eq_error_iff hl).2 ⟨rfl, n, rfl, Bool.eq_false_of_not_eq_true hfits⟩] at h
  cases h

variable {hd : Header} {k : Option LiteralKind} {n : Int} {ds : List Def} {env : Env} {b : Block}

/-- **A file is written** only if the numerals of its own constants can be written; the C source has none of them. -/
theorem Artifact.fits_of_text {a : Artifact} {p : OutputPlan} {text : String} (ha : a ≠ .cSource)
    (hds : p.file.ownDefinitions = .ok ds) (h : a.text p = .ok text) (hmem : .constant hd k (.int n) ∈ ds) :
    Numeral.fits n = true := by
  obtain ⟨b, hb, -⟩ := exists_ok_of_bind h
  -- each file begins by listing the definitions, and its block is made from a block for each of them
  cases a
  case cSource => exact absurd rfl ha
  all_goals
    obtain ⟨ds', hds', hb⟩ := exists_ok_of_bind hb
    obtain rfl : ds = ds' := Except.ok.inj (hds.symm.trans hds')
  case cHeader =>
    obtain ⟨bs, hbs, -⟩ := exists_ok_of_bind hb
    obtain ⟨_, hconstant⟩ := exists_ok_of_forDefinitions hbs hmem rfl
    obtain ⟨_, -, hconstant⟩ := exists_ok_of_bind hconstant
    obtain ⟨_, hvalue, -⟩ := exists_ok_of_bind hconstant
    exact Dialect.fits_of_literal hvalue
  all_goals
    obtain ⟨_, -, hb⟩ := exists_ok_of_bind hb
    obtain ⟨bs, hbs, -⟩ := exists_ok_of_bind hb
    obtain ⟨_, hconstant⟩ := exists_ok_of_forDefinitions hbs hmem rfl
    obtain ⟨_, -, hconstant⟩ := exists_ok_of_bind hconstant
    obtain ⟨_, -, hconstant⟩ := exists_ok_of_bind hconstant
    obtain ⟨_, hvalue, -⟩ := exists_ok_of_bind hconstant
    exact Dialect.fits_of_literal hvalue

/-- The work ends with a fault if one of the files cannot be written. -/
theorem OutputPlan.outputs_ne_none {p : OutputPlan} {fs : Files} {outdir : String} {as : List Artifact} {a : Artifact}
    (ha : a ∈ as) (h : ∀ text, a.text p ≠ .ok text) : (p.outputs fs outdir as).2 ≠ none := by
  induction as with
  | nil => cases ha
  | cons b as ih =>
    rw [OutputPlan.outputs]
    split
    · simp
    · next content hcontent =>
      obtain ⟨_, -, hcontent⟩ := exists_ok_of_bind hcontent
      obtain ⟨text, htext, -⟩ := exists_ok_of_bind hcontent
      rcases List.mem_cons.1 ha with rfl | ha
      · exact absurd htext (h text)
      · exact ih ha

/-- The definitions that an accepted file is written from hold its own constants. -/
theorem Reader.Accepts.exists_ownDefinitions {file : Def} (h : Accepts file) :
    ∃ ds, file.ownDefinitions = .ok ds ∧ ∀ name hd k v, (name, .constant hd k v) ∈ file.members →
      .constant hd k v ∈ ds := by
  refine ⟨_, by rw [Def.ownDefinitions, Def.select_bound _ _ h.proper]; rfl, fun name hd k v hm => ?_⟩
  refine List.mem_map.2 ⟨(name, .constant hd k v), List.mem_flatMap.2 ⟨_, hm, ?_⟩, rfl⟩
  have hkind : (Def.constant hd k v).scopeKind? ≠ some .proto := by simp [Def.scopeKind?]
  rw [Def.ownListed, if_pos hkind, Def.listed, if_pos (Def.isA_boundDefinition hkind)]
  exact List.mem_append_right _ (List.mem_singleton.2 rfl)

/-- **An accepted file with a constant that is too long is not written**: only the C source has a text, and rendering
fails in every language and mode. -/
theorem OutputPlan.render_fails {p : OutputPlan} {name : String} (haccepts : Reader.Accepts p.file)
    (hmem : (name, .constant hd k (.int n)) ∈ p.file.members) (hlong : Numeral.fits n = false) :
    (∀ a : Artifact, a ≠ .cSource → ∀ text, a.text p ≠ .ok text) ∧
      ∀ fs outdir language, (p.render fs outdir language).2 ≠ none := by
  obtain ⟨ds, hds, hown⟩ := haccepts.exists_ownDefinitions
  have hfails (a : Artifact) (ha : a ≠ .cSource) : ∀ text, a.text p ≠ .ok text := by
    intro text htext
    have hfits := Artifact.fits_of_text ha hds htext (hown _ _ _ _ hmem)
    rw [hlong] at hfits
    cases hfits
  refine ⟨hfails, fun fs outdir language => ?_⟩
  unfold OutputPlan.render artifacts?
  split
  · simp
  · next as has =>
    split at has
    · cases has
      exact outputs_ne_none (.tail _ (.head _)) (hfails .cHeader (by decide))
    · split at has
      · cases has
        exact outputs_ne_none (.head _) (hfails .goPackage (by decide))
      · split at has
        · cases has
          exact outputs_ne_none (.head _) (hfails .pythonModule (by decide))
        · cases has

/-- A working directory in which nothing stands. -/
def Sample.empty : Files := .ofTree ⟨"/w", [], []⟩

/-- Constants that no numeral stands for. -/
def Def.isLong : Def → Bool
  | .constant _ _ (.int n) => !Numeral.fits n
  | _ => false

/-- Products of products grow beyond all numerals; there is nothing wrong with the place of the output. -/
theorem OutputPlan.render_fails_product :
    ∃ file, Reader.Accepts file ∧ ∃ name hd k n, (name, .constant hd k (.int n)) ∈ file.members ∧
      Numeral.fits n = false ∧
      let p : OutputPlan := ⟨⟨[file]⟩, file, false, []⟩
      Sample.empty.checkWritable (p.outputPath "/w" "" .goPackage) = .ok () ∧
        (p.render Sample.empty "" "go").2 ≠ none := by
  let text := "proto a\nconst A = 0xffffffffffffffffffffffffffffffff\nconst B = A * A * A * A * A * A * A * A\n" ++
    "const C = B * B * B * B * B * B * B * B\nconst D = C * C\n"
  have hlong : ((Reader.parseText Sample.empty text false).result.toOption.any fun d => d.members.any (·.2.isLong) &&
      Sample.empty.checkWritable ((⟨⟨[d]⟩, d, false, []⟩ : OutputPlan).outputPath "/w" "" .goPackage) =
        .ok ()) = true := by
    decide +kernel
  cases hresult : (Reader.parseText Sample.empty text false).result with
  | error f =>
    rw [hresult] at hlong
    cases hlong
  | ok file =>
    rw [hresult] at hlong
    have haccepts : Reader.Accepts file := ⟨Sample.empty, false, text, .inr hresult⟩
    obtain ⟨hlong, hwritable⟩ := Bool.and_eq_true_iff.1 hlong
    obtain ⟨m, hm, hlong⟩ := List.any_eq_true.1 hlong
    obtain ⟨name, d⟩ := m
    cases d with
    | constant hd k v =>
      cases v with
      | int n =>
        have hn : Numeral.fits n = false := by simpa [Def.isLong] using hlong
        exact ⟨file, haccepts, name, hd, k, n, hm, hn, of_decide_eq_true hwritable,
          (render_fails haccepts hm hn).2 _ _ _⟩
      | _ => cases hlong
    | _ => cases hlong

end BitSchema
