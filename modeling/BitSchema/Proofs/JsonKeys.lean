import BitSchema.Lint
import BitSchema.Target.CSource
import BitSchema.Target.GoPackage
import BitSchema.Target.PythonModule
import Mathlib.Data.List.Basic

/-!
# Keys of fields in JSON

C code and Python classes know a field by its name in the schema.  In Go the name is put in pascal case, and its key in
JSON is that name put back in snake case.  Underscores may get lost on the way, or stand elsewhere: the key of `a_b` is
`ab`.  Letters and digits stay, apart from their case (`Text.letters_pascalChars`, `Text.letters_snakeChars`), so that
nothing but underscores tells the key of a field from a name in snake case (`jsonKeys`).
-/

namespace BitSchema

open List

namespace Text

/-- **The letters and digits of a name**, apart from their case. -/
def letters (cs : List Char) : List Char := (cs.filter (· != '_')).map Char.toLower

variable {c : Char} {cs : List Char}

theorem letters_append (cs ds : List Char) : letters (cs ++ ds) = letters cs ++ letters ds := by
  simp [letters]

theorem letters_cons (c : Char) (cs : List Char) : letters (c :: cs) = letters [c] ++ letters cs := letters_append [c] cs

theorem letters_flatMap {ps : List (List Char)} {f : List Char → List Char} (h : ∀ p ∈ ps, letters (f p) = letters p) :
    letters (ps.flatMap f) = letters ps.flatten := by
  induction ps with
  | nil => rfl
  | cons p ps ih =>
    obtain ⟨hp, hps⟩ := forall_mem_cons.1 h
    rw [flatMap_cons, flatten_cons, letters_append, letters_append, hp, ih hps]

/-! ### Characters in either case -/

theorem cased (hc : isAscii c = true) :
    (c.toLower != '_') = (c != '_') ∧ letters [c.toUpper] = letters [c] ∧ c.toLower.toLower = c.toLower ∧ c ≠ 'Σ' := by
  have hall : ∀ n < 128, ((Char.ofNat n).toLower != '_') = (Char.ofNat n != '_') ∧
      letters [(Char.ofNat n).toUpper] = letters [.ofNat n] ∧
      (Char.ofNat n).toLower.toLower = (Char.ofNat n).toLower ∧ Char.ofNat n ≠ 'Σ' := by decide +kernel
  have h := hall c.toNat (of_decide_eq_true hc)
  rwa [Char.ofNat_toNat] at h

theorem smallAt_eq (hc : isAscii c = true) (before after : List Char) : smallAt before c after = [c.toLower] := by
  obtain ⟨-, -, -, hne⟩ := cased hc
  rw [smallAt, beq_eq_false_iff_ne.2 hne, if_neg Bool.false_ne_true, small, if_pos hc]

theorem smallsFrom_eq (h : ∀ c ∈ cs, isAscii c = true) (before : List Char) :
    smallsFrom before cs = cs.map Char.toLower := by
  induction cs generalizing before with
  | nil => rfl
  | cons c cs ih =>
    obtain ⟨hc, hcs⟩ := forall_mem_cons.1 h
    rw [smallsFrom, smallAt_eq hc, ih hcs]
    rfl

theorem letters_titleFrom (h : ∀ c ∈ cs, isAscii c = true) (before : List Char) :
    letters (titleFrom before cs) = letters cs := by
  induction cs generalizing before with
  | nil => rfl
  | cons c cs ih =>
    obtain ⟨hc, hcs⟩ := forall_mem_cons.1 h
    obtain ⟨hmark, hupper, hlower, -⟩ := cased hc
    rw [titleFrom, letters_append, ih hcs, letters_cons c]
    congr 1
    split
    · simp [smallAt_eq hc, letters, filter_cons, hmark, apply_ite, hlower]
    · rwa [titled, if_pos hc]

/-! ### Names in either case -/

theorem isAscii_toLower (c : Char) : isAscii c.toLower = isAscii c := by
  rw [isAscii, isAscii]
  delta Char.toLower
  split
  · next h =>
    have hlow := UInt32.le_iff_toNat_le.1 h.1
    have hhigh := UInt32.le_iff_toNat_le.1 h.2
    simp at hlow hhigh ⊢
    omega
  · rfl

theorem ascii_of_letters {ds : List Char} (hletters : letters ds = letters cs) (h : ∀ c ∈ cs, isAscii c = true) :
    ∀ d ∈ ds, isAscii d = true := by
  intro d hd
  by_cases hd' : d = '_'
  · rw [hd']
    rfl
  · have hmem : d.toLower ∈ letters cs := hletters ▸ mem_map_of_mem (mem_filter.2 ⟨hd, by simpa using hd'⟩)
    obtain ⟨c, hc, heq⟩ := mem_map.1 hmem
    rw [← isAscii_toLower, ← heq, isAscii_toLower]
    exact h c (mem_filter.1 hc).1

theorem letters_splitUnderscores (cs : List Char) : letters (splitUnderscores cs).flatten = letters cs := by
  induction cs with
  | nil => rfl
  | cons c cs ih =>
    rw [letters_cons, ← ih, splitUnderscores]
    by_cases hc : c = '_'
    · simp [hc, letters]
    · cases splitUnderscores cs <;> simp [hc, letters]

/-- **Pascal case** keeps letters and digits. -/
theorem letters_pascalChars (h : ∀ c ∈ cs, isAscii c = true) : letters (pascalChars cs) = letters cs := by
  have hparts (p : List Char) (hp : p ∈ splitUnderscores cs) : ∀ c ∈ p, isAscii c = true :=
    fun c hc => ascii_of_letters (letters_splitUnderscores cs) h c (mem_flatten.2 ⟨p, hp, hc⟩)
  rw [pascalChars, ← letters_splitUnderscores cs]
  split
  · next p heq =>
    rw [heq, flatten_singleton]
    cases p with
    | nil => rfl
    | cons c r =>
      have hc := hparts (c :: r) (heq ▸ mem_singleton_self _) c (mem_cons_self ..)
      rw [capitalize, capital, if_pos hc, letters_append, (cased hc).2.1, ← letters_cons]
  · exact letters_flatMap fun p hp => letters_titleFrom (hparts p hp) []

theorem flatten_cutAtHeads (w : List Char) : (cutAtHeads w).flatten = w := by
  induction w with
  | nil => rfl
  | cons c r ih =>
    rw [cutAtHeads]
    split
    · next h => rw [← ih, h]; rfl
    · next h =>
      split
      · rw [← ih, h]; rfl
      · split <;> rw [← ih, h] <;> rfl

theorem flatten_cutLastHead (p : List Char) : (cutLastHead p).flatten = p := by
  unfold cutLastHead
  dsimp only
  split
  · rw [flatten_cons, flatten_singleton, ← append_assoc, dropLast_eq_take, take_append_drop, takeWhile_append_dropWhile]
  · exact flatten_singleton

theorem letters_trimWhile (cs : List Char) : letters (trimWhile (· == '_') cs) = letters cs := by
  have hdrop (cs : List Char) : letters (cs.dropWhile (· == '_')) = letters cs := by
    induction cs with
    | nil => rfl
    | cons c cs ih =>
      rw [dropWhile_cons]
      split
      · next h => rw [ih, eq_of_beq h]; rfl
      · rfl
  have hreverse (cs : List Char) : letters cs.reverse = (letters cs).reverse := by simp [letters]
  rw [trimWhile, dropEndWhile, hreverse, hdrop, hreverse, reverse_reverse, hdrop]

/-- **Snake case** keeps letters and digits, and has no capitals. -/
theorem letters_snakeChars (h : ∀ c ∈ cs, isAscii c = true) : (snakeChars cs).filter (· != '_') = letters cs := by
  have hpieces : (snakePieces cs).flatten = (splitUnderscores cs).flatten := by
    simp [snakePieces, flatMap_def, flatten_flatten, Function.comp_def, flatten_cutLastHead, flatten_cutAtHeads]
  have hjoined : letters (trimWhile (· == '_') (joinPieces (snakePieces cs))) = letters cs := by
    rw [letters_trimWhile, joinPieces, letters_flatMap fun p _ => by split <;> rfl, hpieces, letters_splitUnderscores]
  have hascii := ascii_of_letters hjoined h
  rw [snakeChars, smalls, smallsFrom_eq hascii, ← hjoined, letters, filter_map]
  congr 1
  refine filter_congr fun c hc => ?_
  exact (cased (hascii c hc)).1

end Text

open Text

variable {d : Def}

/-- A field the linter has nothing to say about is named in snake case. -/
theorem snakeCase_of_noWarning (hlint : Lint.warningsOf .messageField (d.name, d) = []) : snakeCase d.name = d.name := by
  have hcheck := filterMap_eq_nil_iff.1 hlint (Lint.caseRule .messageField .fieldName snakeCase)
    (by simp [Lint.rules, Lint.caseRule])
  have hname : Lint.checkedName d.name d = d.name := ite_self _
  simp only [Lint.caseRule, hname, ite_eq_left_iff, reduceCtorEq, imp_false, not_not] at hcheck
  exact hcheck.symm

/-- **Keys of a field.** A field the linter has nothing to say about has its name as key in C and in Python.  The key
in Go is the name apart from underscores. -/
theorem jsonKeys (hascii : d.name.toList.all isAscii = true)
    (hlint : Lint.warningsOf .messageField (d.name, d) = []) (env : Env) (t : Ty) (position : Nat) :
    let name := pascalCase d.name
    let key := snakeCase name
    CSource.fieldDescriptor env d t position = (CLibrary.typeCall env t (some d)).map (fun call =>
      s!"fds[{position}] = BpMessageFieldDescriptor((void *)&(m->{d.name}), {call}, \"{d.name}\");") ∧
    PythonModule.field env d t = (do
      let type ← Dialect.python.typeText env (some d.name) t
      let value ← PythonLibrary.fieldDefault env t
      return .lines 4 (Line.comments d none ++ [.of s!"{d.name}: {type} = {value}", .bitsOf env d])) ∧
    GoPackage.field env d t = (Dialect.go.typeText env (some name) t).map (fun type =>
      .lines 1 (Line.comments d none ++ [.of s!"{name} {type} `json:\"{key}\"`", .bitsOf env d])) ∧
    key.toList.filter (· != '_') = d.name.toList.filter (· != '_') := by
  intro name key
  refine ⟨rfl, rfl, rfl, ?_⟩
  have hascii := all_eq_true.1 hascii
  have hpascal := letters_pascalChars hascii
  have hsnake := congrArg (·.toList.filter (· != '_')) (snakeCase_of_noWarning hlint)
  simp only [snakeCase, String.toList_ofList] at hsnake
  rw [← hsnake, letters_snakeChars hascii, ← hpascal]
  simp only [key, name, snakeCase, pascalCase, String.toList_ofList]
  exact letters_snakeChars (ascii_of_letters hpascal hascii)

/-- A field whose name loses its underscore. -/
def markedField : Def := .field { name := "a_b" } (.bool ⟨"bool", 1, ""⟩) 1

theorem jsonKeys_markedField :
    let key := snakeCase (pascalCase markedField.name)
    key = "ab" ∧ key.toList.filter (· != '_') = markedField.name.toList.filter (· != '_') :=
  ⟨by decide +kernel, (jsonKeys (d := markedField) (by decide +kernel) (by decide +kernel) ⟨[]⟩ default 0).2.2.2⟩

end BitSchema
