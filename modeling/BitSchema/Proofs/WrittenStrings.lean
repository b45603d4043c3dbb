import BitSchema.Proofs.StringLiterals
import BitSchema.Target.Dialect

/-!
# Strings as they are written

A string is written between quotes as it is, in each of the three languages.  The text is read back as the same string
exactly if there is no quote, no backslash and no line end in it (`Dialect.literal_read_back_iff`).

Unescaping never makes a text longer, and each backslash makes it shorter.  So a value that is as long as all that
stands between the quotes comes from a text without backslashes.
-/

namespace BitSchema.Token

open List

variable {r v body : List Char}

/-- **Characters that may stand between quotes as they are.** -/
def Plain (v : List Char) : Prop := ∀ c ∈ v, c ≠ '"' ∧ c ≠ '\\' ∧ c ≠ '\n'

theorem stringBody?_of_plain (h : Plain v) (rest : List Char) : stringBody? (v ++ '"' :: rest) = some v := by
  induction v with
  | nil => rfl
  | cons c v ih =>
    obtain ⟨hc, hv⟩ := forall_mem_cons.1 h
    rw [cons_append, stringBody?.eq_4 _ _ hc.1 fun _ _ heq _ => hc.2.1 heq, ih hv]
    simp [hc]

theorem unescape?_of_plain (h : Plain v) : unescape? v = some v := by
  induction v with
  | nil => rfl
  | cons c v ih =>
    obtain ⟨hc, hv⟩ := forall_mem_cons.1 h
    rw [unescape?.eq_3 _ _ fun _ _ heq _ => hc.2.1 heq, ih hv]
    simp [hc]

/-- **What stands between quotes** is at least as long as its value, and plain if it is as long. -/
theorem length_of_stringBody? (h : stringBody? r = some body) :
    (∃ rest, r = body ++ '"' :: rest) ∧
      ∀ v, unescape? body = some v → v.length ≤ body.length ∧ (v.length = body.length → Plain body) := by
  fun_induction stringBody? r generalizing body with
  | case1 => cases h
  | case2 r =>
    cases h
    refine ⟨⟨r, rfl⟩, fun v hv => ?_⟩
    cases hv
    exact ⟨Nat.le_refl _, fun _ c hc => absurd hc not_mem_nil⟩
  | case3 => cases h
  | case4 c r hline ih =>
    obtain ⟨b, hb, rfl⟩ := Option.map_eq_some_iff.1 h
    obtain ⟨⟨rest, rfl⟩, hlength⟩ := ih hb
    refine ⟨⟨rest, rfl⟩, fun v hv => ?_⟩
    -- an escape gives one character for two
    obtain ⟨d, -, hv⟩ := Option.bind_eq_some_iff.1 hv
    obtain ⟨s, hs, hv⟩ := Option.bind_eq_some_iff.1 hv
    cases hv
    have hle := (hlength s hs).1
    simp only [length_cons]
    omega
  | case5 => cases h
  | case6 c r hquote hback hself ih =>
    obtain ⟨b, hb, rfl⟩ := Option.map_eq_some_iff.1 h
    obtain ⟨⟨rest, rfl⟩, hlength⟩ := ih hb
    have hc : c ≠ '"' ∧ c ≠ '\\' ∧ c ≠ '\n' := by
      simp_all
    refine ⟨⟨rest, rfl⟩, fun v hv => ?_⟩
    rw [unescape?.eq_3 _ _ fun _ _ heq _ => hc.2.1 heq, if_neg (by simp [hc])] at hv
    obtain ⟨s, hs, rfl⟩ := Option.map_eq_some_iff.1 hv
    obtain ⟨hle, hplain⟩ := hlength s hs
    exact ⟨Nat.succ_le_succ hle, fun heq => forall_mem_cons.2 ⟨hc, hplain (Nat.succ.inj heq)⟩⟩

/-- **A string between quotes as it is** is read back exactly if it is plain. -/
theorem scan_between_iff (file : String) (line : Nat) (v : String) :
    (∃ t, scan file line ("\"" ++ v ++ "\"") = ⟨[t], none⟩ ∧ t.lexeme = .stringLiteral v) ↔ Plain v.toList := by
  have htext : ("\"" ++ v ++ "\"").toList = '"' :: (v.toList ++ ['"']) := by simp
  rw [scan, htext, scanFrom, if_neg (by decide)]
  constructor
  · rintro ⟨t, hscan, ht⟩
    cases hbody : stringBody? (v.toList ++ ['"']) with
    | none => simp [step, after?, wholeWord?, sizedWord?, isNameStart, hbody] at hscan
    | some body =>
      rw [step_quote none hbody] at hscan
      cases hvalue : unescape? body with
      | none => simp [hvalue] at hscan
      | some value =>
        simp only [hvalue, Scan.mk.injEq, cons.injEq] at hscan
        obtain ⟨⟨rfl, -⟩, -⟩ := hscan
        obtain rfl : value = v.toList := by rw [← Lexeme.stringLiteral.inj ht, String.toList_ofList]
        obtain ⟨⟨rest, hrest⟩, hlength⟩ := length_of_stringBody? hbody
        obtain ⟨hle, hplain⟩ := hlength _ hvalue
        have hsum := congrArg List.length hrest
        simp only [length_append, length_cons, length_nil] at hsum
        -- what stands between the quotes is at most as long as the string, so that it is the string
        have heq : v.toList = body := append_inj_left hrest (by omega)
        rw [heq]
        exact hplain (by rw [heq])
  · intro hplain
    rw [step_quote none (stringBody?_of_plain hplain []), unescape?_of_plain hplain]
    refine ⟨⟨.stringLiteral v, "\"" ++ v ++ "\"", line, 0⟩, ?_, rfl⟩
    simp [scanFrom, take_of_length_le, String.append_assoc]

end BitSchema.Token

namespace BitSchema

open Token

/-- **Strings that are read back.**  Every string is the value of some literal.  The three languages write it in the
same way, and what they write is read back as one literal with this value exactly if there is no quote, no backslash
and no line end in the string. -/
theorem Dialect.literal_read_back_iff (v : String) (file : String) (line : Nat) :
    (∃ source t, scan file line source = ⟨[t], none⟩ ∧ t.lexeme = .stringLiteral v) ∧
    ∃ text, (∀ l : Dialect, l ≠ .neutral → l.literal (.str v) = .ok text) ∧
      ((∃ t, scan file line text = ⟨[t], none⟩ ∧ t.lexeme = .stringLiteral v) ↔
        ∀ c ∈ v.toList, c ≠ '"' ∧ c ≠ '\\' ∧ c ≠ '\n') := by
  refine ⟨⟨_, _, scan_quoted file line (fun _ => false) v, rfl⟩, "\"" ++ v ++ "\"", fun l hl => ?_,
    scan_between_iff file line v⟩
  cases l with
  | neutral => exact absurd rfl hl
  | c => rfl
  | go => rfl
  | python => rfl

end BitSchema
