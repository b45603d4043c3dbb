import Mathlib.Tactic.SplitIfs
import BitSchema.Token.Lexer

/-!
# String literals

A string between quotes is written with escapes (`Token.quoted`).  The scan reads it back as one token
(`Token.scan_quoted`).

Unescaping walks over what stands between the quotes by an index (`Token.unescapeFrom`).  Whatever the rule of strings
matches, the walk stays inside: a backslash always takes a character along (`Token.unescapeFrom_body`).
-/

namespace BitSchema.Token

open List

variable {r body : List Char}

/-! ### Writing and reading back -/

/-- **How a character stands between quotes**; a single quote may be escaped or not. -/
def escape (single : Bool) (c : Char) : List Char :=
  if c = '\t' then ['\\', 't']
  else if c = '\r' then ['\\', 'r']
  else if c = '\n' then ['\\', 'n']
  else if c = '\\' ∨ c = '"' ∨ c = '\'' ∧ single = true then ['\\', c]
  else [c]

/-- Characters with their escapes; `single k` says whether the character at `k` is escaped if it is a single quote. -/
def escapeAll (single : Nat → Bool) : List Char → List Char
  | [] => []
  | c :: r => escape (single 0) c ++ escapeAll (fun k => single (k + 1)) r

def quoted (single : Nat → Bool) (v : List Char) : List Char := '"' :: (escapeAll single v ++ ['"'])

/-- A character is written as itself, or as a backslash and a character that is read back as it. -/
theorem escape_cases (single : Bool) (c : Char) :
    (escape single c = [c] ∧ c ≠ '\\' ∧ c ≠ '"' ∧ c ≠ '\n') ∨
      ∃ d, escape single c = ['\\', d] ∧ escaped? d = some c ∧ d ≠ '\n' := by
  unfold escape
  split_ifs with ht hr hn hself
  · exact .inr ⟨'t', rfl, by rw [ht]; rfl, by decide⟩
  · exact .inr ⟨'r', rfl, by rw [hr]; rfl, by decide⟩
  · exact .inr ⟨'n', rfl, by rw [hn]; rfl, by decide⟩
  · refine .inr ⟨c, rfl, ?_, hn⟩
    rcases hself with rfl | rfl | ⟨rfl, -⟩
    · rfl
    · rfl
    · rfl
  · exact .inl ⟨rfl, fun h => hself (.inl h), fun h => hself (.inr (.inl h)), hn⟩

theorem stringBody?_escape (single : Bool) (c : Char) (r : List Char) :
    stringBody? (escape single c ++ r) = (stringBody? r).map (escape single c ++ ·) := by
  rcases escape_cases single c with ⟨heq, hback, hquote, hline⟩ | ⟨d, heq, -, hline⟩
  · rw [heq, singleton_append, stringBody?.eq_4 _ _ hquote fun _ _ h _ => hback h]
    simp [hback, hline]
  · rw [heq]
    simp [stringBody?, hline]

theorem unescape?_escape (single : Bool) (c : Char) (r : List Char) :
    unescape? (escape single c ++ r) = (unescape? r).map (c :: ·) := by
  rcases escape_cases single c with ⟨heq, hback, -, -⟩ | ⟨d, heq, hd, -⟩
  · rw [heq, singleton_append, unescape?.eq_3 _ _ fun _ _ h _ => hback h]
    simp [hback]
  · rw [heq]
    cases h : unescape? r <;> simp [unescape?, hd, h]

/-- **What was written is found between its quotes**, whatever follows. -/
theorem stringBody?_escapeAll (single : Nat → Bool) (v rest : List Char) :
    stringBody? (escapeAll single v ++ '"' :: rest) = some (escapeAll single v) := by
  induction v generalizing single with
  | nil => rfl
  | cons c v ih =>
    rw [escapeAll, append_assoc, stringBody?_escape, ih]
    rfl

theorem unescape?_escapeAll (single : Nat → Bool) (v : List Char) : unescape? (escapeAll single v) = some v := by
  induction v generalizing single with
  | nil => rfl
  | cons c v ih =>
    rw [escapeAll, unescape?_escape, ih]
    rfl

/-- **Only the rule of strings matches a quote.** -/
theorem step_quote (before : Option Char) (hbody : stringBody? r = some body) :
    step before '"' r = match unescape? body with
      | some value => .found (.stringLiteral (String.ofList value)) (body.length + 1)
      | none => .failed .escape "" (String.ofList ('"' :: body ++ ['"'])) := by
  cases hvalue : unescape? body <;> simp [step, after?, wholeWord?, sizedWord?, isNameStart, hbody, hvalue]

/-- **A string is read back from between its quotes**, as one token. -/
theorem scan_quoted (file : String) (line : Nat) (single : Nat → Bool) (v : String) :
    scan file line (String.ofList (quoted single v.toList)) =
      ⟨[⟨.stringLiteral v, String.ofList (quoted single v.toList), line, 0⟩], none⟩ := by
  have hstep : step none '"' (escapeAll single v.toList ++ ['"']) =
      .found (.stringLiteral v) ((escapeAll single v.toList).length + 1) := by
    simp [step_quote none (stringBody?_escapeAll single v.toList []), unescape?_escapeAll]
  have hlength : (escapeAll single v.toList ++ ['"']).length = (escapeAll single v.toList).length + 1 := by simp
  rw [scan, String.toList_ofList, quoted, scanFrom, if_neg (by decide), hstep]
  dsimp only
  rw [← hlength, take_length, drop_length, scanFrom]

/-! ### Unescaping by an index -/

/-- **How a walk over the characters between quotes ends.** -/
inductive Unescaping where
  | value (v : List Char)
  | unknownEscape
  /-- A character was looked for beyond the end. -/
  | pastEnd
deriving DecidableEq

/-- **Unescaping by an index** `i` into `s`, of which the characters before have given `done`. -/
def unescapeFrom (s : List Char) (i : Nat) (done : List Char) : Unescaping :=
  if i < s.length then
    if s[i]? = some '\\' then
      match s[i + 1]? with
      | none => .pastEnd
      | some e =>
        match escaped? e with
        | some d => unescapeFrom s (i + 2) (done ++ [d])
        | none => .unknownEscape
    else unescapeFrom s (i + 1) (done ++ s[i]?.toList)
  else .value done
termination_by s.length - i

/-- **The walk stays between the quotes**: behind characters that have given `done` it finds what unescaping finds. -/
theorem unescapeFrom_body (walked done : List Char) (hbody : stringBody? r = some body) :
    unescapeFrom (walked ++ body) walked.length done =
      match unescape? body with
      | some v => .value (done ++ v)
      | none => .unknownEscape := by
  fun_induction stringBody? r generalizing walked done body with
  | case1 => cases hbody
  | case2 r =>
    cases hbody
    rw [unescapeFrom]
    simp [unescape?]
  | case3 c r hline => cases hbody
  | case4 c r hline ih =>
    obtain ⟨b, hb, rfl⟩ := Option.map_eq_some_iff.1 hbody
    rw [unescapeFrom]
    cases hc : escaped? c with
    | none => simp [unescape?, hc]
    | some d =>
      have hrest := ih (walked ++ ['\\', c]) (done ++ [d]) hb
      rw [append_assoc, length_append] at hrest
      cases hv : unescape? b <;> simp_all [unescape?]
  | case5 c r _ _ hself => cases hbody
  | case6 c r _ _ hself ih =>
    obtain ⟨b, hb, rfl⟩ := Option.map_eq_some_iff.1 hbody
    have hrest := ih (walked ++ [c]) (done ++ [c]) hb
    have hback : c ≠ '\\' := by simp_all
    rw [append_assoc, length_append] at hrest
    rw [unescapeFrom, unescape?.eq_3 _ _ fun _ _ h _ => hback h]
    cases hv : unescape? b <;> simp_all

/-- **Strings survive being written and read**, and the rule of strings fails only at an unknown escape.  However the
single quotes of a string are written, its text is one token with the string as its value.  Wherever the rule matches,
the walk over what stands between the quotes does not go beyond its end; it finds the value of the token, or an unknown
escape. -/
theorem quoted_and_unescaped (file : String) (line : Nat) :
    (∀ (single : Nat → Bool) (v : String),
      scan file line (String.ofList (quoted single v.toList)) =
        ⟨[⟨.stringLiteral v, String.ofList (quoted single v.toList), line, 0⟩], none⟩) ∧
    ∀ (before : Option Char) (r body : List Char), stringBody? r = some body →
      match unescapeFrom body 0 [] with
      | .value v => step before '"' r = .found (.stringLiteral (String.ofList v)) (body.length + 1)
      | .unknownEscape => step before '"' r = .failed .escape "" (String.ofList ('"' :: body ++ ['"']))
      | .pastEnd => False := by
  refine ⟨scan_quoted file line, fun before r body hbody => ?_⟩
  have hwalk := unescapeFrom_body [] [] hbody
  rw [nil_append, length_nil] at hwalk
  rw [hwalk, step_quote before hbody]
  cases unescape? body <;> rfl

end BitSchema.Token
