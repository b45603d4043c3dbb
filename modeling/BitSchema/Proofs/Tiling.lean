import BitSchema.Proofs.Reading
import BitSchema.Proofs.StringLiterals

/-!
# Tokens tile a text

The slices of the tokens lie one behind the other in the text, and between them there are only characters that are
skipped (`Token.Tiles`).  Only the rule of newlines takes a line end (`Token.step_takes`), so counting these tokens
counts the lines.

If the scan fails, the tokens before the failure tile the text up to the place where no token is found
(`Token.tiledUntil_scan`).
-/

namespace BitSchema.Token

open List

/-! ### What a rule takes -/

variable {word cs rest digits r body : List Char} {before : Option Char} {c : Char} {more : Nat}

theorem eq_of_after? (h : after? word cs = some rest) : cs = word ++ rest := by
  fun_induction after? word cs with
  | case1 cs => rw [Option.some.inj h, nil_append]
  | case2 => cases h
  | case3 w ws c cs heq ih => rw [ih h, beq_iff_eq.1 heq, cons_append]
  | case4 => cases h

/-- **The text starts with what a rule takes**: so many characters, none of which ends a line. -/
def Takes (cs : List Char) (n : Nat) : Prop := ∃ source rest, cs = source ++ rest ∧ source.length = n ∧ '\n' ∉ source

theorem takes_append (word : List Char) (hword : '\n' ∉ word) (h : Takes rest more) :
    Takes (word ++ rest) (word.length + more) := by
  obtain ⟨source, rest, rfl, rfl, hsource⟩ := h
  exact ⟨word ++ source, rest, by rw [append_assoc], length_append, by simp [hword, hsource]⟩

theorem takes_nil (cs : List Char) : Takes cs 0 := ⟨[], cs, rfl, rfl, not_mem_nil⟩

theorem takes_of_after? (hword : '\n' ∉ word) (h : after? word cs = some rest) : Takes cs word.length :=
  eq_of_after? h ▸ takes_append word hword (takes_nil rest)

theorem takes_takeWhile (p : Char → Bool) (hp : p '\n' = false) (cs : List Char) : Takes cs (cs.takeWhile p).length := by
  refine ⟨cs.takeWhile p, cs.dropWhile p, takeWhile_append_dropWhile.symm, rfl, fun hmem => ?_⟩
  rw [all_eq_true.1 all_takeWhile _ hmem] at hp
  cases hp

variable {w : String}

theorem takes_wholeWord? {words : List String} (hwords : ∀ w ∈ words, '\n' ∉ w.toList)
    (h : wholeWord? words before cs = some w) : w ∈ words ∧ Takes cs w.toList.length := by
  unfold wholeWord? at h
  split at h
  · have hmem := mem_of_find?_eq_some h
    have hfound := find?_some h
    split at hfound
    · next rest hafter => exact ⟨hmem, takes_of_after? (hwords w hmem) hafter⟩
    · cases hfound
  · cases h

theorem takes_sizedWord? {word : String} (hword : '\n' ∉ word.toList) (h : sizedWord? word before cs = some digits) :
    Takes cs (word.toList.length + digits.length) := by
  unfold sizedWord? at h
  split at h
  · split at h
    · next rest hafter =>
      dsimp only at h
      split at h
      · cases h
        rw [eq_of_after? hafter]
        exact takes_append _ hword (takes_takeWhile _ (by decide) rest)
      · cases h
    · cases h
  · cases h

theorem takes_stringBody? (h : stringBody? r = some body) : Takes r (body.length + 1) := by
  fun_induction stringBody? r generalizing body with
  | case1 => cases h
  | case2 r =>
    cases h
    exact takes_append ['"'] (by decide) (takes_nil r)
  | case3 => cases h
  | case4 c r hline ih =>
    obtain ⟨b, hb, rfl⟩ := Option.map_eq_some_iff.1 h
    have hne : '\n' ≠ c := fun heq => hline (beq_iff_eq.2 heq.symm)
    have htakes := takes_append ['\\', c] (by simp [hne]) (ih hb)
    simpa [Nat.add_comm, Nat.add_left_comm] using htakes
  | case5 => cases h
  | case6 c r _ _ hself ih =>
    obtain ⟨b, hb, rfl⟩ := Option.map_eq_some_iff.1 h
    have hne : '\n' ≠ c := fun heq => by simp [← heq] at hself
    have htakes := takes_append [c] (by simp [hne]) (ih hb)
    simpa [Nat.add_comm, Nat.add_left_comm] using htakes

/-- **What a step takes** that does not start at a line end: characters of one line, as something else. -/
def Step.Takes (cs : List Char) : Step → Prop
  | .found lexeme more => lexeme ≠ .newline ∧ Token.Takes cs (more + 1)
  | _ => True

theorem takes_takeWhile_cons {p : Char → Bool} (hp : p '\n' = false) (hc : p c = true) (r : List Char) :
    Takes (c :: r) (((c :: r).takeWhile p).length - 1 + 1) := by
  have htakes := takes_takeWhile p hp (c :: r)
  rwa [takeWhile_cons_of_pos hc, length_cons] at htakes ⊢

theorem takes_isSome (hw : '\n' ∉ w.toList) (h : (wholeWord? [w] before cs).isSome = true) :
    Takes cs w.toList.length := by
  obtain ⟨w', hw'⟩ := Option.isSome_iff_exists.1 h
  obtain ⟨hmem, htakes⟩ := takes_wholeWord? (by simpa using hw) hw'
  rwa [mem_singleton.1 hmem] at htakes

theorem takes_single (hc : c ≠ '\n') (r : List Char) : Takes (c :: r) 1 :=
  takes_append [c] (by simpa using hc.symm) (takes_nil r)

theorem integerType_takes {ok : Nat → Bool} {make : String → Nat → Lexeme} {problem : Problem}
    (hmake : ∀ s n, make s n ≠ .newline) (hw : 0 < w.length) (htakes : Takes cs (w.toList.length + digits.length)) :
    (integerType w digits ok make problem).Takes cs := by
  unfold integerType
  dsimp only
  split
  · trivial
  · split
    · refine ⟨hmake _ _, ?_⟩
      rw [String.length_toList] at htakes
      rwa [show w.length - 1 + digits.length + 1 = w.length + digits.length by omega]
    · trivial

/-- **Only the rule of newlines takes a line end.** -/
theorem step_takes (before : Option Char) (r : List Char) (hc : c ≠ '\n') : (step before c r).Takes (c :: r) := by
  have hsingle := takes_single hc r
  fun_cases step before c r
  case case1 h => exact absurd (beq_iff_eq.1 h) hc
  case case2 => exact ⟨by simp, takes_takeWhile_cons (p := (· != '\n')) (by decide) (bne_iff_ne.2 hc) r⟩
  case case3 h => exact ⟨by simp, takes_isSome (by decide) h⟩
  case case4 h => exact integerType_takes (by simp) (by decide) (takes_sizedWord? (by decide) h)
  case case5 h => exact integerType_takes (by simp) (by decide) (takes_sizedWord? (by decide) h)
  case case6 h => exact ⟨by simp, takes_isSome (by decide) h⟩
  case case7 hex h =>
    refine ⟨by simp, ?_⟩
    obtain ⟨rest, hrest⟩ := Option.isSome_iff_exists.1 (Bool.and_eq_true_iff.1 h).1
    obtain ⟨rfl, rfl⟩ := cons.inj (eq_of_after? hrest)
    have htakes := takes_append ['0', 'x'] (by decide) (takes_takeWhile isHexDigit (by decide) rest)
    rwa [show 1 + hex.length + 1 = ['0', 'x'].length + hex.length by rw [Nat.add_right_comm]; rfl]
  case case9 h _ _ _ => exact ⟨by simp, takes_takeWhile_cons (by decide) h r⟩
  case case10 word h =>
    obtain ⟨hmem, htakes⟩ := takes_wholeWord? (by decide) h
    have hpos : ∀ w ∈ ["true", "false", "yes", "no"], 0 < w.length := by decide
    refine ⟨by simp, ?_⟩
    rwa [Nat.sub_add_cancel (hpos word hmem)]
  case case11 h _ =>
    refine ⟨by split <;> simp, ?_⟩
    rw [String.length_ofList]
    exact takes_takeWhile_cons (by decide) (isNameChar_of_isNameStart h) r
  case case12 h body hbody _ _ =>
    refine ⟨by simp, ?_⟩
    have htakes := takes_append [c] (by simpa using hc.symm) (takes_stringBody? hbody)
    rwa [length_singleton, Nat.add_comm 1] at htakes
  all_goals first | exact ⟨by simp, hsingle⟩ | trivial

/-! ### Tiles -/

/-- **Tokens tile a text** whose first line has a number: their slices lie one behind the other, outside of them there
are only characters that are skipped, the newline tokens are the line ends, and the line of a token is found by
counting the line ends before it. -/
structure Tiles (line : Nat) (cs : List Char) (ts : List Token) : Prop where
  apart : ts.Pairwise fun t u => t.pos + t.source.length ≤ u.pos
  slice : ∀ t ∈ ts, t.source ≠ "" ∧ ∃ before after, cs = before ++ t.source.toList ++ after ∧ before.length = t.pos
  outside : ∀ k c, cs[k]? = some c → (∀ t ∈ ts, k < t.pos ∨ t.pos + t.source.length ≤ k) → isSkipped c = true
  newlines : (ts.filter fun t => t.lexeme = .newline).map (fun t => (t.pos, t.source)) = (cs.idxsOf '\n').map (·, "\n")
  line_eq : ∀ t ∈ ts, t.line = line + (cs.take t.pos).count '\n'

variable {line : Nat} {ts : List Token} {source : List Char} {lexeme : Lexeme}

theorem Tiles.le_length {t : Token} (h : Tiles line cs ts) (ht : t ∈ ts) : t.pos + t.source.length ≤ cs.length := by
  obtain ⟨-, before, after, rfl, hpos⟩ := h.slice t ht
  rw [length_append, length_append, String.length_toList, hpos]
  omega

theorem tiles_nil (line : Nat) : Tiles line [] [] := ⟨.nil, nofun, nofun, rfl, nofun⟩

theorem Tiles.slice_append (h : Tiles line cs ts) (rest : List Char) {t : Token} (ht : t ∈ ts) :
    t.source ≠ "" ∧ ∃ before after, cs ++ rest = before ++ t.source.toList ++ after ∧ before.length = t.pos := by
  obtain ⟨hne, before, after, heq, hpos⟩ := h.slice t ht
  exact ⟨hne, before, after ++ rest, by rw [heq, append_assoc], hpos⟩

theorem Tiles.line_append (h : Tiles line cs ts) (rest : List Char) {t : Token} (ht : t ∈ ts) :
    t.line = line + ((cs ++ rest).take t.pos).count '\n' := by
  rw [take_append_of_le_length (by have := h.le_length ht; omega)]
  exact h.line_eq t ht

/-- **A character that is skipped** lies outside of the slices. -/
theorem Tiles.skip (h : Tiles line cs ts) (hc : isSkipped c = true) : Tiles line (cs ++ [c]) ts := by
  refine ⟨h.apart, fun t ht => h.slice_append _ ht, fun k d hk hout => ?_, ?_, fun t ht => h.line_append _ ht⟩
  · rcases Nat.lt_or_ge k cs.length with hlt | hge
    · rw [getElem?_append_left hlt] at hk
      exact h.outside k d hk hout
    · rw [getElem?_append_right hge] at hk
      rwa [← mem_singleton.1 (mem_of_getElem? hk)] at hc
  · have hne : c ≠ '\n' := by rintro rfl; cases hc
    rw [h.newlines, idxsOf_append]
    simp [hne]

/-- **A token is added** with the slice that follows. -/
theorem Tiles.token (h : Tiles line cs ts) (hsource : source ≠ [])
    (hnewline : lexeme = .newline ∧ source = ['\n'] ∨ lexeme ≠ .newline ∧ '\n' ∉ source) :
    Tiles line (cs ++ source) (ts ++ [⟨lexeme, String.ofList source, line + cs.count '\n', cs.length⟩]) := by
  refine ⟨?_, forall_mem_append.2 ⟨fun t ht => h.slice_append _ ht, ?_⟩, fun k d hk hout => ?_, ?_,
    forall_mem_append.2 ⟨fun t ht => h.line_append _ ht, ?_⟩⟩
  · refine pairwise_append.2 ⟨h.apart, pairwise_singleton _ _, fun t ht u hu => ?_⟩
    rw [mem_singleton.1 hu]
    exact h.le_length ht
  · rintro t ht
    rw [mem_singleton.1 ht]
    exact ⟨by simpa using hsource, cs, [], by simp, rfl⟩
  · obtain ⟨hbefore, hlast⟩ := forall_mem_append.1 hout
    have hlast := hlast _ (mem_singleton_self _)
    have hlength := (List.getElem?_eq_some_iff.1 hk).1
    rw [length_append] at hlength
    have hlast : k < cs.length ∨ cs.length + source.length ≤ k := by simpa using hlast
    rw [getElem?_append_left (by omega)] at hk
    exact h.outside k d hk hbefore
  · rw [filter_append, map_append, h.newlines, idxsOf_append, map_append]
    rcases hnewline with ⟨rfl, rfl⟩ | ⟨hlexeme, hline⟩
    · simp
    · rw [idxsOf_eq_nil_iff.2 fun d hd => beq_eq_false_iff_ne.2 (ne_of_mem_of_not_mem hd hline)]
      simp [hlexeme]
  · rintro t ht
    rw [mem_singleton.1 ht, take_left]

/-- **The slice of a token** is the part of the text that its rule takes. -/
theorem slice_of_step (h : step before c r = .found lexeme more) : more ≤ r.length ∧
    (lexeme = .newline ∧ c :: r.take more = ['\n'] ∨ lexeme ≠ .newline ∧ '\n' ∉ c :: r.take more) := by
  by_cases hc : c = '\n'
  · subst hc
    cases h
    exact ⟨Nat.zero_le _, .inl ⟨rfl, rfl⟩⟩
  · have htakes := step_takes before r hc
    rw [h] at htakes
    obtain ⟨hlexeme, source, rest, hsplit, hlength, hline⟩ := htakes
    have htake : c :: r.take more = source := by
      rw [← take_succ_cons, hsplit, ← hlength, take_left]
    have htotal := congrArg List.length hsplit
    rw [length_cons, length_append, hlength] at htotal
    exact ⟨by omega, .inr ⟨hlexeme, htake ▸ hline⟩⟩

/-- **A text is tiled** up to its end or, if the scan fails, up to the place where no token is found; the line of this
place is reported. -/
def TiledUntil (line : Nat) (text : List Char) (ts : List Token) : Option Failure → Prop
  | none => Tiles line text ts
  | some f => ∃ read c r, text = read ++ c :: r ∧ Tiles line read ts ∧
    (isSkipped c = false ∧ ∀ lexeme more, step read.getLast? c r ≠ .found lexeme more) ∧
    f.line = line + read.count '\n' ∧ ∀ report, f.fault = .report report → report.line = .number f.line

/-- **The rest of a text is tiled**, behind `walked` that is tiled. -/
theorem tiledUntil_scanFrom (file : String) (walked : List Char) (h : Tiles line walked ts) (cs : List Char) :
    let s := scanFrom file walked.getLast? (line + walked.count '\n') walked.length cs
    TiledUntil line (walked ++ cs) (ts ++ s.tokens) s.failure := by
  generalize hbefore : walked.getLast? = before
  generalize hline : line + walked.count '\n' = n
  generalize hpos : walked.length = pos
  dsimp only
  fun_induction scanFrom file before n pos cs generalizing walked ts with
  | case1 => simpa [TiledUntil] using h
  | case2 before n pos c r hskip ih =>
    have hne : c ≠ '\n' := by rintro rfl; cases hskip
    have hrest := ih (walked ++ [c]) (h.skip hskip) (by simp) (by simp [← hline, hne]) (by simp [← hpos])
    rwa [append_assoc] at hrest
  | case3 before n pos c r hskip problem note source hstep =>
    subst hbefore
    refine ⟨walked, c, r, rfl, by simpa using h, ⟨by simpa using hskip, by simp [hstep]⟩, hline.symm,
      fun report heq => ?_⟩
    cases heq
    rfl
  | case4 before n pos c r hskip fault hstep =>
    subst hbefore
    refine ⟨walked, c, r, rfl, by simpa using h, ⟨by simpa using hskip, by simp [hstep]⟩, hline.symm,
      fun report heq => ?_⟩
    have hsound := step_sound walked.getLast? c r
    rw [hstep] at hsound
    obtain ⟨count, rfl⟩ := hsound
    cases heq
  | case5 before n pos c r hskip lexeme more hstep source next =>
    rename_i ih
    obtain ⟨hmore, hnewline⟩ := slice_of_step hstep
    have hcount : line + (walked ++ source).count '\n' = if lexeme = .newline then n + 1 else n := by
      rw [count_append, ← hline]
      rcases hnewline with ⟨rfl, hsource⟩ | ⟨hlexeme, hsource⟩
      · simp [source, hsource, Nat.add_assoc]
      · rw [count_eq_zero_of_not_mem hsource, if_neg hlexeme, Nat.add_zero]
    have hlength : (walked ++ source).length = pos + 1 + more := by
      rw [length_append, length_cons, length_take_of_le hmore, hpos]
      omega
    have hsplit : walked ++ source ++ r.drop more = walked ++ c :: r := by
      rw [append_assoc, cons_append, take_append_drop]
    have hrest := ih (walked ++ source) (h.token (cons_ne_nil _ _) hnewline) (getLast?_append_cons ..)
      (by rw [dite_eq_ite, hcount]) hlength
    rwa [hsplit, append_assoc, hline, hpos] at hrest

/-- **A text is tiled by its tokens**, and lines are counted from the number of the first one. -/
theorem tiledUntil_scan (file : String) (line : Nat) (text : String) :
    TiledUntil line text.toList (scan file line text).tokens (scan file line text).failure :=
  tiledUntil_scanFrom file [] (tiles_nil line) text.toList

end BitSchema.Token
