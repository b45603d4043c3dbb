import BitSchema.Proofs.Accepted
import BitSchema.Proofs.QuietSteps

/-!
# The stack of open scopes

The tokens of a text say by themselves which enums and messages are open at a place in it: a scope is open from its
opening brace to its closing brace, where a brace counts once the token behind it has been seen to fit (`Track.run`).
While a text is read, the stack of open scopes holds exactly these, above the file and above what was there before.

Only opening and closing a scope change more than its members (`Reading.Goes`), and whatever a statement opens it closes
(`Reading.goes_readStatement_readBody`).
-/

namespace BitSchema

open List

/-! ### Braces in a text -/

/-- The kind of a scope and its name, which a file gets only later. -/
abbrev Title := Option ScopeKind × String

def Def.title (d : Def) : Title := (d.mark.1, d.mark.2.name)

/-- **What the tokens of a text say of its scopes**: the last keyword that announces a scope, the last name, and the
titles of the scopes that are open, innermost first. -/
structure Track where
  kind : Option ScopeKind := none
  name : String := ""
  opened : List Title := []

namespace Track

/-- **What a token says**, given the look-ahead behind it, which is missing where the tokens fail. -/
def step (tr : Track) (t : Token) (next : Option (Option Token)) : Track :=
  match t.lexeme with
  | .keyword .enum => { tr with kind := some .enum }
  | .keyword .message => { tr with kind := some .message }
  | .identifier name => { tr with name }
  | .symbol '\x7b' => if next.any Lookahead.inBody then { tr with opened := (tr.kind, tr.name) :: tr.opened } else tr
  | .symbol '\x7d' => if next.any Lookahead.afterStatement then { tr with opened := tr.opened.tail } else tr
  | _ => tr

def ahead (next : Option (Option Token)) : List Token → Option (Option Token)
  | [] => next
  | t :: _ => some (some t)

/-- **What tokens say**, one after another. -/
def run (next : Option (Option Token)) : List Token → Track → Track
  | [], tr => tr
  | t :: ts, tr => run next ts (tr.step t (ahead next ts))

variable {next : Option (Option Token)} {tr : Track} {t : Token} {ts us : List Token}

theorem ahead_append : ahead next (ts ++ us) = ahead (ahead next us) ts := by
  cases ts <;> rfl

theorem run_append : run next (ts ++ us) tr = run next us (run (ahead next us) ts tr) := by
  induction ts generalizing tr with
  | nil => rfl
  | cons t ts ih =>
    rw [cons_append, run, run, ih, ahead_append]

theorem step_open (h : t.lexeme = .symbol '\x7b') : tr.step t next =
    if next.any Lookahead.inBody then { tr with opened := (tr.kind, tr.name) :: tr.opened } else tr := by
  simp [step, h]

theorem step_close (h : t.lexeme = .symbol '\x7d') : tr.step t next =
    if next.any Lookahead.afterStatement then { tr with opened := tr.opened.tail } else tr := by
  simp [step, h]

theorem opened_step (h : t.lexeme.isBrace = false) : (tr.step t next).opened = tr.opened := by
  unfold step
  split <;> simp_all [Lexeme.isBrace]

theorem opened_run (h : ∀ t ∈ ts, t.lexeme.isBrace = false) : (run next ts tr).opened = tr.opened := by
  induction ts generalizing tr with
  | nil => rfl
  | cons t ts ih =>
    rw [run, ih fun u hu => h u (mem_cons_of_mem _ hu), opened_step (h t (mem_cons_self ..))]

end Track

theorem State.next?_eq (s : State) : s.next? = Track.ahead (if s.ending.isNone then some none else none) s.rest := by
  unfold State.next?
  split <;> rename_i hrest <;> rw [hrest] <;> rfl

theorem State.next?_of_append {s t : State} {ts : List Token} (hrest : s.rest = ts ++ t.rest)
    (hending : t.ending = s.ending) :
    Track.ahead t.next? ts = s.next? := by
  rw [State.next?_eq, State.next?_eq, hrest, hending, Track.ahead_append]

namespace Reading

variable {α β : Type} {tok first : Token}

/-! ### Steps that open and close scopes -/

/-- **Scopes with the given titles are open** above one with the mark `m`, which stands above `below`. -/
def Stands (titles : List Title) (m : Option ScopeKind × Header) (below frames : List Def) : Prop :=
  ∃ above d, frames = above ++ d :: below ∧ above.map Def.title = titles ∧ d.mark = m

/-- **From one state to another**, where the tokens between them open and close scopes: above the others there were
those with the titles `before`, as far as a track is concerned of which `P` is true, and there are those with the
titles `after`. -/
structure Passed (P : Track → Prop) (before after : List Title) (ctx : Context) (s t : State) : Prop where
  aside : Aside ctx s t
  tokens : ∃ ts, s.rest = ts ++ t.rest ∧
    ∀ tr others, P tr → tr.opened = before ++ others → (Track.run t.next? ts tr).opened = after ++ others

variable {P : Track → Prop} {titles titles' titles'' : List Title} {x : Reading α} {f : α → Reading β}
  {Q : List Title → Prop}

variable {s t : State} {ctx : Context} {ts : List Token}

theorem Passed.trans {u : State} (h : Passed P titles titles' ctx s t)
    (h' : Passed (fun _ => True) titles' titles'' ctx t u) :
    Passed P titles titles'' ctx s u := by
  obtain ⟨haside, ts, hts, hrun⟩ := h
  obtain ⟨haside', us, hus, hrun'⟩ := h'
  refine ⟨haside.trans haside', ts ++ us, by rw [hts, hus, append_assoc], fun tr others hP hopened => ?_⟩
  rw [Track.run_append, State.next?_of_append hus haside'.ending]
  exact hrun' _ others trivial (hrun tr others hP hopened)

/-- **How a step goes** that starts where scopes with the titles `titles` are open: the tokens it passes say which
scopes are open behind it, however it ends, and `Q` is true of their titles if it succeeds. -/
def GoesIf (P : Track → Prop) (titles : List Title) (x : Reading α)
    (Q : List Title → Prop) (ctx : Context) (s : State) : Prop :=
  ∀ m below, Stands titles m below s.frames → ∃ now, Stands now m below (x ctx s).2.frames ∧
    Passed P titles now ctx s (x ctx s).2 ∧ ∀ a, (x ctx s).1 = .ok a → Q now

/-- How a step goes wherever it starts. -/
def Goes (titles : List Title) (x : Reading α) (titles' : List Title) : Prop :=
  ∀ ctx s, GoesIf (fun _ => True) titles x (· = titles') ctx s

theorem stands_of_sameScopes {m : Option ScopeKind × Header} {below frames frames' : List Def}
    (h : Stands titles m below frames) (hsame : SameScopes frames frames') : Stands titles m below frames' := by
  obtain ⟨above, d, rfl, htitles, hmark⟩ := h
  obtain ⟨htail, hmarks⟩ := hsame
  cases frames' with
  | nil => cases above <;> cases hmarks
  | cons e rest =>
    cases above with
    | nil =>
      cases htail
      exact ⟨[], e, rfl, htitles, (cons.inj hmarks).1.trans hmark⟩
    | cons c above =>
      cases htail
      have htitle : e.title = c.title := by rw [Def.title, (cons.inj hmarks).1, Def.title]
      refine ⟨e :: above, d, rfl, ?_, hmark⟩
      rw [map_cons, htitle]
      exact htitles

/-- Quiet steps leave the same scopes open. -/
theorem goesIf_of_calm (h : Calm ctx s (x ctx s).2) : GoesIf P titles x (· = titles) ctx s := by
  intro m below hstands
  obtain ⟨hframes, haside, ts, hts, hbrace⟩ := h
  refine ⟨titles, stands_of_sameScopes hstands hframes, ⟨haside, ts, hts, fun tr others _ hopened => ?_⟩, fun _ _ => rfl⟩
  rw [Track.opened_run hbrace, hopened]

theorem GoesIf.bind {Q' : List Title → Prop} (h : GoesIf P titles x Q ctx s)
    (hf : ∀ a now t, Q now → GoesIf (fun _ => True) now (f a) Q' ctx t) : GoesIf P titles (x >>= f) Q' ctx s := by
  intro m below hstands
  obtain ⟨now, hnow, hpassed, hok⟩ := h m below hstands
  cases hrun : x ctx s with
  | mk r t =>
    rw [hrun] at hnow hpassed hok
    cases r with
    | error e =>
      rw [bind_of_error hrun]
      exact ⟨now, hnow, hpassed, fun a ha => by cases ha⟩
    | ok a =>
      rw [bind_of_ok hrun]
      obtain ⟨now', hnow', hpassed', hok'⟩ := hf a now t (hok a rfl) m below hnow
      exact ⟨now', hnow', hpassed.trans hpassed', hok'⟩

theorem Quiet.goes (h : Quiet x) : Goes titles x titles := fun ctx s => goesIf_of_calm (h.calms ctx s)

theorem Goes.bind (h : Goes titles x titles') (hf : ∀ a, Goes titles' (f a) titles'') : Goes titles (x >>= f) titles'' :=
  fun ctx s => (h ctx s).bind fun a _ t hnow => hnow ▸ hf a ctx t

def GoesAt (tok : Token) (titles : List Title) (x : Reading α)
    (titles' : List Title) : Prop :=
  ∀ ctx s ts, s.rest = tok :: ts → GoesIf (fun _ => True) titles x (· = titles') ctx s

theorem CalmsAt.goes (h : CalmsAt tok x) : GoesAt tok titles x titles :=
  fun ctx s ts hrest => goesIf_of_calm (h ctx s ts hrest)

theorem Goes.at (h : Goes titles x titles') : GoesAt tok titles x titles' := fun ctx s _ _ => h ctx s

/-- Steps that fail without a brace. -/
theorem goesIf_of_error {e : Fault} (hrun : x ctx s = (.error e, t)) (h : Calm ctx s t) :
    GoesIf P titles x Q ctx s := by
  intro m below hstands
  have hx : GoesIf P titles x (· = titles) ctx s := goesIf_of_calm (by rwa [hrun])
  obtain ⟨now, hnow, hpassed, -⟩ := hx m below hstands
  exact ⟨now, hnow, hpassed, fun a ha => by rw [hrun] at ha; cases ha⟩

theorem goes_unexpected (t : Option Token) : Goes titles (unexpected t : Reading α) titles' := by
  intro ctx s
  obtain ⟨f, hf⟩ := exists_unexpected (α := α) t ctx s
  exact goesIf_of_error hf (.refl s)

theorem goes_peek {f : Option Token → Reading β} (hnone : Goes titles (f none) titles')
    (hsome : ∀ tok, GoesAt tok titles (f (some tok)) titles') : Goes titles (peek >>= f) titles' := by
  intro ctx s
  obtain ⟨t, line, hpeek, hnext⟩ | ⟨g, line, hpeek, -⟩ := peek_cases ctx s
  · have hf : GoesIf (fun _ => True) titles (f t) (· = titles') ctx { s with line } := by
      cases t with
      | none => exact hnone ctx _
      | some tok =>
        obtain ⟨ts, hrest⟩ := exists_rest_of_next? hnext
        exact hsome tok ctx _ ts hrest
    intro m below hstands
    rw [bind_of_ok hpeek]
    obtain ⟨now, hnow, ⟨haside, htokens⟩, hok⟩ := hf m below hstands
    exact ⟨now, hnow, ⟨haside.after rfl, htokens⟩, hok⟩
  · exact goesIf_of_error (bind_of_error hpeek) (.of_eq rfl rfl rfl)

/-- **What the tokens before a brace say**: how they change a track. -/
def Says (x : Reading α) (e : α → Track → Track) : Prop :=
  ∀ ctx s, (x ctx s).2.frames = s.frames ∧ (x ctx s).2.aside = s.aside ∧ ∃ ts, s.rest = ts ++ (x ctx s).2.rest ∧
    (∀ tok ∈ ts, tok.lexeme.isBrace = false) ∧ ∀ a, (x ctx s).1 = .ok a → ∀ next tr, Track.run next ts tr = e a tr

theorem GoesIf.says {P' : α → Track → Prop} {e : α → Track → Track} (h : Says x e)
    (hP : ∀ a tr, P tr → P' a (e a tr)) (hf : ∀ a t, GoesIf (P' a) titles (f a) Q ctx t) :
    GoesIf P titles (x >>= f) Q ctx s := by
  intro m below hstands
  obtain ⟨hframes, haside, ts, hts, hbrace, hsays⟩ := h ctx s
  cases hrun : x ctx s with
  | mk r t =>
    rw [hrun] at hframes haside hts hsays
    cases r with
    | error f =>
      rw [bind_of_error hrun]
      refine ⟨titles, by rwa [hframes], ⟨.of_eq haside, ts, hts, fun tr others _ hopened => ?_⟩, fun a ha => by cases ha⟩
      rw [Track.opened_run hbrace, hopened]
    | ok a =>
      rw [bind_of_ok hrun]
      obtain ⟨now, hnow, ⟨haside', us, hus, hrun'⟩, hok⟩ := hf a t m below (by rwa [hframes])
      refine ⟨now, hnow, ⟨haside'.after haside, ts ++ us, ?_, fun tr others htr hopened => ?_⟩, hok⟩
      · rw [hts, hus, append_assoc]
      · have hsays := hsays a rfl (Track.ahead (f a ctx t).2.next? us) tr
        rw [Track.run_append, hsays]
        refine hrun' _ others (hP a tr htr) ?_
        rw [← hsays, Track.opened_run hbrace, hopened]

theorem says_expect {wanted : Lexeme → Option α} {e : α × Token → Track → Track} (hopen : wanted (.symbol '\x7b') = none)
    (hclose : wanted (.symbol '\x7d') = none)
    (h : ∀ tok a, wanted tok.lexeme = some a → ∀ next tr, Track.step tr tok next = e (a, tok) tr) :
    Says (expect wanted) e := by
  intro ctx s
  obtain ⟨tok, ts, a, line, hrest, hwanted, hrun⟩ | ⟨f, line, hrun⟩ := expect_cases wanted ctx s
  · rw [hrun]
    refine ⟨rfl, rfl, [tok], hrest, by simpa using isBrace_of_wanted hopen hclose hwanted, fun b hb next tr => ?_⟩
    cases hb
    exact h tok a hwanted _ tr
  · rw [hrun]
    exact ⟨rfl, rfl, [], rfl, by simp, fun a ha => by cases ha⟩

theorem says_expectName : Says expectName fun x tr => { tr with name := x.1 } := by
  refine says_expect rfl rfl fun tok a hl next tr => ?_
  split at hl
  · next n h =>
    cases hl
    unfold Track.step
    rw [h]
  · cases hl

theorem says_expectUint : Says (expect fun
    | .uintType source cap => some (source, cap)
    | _ => none) fun _ tr => tr := by
  refine says_expect rfl rfl fun tok a hl next tr => ?_
  split at hl
  · next h => simp [Track.step, h]
  · cases hl

theorem Says.bind_pure {e : Track → Track} {g : α → β} (h : Says x fun _ => e) :
    Says (x >>= fun a => pure (g a)) fun _ => e := by
  intro ctx s
  have hx := h ctx s
  cases hrun : x ctx s with
  | mk r t =>
    rw [hrun] at hx
    obtain ⟨hframes, hending, ts, hts, hbrace, hsays⟩ := hx
    cases r with
    | error f =>
      rw [bind_of_error hrun]
      exact ⟨hframes, hending, ts, hts, hbrace, fun a ha => by cases ha⟩
    | ok a =>
      rw [bind_of_ok hrun]
      exact ⟨hframes, hending, ts, hts, hbrace, fun _ _ => hsays a rfl⟩

theorem says_expectSymbol {c : Char} (hc : '\x7b' ≠ c ∧ '\x7d' ≠ c) : Says (expectSymbol c) fun _ tr => tr := by
  refine Says.bind_pure (says_expect (wanted_symbol hc.1) (wanted_symbol hc.2) fun tok a hl next tr => ?_)
  split at hl
  · next h =>
    unfold Track.step
    rw [h]
    split <;> simp_all
  · cases hl

theorem exists_line_of_peek {f : Option Token → Reading β} (hf : ∀ t ctx s, (f t ctx s).2 = s) (ctx : Context)
    (s : State) :
    ∃ line, ((peek >>= f) ctx s).2 = { s with line } := by
  obtain ⟨t, line, hpeek, -⟩ | ⟨g, line, hpeek, -⟩ := peek_cases ctx s
  · exact ⟨line, by rw [bind_of_ok hpeek, hf]⟩
  · exact ⟨line, by rw [bind_of_error hpeek]⟩

theorem snd_unexpected (t : Option Token) (ctx : Context) (s : State) : ((unexpected t : Reading α) ctx s).2 = s := by
  obtain ⟨f, hf⟩ := exists_unexpected (α := α) t ctx s
  rw [hf]

theorem says_readMark : Says readMark fun _ tr => tr := by
  intro ctx s
  obtain ⟨t, line, hpeek, hnext⟩ | ⟨g, line, hpeek, -⟩ := peek_cases ctx s
  · by_cases hmark : ∃ tok, t = some tok ∧ tok.lexeme = .symbol '\''
    · obtain ⟨tok, rfl, htok⟩ := hmark
      obtain ⟨ts, hrest⟩ := exists_rest_of_next? hnext
      have hstate : ∃ line, (readMark ctx s).2 = { s with line, rest := s.rest.drop 1 } := by
        rw [readMark, bind_of_ok hpeek]
        dsimp only
        rw [if_pos htok, bind_of_ok (a := ()) rfl]
        refine exists_line_of_peek (fun t ctx s => ?_) ctx _
        split
        · exact snd_unexpected _ ctx s
        · change ((if ctx.traditional = true then failAt .extensibleInTraditional "" "'" tok.line
            else pure true : Reading Bool)
            ctx s).2 = s
          split <;> rfl
      obtain ⟨line, hstate⟩ := hstate
      rw [hstate]
      refine ⟨rfl, rfl, [tok], by rw [hrest]; rfl, by simp [htok, Lexeme.isBrace], fun _ _ next tr => ?_⟩
      simp [Track.run, Track.step, htok]
    · have hstate : (readMark ctx s).2 = { s with line } := by
        rw [readMark, bind_of_ok hpeek]
        cases t with
        | none => rfl
        | some tok =>
          dsimp only
          rw [if_neg fun htok => hmark ⟨tok, rfl, htok⟩]
          rfl
      rw [hstate]
      exact ⟨rfl, rfl, [], rfl, by simp, fun _ _ _ _ => rfl⟩
  · rw [readMark, bind_of_error hpeek]
    exact ⟨rfl, rfl, [], rfl, by simp, fun _ _ _ _ => rfl⟩

/-! ### Braces -/

theorem expectSymbol_cases (c : Char) (ctx : Context) (s : State) :
    (∃ tok ts line, s.rest = tok :: ts ∧ tok.lexeme = .symbol c ∧
      expectSymbol c ctx s = (.ok tok, { s with line, rest := ts })) ∨
    ∃ f line, expectSymbol c ctx s = (.error f, { s with line }) := by
  unfold expectSymbol
  obtain ⟨tok, ts, a, line, hrest, hwanted, hrun⟩ | ⟨f, line, hrun⟩ :=
    expect_cases (fun l => if l = .symbol c then some () else none) ctx s
  · refine .inl ⟨tok, ts, line, hrest, ?_, bind_of_ok hrun⟩
    split at hwanted
    · assumption
    · cases hwanted
  · exact .inr ⟨f, line, bind_of_error hrun⟩

/-- **A brace fits** the token behind it, and reading goes on, or it does not, and reading fails there. -/
theorem fits_cases (fits : Option Token → Bool) (y : Reading β) (ctx : Context) (s : State) :
    (∃ line, (peek >>= fun t => if !fits t then (unexpected t : Reading PUnit) >>= fun _ => y else y) ctx s =
      y ctx { s with line } ∧ s.next?.any fits = true) ∨
    ∃ f line, (peek >>= fun t => if !fits t then (unexpected t : Reading PUnit) >>= fun _ => y else y) ctx s =
      (.error f, { s with line }) ∧ s.next?.any fits = false := by
  obtain ⟨t, line, hpeek, hnext⟩ | ⟨f, line, hpeek, hnext⟩ := peek_cases ctx s
  · rw [bind_of_ok hpeek, hnext]
    cases hfits : fits t with
    | true => exact .inl ⟨line, rfl, hfits⟩
    | false =>
      obtain ⟨f, hf⟩ := exists_unexpected (α := PUnit) t ctx { s with line }
      exact .inr ⟨f, line, bind_of_error hf, hfits⟩
  · exact .inr ⟨f, line, bind_of_error hpeek, by rw [hnext]; rfl⟩

/-- **Steps that open a scope** with the given title. -/
def Opens (title : Title) (y : Reading Unit) : Prop :=
  ∀ ctx s, s.frames ≠ [] → ∃ d t, y ctx s = (.ok (), t) ∧ t.frames = d :: s.frames ∧ d.title = title ∧
    t.rest = s.rest ∧ t.aside = s.aside

theorem exists_makeHeader (name : String) (named first : Token) (ctx : Context) (h : s.frames ≠ []) :
    ∃ header t, makeHeader name named first ctx s = (.ok header, t) ∧ header.name = name ∧
      t.frames = s.frames ∧ t.rest = s.rest ∧ t.aside = s.aside := by
  let t : State := { s with nextId := s.nextId + 1, comments := [], attached := false }
  have hlast : t.frames.getLast? = some (s.frames.getLast h) := getLast?_eq_some_getLast h
  have hfile : currentFile ctx t = (.ok (s.frames.getLast h), t) := by
    unfold currentFile
    rw [bind_of_ok (a := t) (u := t) rfl, hlast]
    rfl
  obtain ⟨i, hindent⟩ : ∃ i, indentOf first ctx t = (.ok i, t) := ⟨_, rfl⟩
  have hcomments : collectComments ctx { s with nextId := s.nextId + 1 } = (.ok s.comments, t) := rfl
  refine ⟨⟨⟨name, named.line, ctx.path⟩, s.nextId, name, ctx.outer ++ s.frames.reverse.map frameRef, s.comments, i,
    some (s.frames.getLast h).id, true⟩, t, ?_, rfl, rfl, rfl, rfl⟩
  rw [makeHeader, bind_of_ok (a := ctx) (u := s) rfl,
    bind_of_ok (a := s.nextId) (u := { s with nextId := s.nextId + 1 }) rfl,
    bind_of_ok (a := ctx.outer ++ s.frames.reverse.map frameRef) (u := { s with nextId := s.nextId + 1 }) rfl,
    bind_of_ok hcomments, bind_of_ok hindent, bind_of_ok hfile]
  rfl

/-- A brace that does not fit changes nothing. -/
theorem next?_line (s : State) (line : Nat) : State.next? { s with line } = s.next? := rfl

/-- **An opening brace**, and the scope it opens. -/
theorem goesIf_opens {k : Option ScopeKind} {name : String} {y : Reading Unit} (hy : Opens (k, name) y)
    (ctx : Context) (s : State) :
    GoesIf (fun tr => tr.kind = k ∧ tr.name = name) titles (do
      let _ ← expectSymbol '\x7b'
      peek >>= fun t => if !Lookahead.inBody t then (unexpected t : Reading PUnit) >>= fun _ => y else y)
      (∃ title, · = title :: titles) ctx s := by
  obtain ⟨tok, ts, line₀, hrest, htok, hrun⟩ | ⟨f, line, hrun⟩ := expectSymbol_cases '\x7b' ctx s
  · intro m below hstands
    rw [bind_of_ok hrun]
    obtain ⟨line, hrun', hfits⟩ | ⟨f, line, hrun', hfits⟩ :=
      fits_cases Lookahead.inBody y ctx { s with line := line₀, rest := ts }
    · obtain ⟨above, e, hframes, htitles, hmark⟩ := hstands
      have hne : s.frames ≠ [] := by simp [hframes]
      obtain ⟨d, t, hopen, hframes', htitle, hrest', haside'⟩ := hy ctx { s with line, rest := ts } hne
      rw [hrun', hopen]
      refine ⟨(k, name) :: titles, ⟨d :: above, e, ?_, ?_, hmark⟩,
        ⟨.of_eq haside', [tok], ?_, fun tr others htr hopened => ?_⟩,
        fun _ _ => ⟨_, rfl⟩⟩
      · rw [hframes']
        exact congrArg (d :: ·) hframes
      · rw [map_cons, htitle, htitles]
      · rw [hrest']
        exact hrest
      · have hending' : t.ending = _ := congrArg Prod.fst haside'
        have hnext : t.next? = State.next? { s with line := line₀, rest := ts } := by
          rw [State.next?, hrest', hending']
          rfl
        rw [Track.run, Track.run, Track.ahead, Track.step_open htok, hnext, if_pos hfits, htr.1, htr.2, hopened]
        rfl
    · rw [hrun']
      refine ⟨titles, hstands, ⟨.of_eq rfl, [tok], hrest, fun tr others _ hopened => ?_⟩, fun a ha => by cases ha⟩
      rw [Track.run, Track.run, Track.ahead, Track.step_open htok, next?_line,
        if_neg (by rw [hfits]; exact Bool.false_ne_true),
        hopened]
  · exact goesIf_of_error (bind_of_error hrun) (.of_eq rfl rfl rfl)

theorem GoesIf.announce {k : ScopeKind} {y : Reading β} (hrest : s.rest = tok :: ts)
    (hstep : ∀ tr next, Track.step tr tok next = { tr with kind := some k })
    (hy : ∀ t, GoesIf (fun tr => tr.kind = some k) titles y Q ctx t) :
    GoesIf (fun _ => True) titles (advance >>= fun _ => y) Q ctx s := by
  intro m below hstands
  have hadvance : advance ctx s = (.ok (), { s with rest := ts }) := by
    change (Except.ok (), { s with rest := s.rest.drop 1 }) = _
    rw [hrest]
    rfl
  rw [bind_of_ok hadvance]
  obtain ⟨now, hnow, ⟨haside, us, hus, hrun⟩, hok⟩ := hy { s with rest := ts } m below hstands
  refine ⟨now, hnow, ⟨haside.after rfl, tok :: us, hrest.trans (congrArg (tok :: ·) hus),
    fun tr others _ hopened => ?_⟩, hok⟩
  rw [Track.run, hstep]
  exact hrun _ others rfl hopened

theorem GoesIf.name {k : Option ScopeKind} {g : String × Token → Reading β}
    (hg : ∀ x t, GoesIf (fun tr => tr.kind = k ∧ tr.name = x.1) titles (g x) Q ctx t) :
    GoesIf (fun tr => tr.kind = k) titles (expectName >>= g) Q ctx s :=
  GoesIf.says says_expectName (fun _ _ h => ⟨h, rfl⟩) hg

theorem GoesIf.skip (hx : Says x fun _ tr => tr) (hf : ∀ a t, GoesIf P titles (f a) Q ctx t) :
    GoesIf P titles (x >>= f) Q ctx s :=
  GoesIf.says hx (fun _ _ h => h) hf

theorem goesIf_openEnum (htok : tok.lexeme = .keyword .enum) (hrest : s.rest = tok :: ts) :
    GoesIf (fun _ => True) titles (openEnum first) (∃ title, · = title :: titles) ctx s := by
  refine GoesIf.announce (k := .enum) hrest (fun tr next => by simp [Track.step, htok]) fun t => ?_
  refine GoesIf.name fun x t => GoesIf.skip (says_expectSymbol (by decide)) fun _ t =>
    GoesIf.skip says_expectUint fun u t => ?_
  refine goesIf_opens (fun ctx s hne => ?_) ctx t
  obtain ⟨h, t, hrun, hname, hframes, hrest, haside⟩ := exists_makeHeader x.1 x.2 first ctx hne
  exact ⟨.enum { h with frozen := false } ⟨u.1.1, u.2.line, ctx.path⟩ u.1.2 [],
    { t with frames := _ :: t.frames }, bind_of_ok hrun,
    congrArg (_ :: ·) hframes, congrArg (some ScopeKind.enum, ·) hname, hrest, haside⟩

theorem goesIf_openMessage (htok : tok.lexeme = .keyword .message) (hrest : s.rest = tok :: ts) :
    GoesIf (fun _ => True) titles (openMessage first) (∃ title, · = title :: titles) ctx s := by
  refine GoesIf.announce (k := .message) hrest (fun tr next => by simp [Track.step, htok]) fun t => ?_
  refine GoesIf.name fun x t => GoesIf.skip says_readMark fun ext t => ?_
  refine goesIf_opens (fun ctx s hne => ?_) ctx t
  obtain ⟨h, t, hrun, hname, hframes, hrest, haside⟩ := exists_makeHeader x.1 x.2 first ctx hne
  exact ⟨.message { h with frozen := false } ext [], { t with frames := _ :: t.frames }, bind_of_ok hrun,
    congrArg (_ :: ·) hframes,
    congrArg (some ScopeKind.message, ·) hname, hrest, haside⟩

/-- **A closing brace**, and the scope it closes. -/
theorem goes_closeBody {title : Title} (htok : tok.lexeme = .symbol '\x7d') :
    GoesAt tok (title :: titles) closeBody titles := by
  intro ctx s ts hrest m below hstands
  let y : Reading (Option Def) := do
    let d := (← closeScope).freeze
    ofExcept d.checkClosed
    define d
  have hrun : closeBody ctx s =
      (peek >>= fun t => if !Lookahead.afterStatement t then (unexpected t : Reading PUnit) >>= fun _ => y else y) ctx
        { s with rest := ts } := by
    rw [closeBody, bind_of_ok (a := ()) (u := { s with rest := s.rest.drop 1 }) rfl, hrest]
    rfl
  rw [hrun]
  obtain ⟨line, hrun', hfits⟩ | ⟨f, line, hrun', hfits⟩ := fits_cases Lookahead.afterStatement y ctx
    { s with rest := ts }
  · obtain ⟨above, e, hframes, htitles, hmark⟩ := hstands
    cases above with
    | nil => cases htitles
    | cons d above =>
      have hclose : closeScope ctx { s with line, rest := ts } =
          (.ok d, { s with line, rest := ts, frames := above ++ e :: below }) := closeScope_of_cons hframes
      have hquiet : Quiet (ofExcept d.freeze.checkClosed >>= fun _ => define d.freeze) :=
        (quiet_ofExcept _).bind fun _ => quiet_define
      rw [hrun'.trans (bind_of_ok hclose)]
      have hstands : Stands titles m below (above ++ e :: below) := ⟨above, e, rfl, (cons.inj htitles).2, hmark⟩
      obtain ⟨now, hnow, hpassed, hok⟩ := hquiet.goes ctx
        { s with line, rest := ts, frames := above ++ e :: below } m below hstands
      have hfirst : Passed (fun _ => True) (title :: titles) titles ctx s
          { s with line, rest := ts, frames := above ++ e :: below } := by
        refine ⟨.of_eq rfl, [tok], hrest, fun tr others _ hopened => ?_⟩
        have hnext : State.next? { s with line, rest := ts, frames := above ++ e :: below } =
          State.next? { s with rest := ts } :=
          rfl
        rw [Track.run, Track.run, Track.ahead, Track.step_close htok, hnext, if_pos hfits, hopened]
        rfl
      exact ⟨now, hnow, hfirst.trans hpassed, hok⟩
  · rw [hrun']
    refine ⟨title :: titles, hstands, ⟨.of_eq rfl, [tok], hrest, fun tr others _ hopened => ?_⟩, fun a ha => by cases ha⟩
    rw [Track.run, Track.run, Track.ahead, Track.step_close htok, next?_line,
      if_neg (by rw [hfits]; exact Bool.false_ne_true),
      hopened]

/-! ### Statements, bodies and files -/

/-- **Statements and bodies**, by induction on their bound: whatever is opened is closed. -/
theorem goes_readStatement_readBody (fuel : Nat) :
    (∀ body titles, Goes titles (readStatement fuel body) titles) ∧
      ∀ body title titles, Goes (title :: titles) (readBody fuel body) titles := by
  induction fuel with
  | zero => exact ⟨fun _ _ ctx s => goesIf_of_error rfl (.refl s), fun _ _ _ ctx s => goesIf_of_error rfl (.refl s)⟩
  | succ fuel ih =>
    obtain ⟨hstatement, hbody⟩ := ih
    refine ⟨fun body titles => ?_, fun body title titles => ?_⟩
    · rw [readStatement]
      refine goes_peek (goes_unexpected _) fun tok => ?_
      have hfield : GoesAt tok titles (readType >>= fun x => readField x.1 x.2) titles :=
        (quiet_readType.bind fun _ => quiet_readField).goes.at
      dsimp only
      split
      · next h => exact (quiet_readComment (by rw [h]; rfl)).calms.goes
      · next h => exact (quiet_readNewline (by rw [h]; rfl)).calms.goes
      · next k h =>
        have htok : tok.lexeme.isBrace = false := by rw [h]; rfl
        split
        · exact (quiet_readProto htok).calms.goes
        · exact (calms_readImport htok).goes
        · exact (quiet_readOption htok).calms.goes
        · exact (quiet_readAlias htok).calms.goes
        · exact (quiet_readTypedef htok).calms.goes
        · exact (quiet_readConst htok).calms.goes
        · intro ctx s ts hrest
          refine (goesIf_openEnum h hrest).bind fun _ now t hnow => ?_
          obtain ⟨title, rfl⟩ := hnow
          exact hbody .enum title titles ctx t
        · intro ctx s ts hrest
          refine (goesIf_openMessage h hrest).bind fun _ now t hnow => ?_
          obtain ⟨title, rfl⟩ := hnow
          exact hbody .message title titles ctx t
      · next h =>
        split
        · exact (goes_unexpected _).at
        · exact (quiet_readNamedItem (by rw [h]; rfl)).calms.goes
        · exact hfield
      -- the four built-in types, with which a field begins
      iterate 4
        · split
          · exact (goes_unexpected _).at
          · exact hfield
      · exact (goes_unexpected _).at
    · have hrest : Goes (title :: titles) (readStatement fuel body >>= fun d => checkPlace body d >>= fun _ =>
        readBody fuel body)
          titles :=
        (hstatement body _).bind fun _ => quiet_checkPlace.goes.bind fun _ => hbody body title titles
      rw [readBody]
      refine goes_peek ?_ fun tok => ?_
      · exact hrest
      · split
        · next h =>
          exact goes_closeBody (by simpa [isSymbol] using h)
        · exact hrest.at

theorem goes_readStatements (fuel : Nat) : Goes [] (readStatements fuel) [] := by
  induction fuel with
  | zero => exact fun ctx s => goesIf_of_error rfl (.refl s)
  | succ fuel ih =>
    rw [readStatements]
    refine goes_peek (quiet_pure _).goes fun tok => Goes.at ?_
    exact ((goes_readStatement_readBody fuel).1 .file []).bind fun _ => ih

theorem rest_of_readStatements {fuel : Nat} (h : readStatements fuel ctx s = (.ok (), t)) :
    t.rest = [] ∧ t.ending = none := by
  induction fuel generalizing s with
  | zero => cases h
  | succ fuel ih =>
    rw [readStatements] at h
    obtain ⟨tok?, u, hpeek, h⟩ := bind_eq_ok h
    obtain ⟨tok, ts, -, rfl, -⟩ | ⟨hrest, hending, rfl, hu⟩ := peek_eq_ok hpeek
    · obtain ⟨d, v, -, h⟩ := bind_eq_ok h
      exact ih h
    · have ht : (Except.ok (), u) = ((Except.ok (), t) : Except Fault Unit × State) := h
      rw [← (Prod.mk.inj ht).2, hu]
      exact ⟨hrest, hending⟩

theorem file_of_mark {d : Def} {h : Header} (hmark : d.mark = (Def.proto h []).mark) :
    d.scopeKind? = some .proto ∧ d.header.origin = h.origin ∧ d.header.scopes = h.scopes := by
  have horigin (d : Def) : d.mark.2.origin = d.header.origin ∧ d.mark.2.scopes = d.header.scopes := by
    unfold Def.mark
    dsimp only
    split <;> exact ⟨rfl, rfl⟩
  refine ⟨congrArg Prod.fst hmark, ?_, ?_⟩
  · rw [← (horigin d).1, hmark]
    rfl
  · rw [← (horigin d).2, hmark]
    rfl

/-- **Inside a file**, begun in the state `s`: above the scopes that were open before stands the file, and above the
file stand the scopes that are open by the tokens `ts` that have been passed. -/
def InFile (ctx : Context) (s t : State) (ts : List Token) : Prop :=
  ∃ above d, t.frames = above ++ d :: s.frames ∧ d.scopeKind? = some .proto ∧ d.header.origin.file = ctx.path ∧
    above.map Def.title = (Track.run t.next? ts {}).opened

/-- **Where reading a file stops** with a result `r`: inside it, or where no scope of it is open, before its first token
or behind its last one. -/
def Stops (ctx : Context) (s t : State) (ts : List Token) (r : Except Fault Def) : Prop :=
  (InFile ctx s t ts ∧ ∀ d, r ≠ .ok d) ∨ t.frames = s.frames ∧
    (ts = [] ∨ t.rest = [] ∧ s.ending = none) ∧ ∀ d, r = .ok d →
      d.header.scopes = ctx.outer ++ s.frames.reverse.map frameRef

theorem stops_readStatements {u : State} {h : Header} (hframes : u.frames = .proto h [] :: s.frames)
    (haside : u.aside = s.aside) (hfile : h.origin.file = ctx.path)
    (hscopes : h.scopes = ctx.outer ++ s.frames.reverse.map frameRef) (k : Nat) (fault : Fault) :
    ∃ r t ts, (readStatements k >>= fun _ => closeFile fault) ctx u = (r, t) ∧ u.rest = ts ++ t.rest ∧
      Stops ctx s t ts r ∧
      Aside ctx s t := by
  obtain ⟨now, ⟨above, d, habove, htitles, hmark⟩, ⟨haside', ts, hts, htrack⟩, hok⟩ :=
    goes_readStatements k ctx u (Def.proto h []).mark s.frames ⟨[], _, hframes, rfl, rfl⟩
  obtain ⟨hkind, horigin, hscopes'⟩ := file_of_mark hmark
  cases hrun : readStatements k ctx u with
  | mk r t =>
    rw [hrun] at habove hts htrack hok haside'
    have haside := haside'.after haside
    cases r with
    | error f =>
      refine ⟨_, t, ts, bind_of_error hrun, hts, .inl ⟨⟨above, d, habove, hkind, ?_, ?_⟩, fun _ => by simp⟩, haside⟩
      · rw [horigin, hfile]
      · rw [htitles, htrack {} [] trivial rfl, append_nil]
    | ok v =>
      obtain rfl : now = [] := hok v rfl
      obtain rfl := map_eq_nil_iff.1 htitles
      obtain ⟨hrest, hnone⟩ := rest_of_readStatements hrun
      have hclose : closeScope ctx t = (.ok d, { t with frames := s.frames }) := closeScope_of_cons habove
      have hend : ∃ r, closeFile fault ctx t = (r, { t with frames := s.frames }) ∧ ∀ e, r = .ok e → e = d.freeze := by
        rw [closeFile, bind_of_ok hclose]
        split
        · exact ⟨_, rfl, fun e he => by cases he⟩
        · exact ⟨_, rfl, fun e he => by cases he; rfl⟩
      obtain ⟨r, hend, hresult⟩ := hend
      refine ⟨r, _, ts, (bind_of_ok hrun).trans hend, hts, .inr ⟨rfl, .inr ⟨hrest, ?_⟩, fun e he => ?_⟩,
        ⟨haside.1, haside.2, haside.3⟩⟩
      · rw [← haside.ending, hnone]
      · rw [hresult e he, d.header_freeze]
        exact hscopes'.trans hscopes

theorem stops_readFile (ctx : Context) (s : State) :
    ∃ r t ts, readFile ctx s = (r, t) ∧ s.rest = ts ++ t.rest ∧ Stops ctx s t ts r ∧ Aside ctx s t := by
  let y : Reading Def := do
    let file := (← read).path
    let id ← freshId
    openScope (.proto { origin := { file }, id, scopes := ← scopes, frozen := false } [])
    readStatements (2 * (← get).rest.length + 2)
    closeFile (.report { problem := .schemaNameMissing, file })
  have hfile : readFile ctx s = (peek >>= fun t =>
      if !(t.isNone || Lookahead.opensStatement t) then (unexpected t : Reading PUnit) >>= fun _ => y else y)
        ctx s := rfl
  rw [hfile]
  obtain ⟨line, hrun, -⟩ | ⟨f, line, hrun, -⟩ := fits_cases (fun t => t.isNone || Lookahead.opensStatement t) y ctx s
  · rw [hrun]
    let u : State := { s with
      line, nextId := s.nextId + 1
      frames := .proto { origin := { file := ctx.path }, id := s.nextId, frozen := false
                         scopes := ctx.outer ++ s.frames.reverse.map frameRef } [] :: s.frames }
    have hu : u.frames = _ :: s.frames := rfl
    exact stops_readStatements hu rfl rfl rfl (2 * s.rest.length + 2) _
  · exact ⟨_, _, [], hrun, rfl, .inr ⟨rfl, .inl rfl, fun d hd => by cases hd⟩, .of_eq rfl⟩

/-- **The state in which a token is asked for**: what is left behind if the tokens fail in its place. -/
def asking (ctx : Context) (s : State) (k : Nat) : State :=
  (readFile ctx { s with rest := s.rest.take k, ending := some ⟨.internal "no token", s.line⟩ }).2

/-- At every moment at which a further token is asked for, reading is inside the file. -/
theorem inFile_asking {k : Nat} (hk : 0 < k) (hlength : k ≤ s.rest.length) (hrest : (asking ctx s k).rest = []) :
    InFile ctx s (asking ctx s k) (s.rest.take k) := by
  obtain ⟨r, t, ts, hrun, hts, hstops, -⟩ :=
    stops_readFile ctx { s with rest := s.rest.take k, ending := some ⟨.internal "no token", s.line⟩ }
  have ht : asking ctx s k = t := congrArg Prod.snd hrun
  rw [ht] at hrest ⊢
  rw [hrest, append_nil] at hts
  change s.rest.take k = ts at hts
  rw [hts]
  obtain ⟨hin, -⟩ | ⟨-, hends, -⟩ := hstops
  · exact hin
  · rcases hends with rfl | ⟨-, hends⟩
    · have hlen := congrArg List.length hts
      rw [length_take, length_nil] at hlen
      omega
    · cases hends

/-- **Where a text is left** that cannot be read in the state `s`: inside its file, or where no scope of it is open, and
above these scopes are those that an imported file has left open. -/
def LeftAt (ctx : Context) (text : String) (s t : State) : Prop :=
  ∃ ts left own, (s.begun ctx.path text).rest = ts ++ t.rest ∧ t.frames = left ++ own ∧
    (left = [] ∨ ∃ path outer u, left = (ctx.readImport path outer u).2.frames) ∧
    (InFile ctx s { t with frames := own } ts ∨ own = s.frames ∧ (ts = [] ∨ t.rest = []))

theorem leftAt_of_error {text : String} {f : Fault} (h : readText text ctx s = (.error f, t)) : LeftAt ctx text s t := by
  obtain ⟨r, u, ts, hrun, hts, hstops, haside⟩ := stops_readFile ctx (s.begun ctx.path text)
  cases r with
  | ok d =>
    rw [readText_of_ok hrun] at h
    cases h
  | error e =>
    rw [readText_of_error hrun] at h
    cases h
    refine ⟨ts, u.left, u.frames, hts, rfl, haside.left, ?_⟩
    obtain ⟨hin, -⟩ | ⟨hframes, hends, -⟩ := hstops
    · exact .inl hin
    · exact .inr ⟨hframes, hends.imp_right And.left⟩

/-- A text that has been read leaves the open scopes as they were, and they are the scopes around its file. -/
theorem stops_of_ok {text : String} {d : Def} (h : readText text ctx s = (.ok d, t)) :
    t.frames = s.frames ∧ d.header.scopes = ctx.outer ++ s.frames.reverse.map frameRef := by
  obtain ⟨r, u', ts, hrun, -, hstops, -⟩ := stops_readFile ctx (s.begun ctx.path text)
  obtain ⟨u, hok, rfl⟩ := readText_eq_ok h
  cases hrun.symm.trans hok
  obtain ⟨-, hfails⟩ | ⟨hframes, -, hscopes⟩ := hstops
  · exact absurd rfl (hfails d)
  · exact ⟨hframes, hscopes d rfl⟩

/-! ### The stacks of paths -/

/-- **The path of a text** is on the stacks while it is read. -/
theorem paths_asking (hctx : ctx.Restores) (k : Nat) : (asking ctx s k).paths = s.paths := by
  obtain ⟨r, t, ts, hrun, -, -, haside⟩ :=
    stops_readFile ctx { s with rest := s.rest.take k, ending := some ⟨.internal "no token", s.line⟩ }
  rw [asking, hrun]
  exact haside.paths hctx

/-- **However reading a text ends**, the stacks of paths are as they were. -/
theorem paths_readText (hctx : ctx.Restores) (text : String) (s : State) : (readText text ctx s).2.paths = s.paths := by
  obtain ⟨r, t, ts, hrun, -, -, haside⟩ := stops_readFile ctx (s.begun ctx.path text)
  have hpaths : t.ended.paths = s.paths := by
    rw [State.ended, haside.paths hctx]
    exact s.paths.pop_push ctx.path
  cases r with
  | ok d => rwa [readText_of_ok hrun]
  | error f => rwa [readText_of_error hrun]

/-- Files that are imported leave them as they were, at any depth. -/
theorem paths_readPath (files : Files) (mode : Bool) (depth : Nat) (paths : List String) (path : String)
    (outer : List ScopeRef) (s : State) : (Reader.readPath files mode depth paths path outer s).2.paths = s.paths := by
  induction depth generalizing paths path outer s with
  | zero => rfl
  | succ depth ih =>
    cases hread : files.read path with
    | error f =>
      obtain ⟨e, he⟩ := Reader.readPath_of_error hread
      rw [he]
    | ok text =>
      rw [Reader.readPath_of_read hread]
      exact paths_readText (fun path outer s => ih _ path outer s) text s

/-- **The stack of scopes and the stacks of paths.**  When a text has been read, the scopes that were open before are
open again, and so they are when reading it fails before the file is begun or when it is complete.  Wherever else it
fails, and at every moment at which a further token is asked for, above them stand the file and then the enums and
messages whose opening brace has been read and whose closing brace has not, in the order in which they were opened;
above these are the scopes that an import has left open if it is the import that fails.  While a text is read, its
path is on both stacks of paths, and however reading ends, they are as they were before. -/
theorem readText_stack (ctx : Context) (text : String) (s : State) :
    (∀ d t, readText text ctx s = (.ok d, t) → t.frames = s.frames) ∧
    (∀ f t, readText text ctx s = (.error f, t) → LeftAt ctx text s t) ∧
    (∀ k, 0 < k → k ≤ (s.begun ctx.path text).rest.length → (asking ctx (s.begun ctx.path text) k).rest = [] →
      InFile ctx s (asking ctx (s.begun ctx.path text) k) ((s.begun ctx.path text).rest.take k)) ∧
    (ctx.Restores → (∀ r t, readText text ctx s = (r, t) → t.paths = s.paths) ∧
      ∀ k, (asking ctx (s.begun ctx.path text) k).paths = s.paths.push ctx.path) ∧
    ∀ files mode depth paths path outer, (Reader.contextAt files mode depth paths path outer).Restores := by
  refine ⟨fun _ _ h => (stops_of_ok h).1, fun _ _ h => leftAt_of_error h, fun _ hk hlength hrest =>
    inFile_asking hk hlength hrest,
    fun hctx => ⟨fun r t h => ?_, paths_asking hctx⟩, fun files mode depth paths path outer => ?_⟩
  · rw [← paths_readText hctx text s, h]
  · exact fun _ _ _ => paths_readPath files mode depth _ _ _ _

/-- An enum inside a message, at the end of the line with its opening brace. -/
theorem readText_stack_nested :
    let ctx := Reader.contextAt Sample.noFiles false 0 [] "" []
    let text := "proto a\nmessage M \x7b\n  enum E : uint3 \x7b\n"
    let start := State.begun "" text {}
    let now := asking ctx start 13
    now.rest = [] ∧ InFile ctx {} now (start.rest.take 13) ∧ now.paths = ⟨[""], some [""]⟩ ∧
      now.frames.map Def.title = [(some .enum, "E"), (some .message, "M"), (some .proto, "")] := by
  have hrest : (asking (Reader.contextAt Sample.noFiles false 0 [] "" [])
      (State.begun "" "proto a\nmessage M \x7b\n  enum E : uint3 \x7b\n" {}) 13).rest = [] := by
    decide +kernel
  obtain ⟨-, -, hmoments, hpaths, hrestores⟩ := readText_stack (Reader.contextAt Sample.noFiles false 0 [] "" [])
    "proto a\nmessage M \x7b\n  enum E : uint3 \x7b\n" {}
  exact ⟨hrest, hmoments 13 (by decide) (by decide +kernel) hrest, (hpaths (hrestores _ _ _ _ _ _)).2 13,
    by decide +kernel⟩

end Reading

end BitSchema
