import BitSchema.Proofs.FollowingFiles

/-!
# Quiet steps

Most steps of reading go past tokens that are no braces, change at most the members of the innermost scope, and do not
ask for another file.  However such a step ends, the same scopes are open behind it (`Reading.Calm`), and it does not
matter how imported files are read (`Reading.Indifferent`).

The steps follow the grammar, as in `BitSchema.Proofs.Reading`.  An import is calm as well, but it asks for a file
(`Reading.calms_readImport`).
-/

namespace BitSchema

/-- What stays the same of a scope while it is open: all but its members, and the name and the comments of a file. -/
def Def.mark (d : Def) : Option ScopeKind × Header :=
  (d.scopeKind?, if d.scopeKind? = some .proto then { d.header with name := "", comments := [] } else d.header)

abbrev Import := String → List ScopeRef → State → Except Fault Def × State

/-- The look-ahead in a state; nothing where the tokens fail. -/
def State.next? (s : State) : Option (Option Token) :=
  match s.rest with
  | [] => if s.ending.isNone then some none else none
  | t :: _ => some (some t)

/-- What most steps leave alone. -/
def State.aside (s : State) : Option Token.Failure × List Def × PathStacks := (s.ending, s.left, s.paths)

/-- Reading imported files leaves the stacks of paths as they were. -/
def Context.Restores (ctx : Context) : Prop := ∀ path outer s, (ctx.readImport path outer s).2.paths = s.paths

/-- The context with another way of reading imported files. -/
def Context.importing (ctx : Context) (answer : Import) : Context := { ctx with readImport := answer }

namespace Reading

variable {α β : Type}

/-! ### Steps that open and close nothing and ask for no file -/

/-- The scopes below the innermost one are the same, and so is the mark of each. -/
def SameScopes (frames frames' : List Def) : Prop :=
  frames'.tail = frames.tail ∧ frames'.map Def.mark = frames.map Def.mark

variable {ctx : Context} {s t u : State}

/-- **What becomes of what is left alone**: scopes may be left open by an imported file. -/
structure Aside (ctx : Context) (s t : State) : Prop where
  ending : t.ending = s.ending
  left : t.left = s.left ∨ ∃ path outer u, t.left = (ctx.readImport path outer u).2.frames
  paths : ctx.Restores → t.paths = s.paths

theorem Aside.of_eq (h : t.aside = s.aside) : Aside ctx s t := by
  simp only [State.aside, Prod.mk.injEq] at h
  exact ⟨h.1, .inl h.2.1, fun _ => h.2.2⟩

theorem Aside.trans (h : Aside ctx s t) (h' : Aside ctx t u) : Aside ctx s u := by
  refine ⟨h'.ending.trans h.ending, h'.left.elim (fun heq => ?_) .inr, fun hctx => (h'.paths hctx).trans (h.paths hctx)⟩
  rw [heq]
  exact h.left

theorem Aside.after (h' : Aside ctx t u) (h : t.aside = s.aside) : Aside ctx s u := (Aside.of_eq h).trans h'

/-- **Calm**: tokens other than braces have been passed, and the same scopes are open. -/
structure Calm (ctx : Context) (s t : State) : Prop where
  frames : SameScopes s.frames t.frames
  aside : Aside ctx s t
  tokens : ∃ ts, s.rest = ts ++ t.rest ∧ ∀ tok ∈ ts, tok.lexeme.isBrace = false

theorem Calm.of_eq (hframes : t.frames = s.frames) (haside : t.aside = s.aside) (hrest : t.rest = s.rest) :
    Calm ctx s t :=
  ⟨by rw [hframes]; exact ⟨rfl, rfl⟩, .of_eq haside, [], hrest.symm, by simp⟩

theorem Calm.refl (s : State) : Calm ctx s s := .of_eq rfl rfl rfl

theorem Calm.trans (h : Calm ctx s t) (h' : Calm ctx t u) : Calm ctx s u := by
  obtain ⟨⟨htail, hmarks⟩, haside, ts, hts, hbrace⟩ := h
  obtain ⟨⟨htail', hmarks'⟩, haside', us, hus, hbrace'⟩ := h'
  refine ⟨⟨htail'.trans htail, hmarks'.trans hmarks⟩, haside.trans haside', ts ++ us, ?_, ?_⟩
  · rw [hts, hus, List.append_assoc]
  · exact List.forall_mem_append.2 ⟨hbrace, hbrace'⟩

/-- Steps that leave a calm state behind, however they end. -/
def Calms (x : Reading α) : Prop := ∀ ctx s, Calm ctx s (x ctx s).2

def CalmsAt (tok : Token) (x : Reading α) : Prop := ∀ ctx s ts, s.rest = tok :: ts → Calm ctx s (x ctx s).2

/-- **A step that is indifferent** to another way of reading imported files. -/
def Indifferent {α : Type} (ctx : Context) (answer : Import) (x : Reading α) : Prop :=
  ∀ s, x (ctx.importing answer) s = x ctx s

/-- **Quiet steps** open and close nothing and ask for no file. -/
structure Quiet (x : Reading α) : Prop where
  calms : Calms x
  indifferent : ∀ {ctx answer}, Indifferent ctx answer x

structure QuietAt (tok : Token) (x : Reading α) : Prop where
  calms : CalmsAt tok x
  indifferent : ∀ {ctx answer}, Indifferent ctx answer x

variable {tok : Token} {x : Reading α} {f : α → Reading β}

variable {answer : Import} {g : Context → Reading β} {name : String} {first : Token} {d : Def}

theorem Quiet.at (h : Quiet x) : QuietAt tok x := ⟨fun ctx s _ _ => h.calms ctx s, h.indifferent⟩

theorem Calms.bind (h : Calms x) (hf : ∀ a, Calms (f a)) : Calms (x >>= f) := by
  intro ctx s
  have hx := h ctx s
  cases hrun : x ctx s with
  | mk r t =>
    rw [hrun] at hx
    cases r with
    | error e => rwa [bind_of_error hrun]
    | ok a =>
      rw [bind_of_ok hrun]
      exact hx.trans (hf a ctx t)

theorem Indifferent.bind (hx : Indifferent ctx answer x) (hf : ∀ a, Indifferent ctx answer (f a)) :
    Indifferent ctx answer (x >>= f) := by
  intro s
  cases hrun : x ctx s with
  | mk r t =>
    have hrun' : x (ctx.importing answer) s = (r, t) := (hx s).trans hrun
    cases r with
    | error e => rw [bind_of_error hrun, bind_of_error hrun']
    | ok a =>
      rw [bind_of_ok hrun, bind_of_ok hrun']
      exact hf a t

theorem Quiet.bind (h : Quiet x) (hf : ∀ a, Quiet (f a)) : Quiet (x >>= f) :=
  ⟨h.calms.bind fun a => (hf a).calms, h.indifferent.bind fun a => (hf a).indifferent⟩

theorem quiet_pure (a : α) : Quiet (pure a) := ⟨fun _ s => .refl s, fun _ => rfl⟩

theorem quiet_throw (f : Fault) : Quiet (throw f : Reading α) := ⟨fun _ s => .refl s, fun _ => rfl⟩

theorem quiet_get : Quiet (get : Reading State) := ⟨fun _ s => .refl s, fun _ => rfl⟩

theorem indifferent_read (hg : g (ctx.importing answer) = g ctx) (h : Indifferent ctx answer (g ctx)) :
    Indifferent ctx answer (read >>= g) := by
  intro s
  change g (ctx.importing answer) (ctx.importing answer) s = g ctx ctx s
  rw [hg]
  exact h s

theorem quiet_read (hg : ∀ ctx answer, g (ctx.importing answer) = g ctx) (h : ∀ ctx, Quiet (g ctx)) :
    Quiet (read >>= g) :=
  ⟨fun ctx s => (h ctx).calms ctx s, indifferent_read (hg _ _) (h _).indifferent⟩

theorem quiet_ofExcept (x : Except Fault α) : Quiet (ofExcept x) := by
  cases x with
  | error f => exact quiet_throw f
  | ok a => exact quiet_pure a

theorem quietAt_read (hg : ∀ ctx answer, g (ctx.importing answer) = g ctx) (h : ∀ ctx, QuietAt tok (g ctx)) :
    QuietAt tok (read >>= g) :=
  ⟨fun ctx s ts hrest => (h ctx).calms ctx s ts hrest, indifferent_read (hg _ _) (h _).indifferent⟩

theorem peek_of_failure {s : State} {f : Token.Failure} (h : s.rest = []) (hending : s.ending = some f) :
    peek ctx s = (.error f.fault, { s with line := f.line }) := by
  obtain ⟨⟩ := s
  subst h hending
  rfl

theorem indifferent_peek : Indifferent ctx answer peek := by
  intro s
  by_cases hrest : s.rest = []
  · obtain hending | ⟨f, hending⟩ := Option.eq_none_or_eq_some s.ending
    · rw [peek_of_nil hrest hending, peek_of_nil hrest hending]
    · rw [peek_of_failure hrest hending, peek_of_failure hrest hending]
  · obtain ⟨tok, ts, hrest⟩ := List.exists_cons_of_ne_nil hrest
    rw [peek_of_cons hrest, peek_of_cons hrest]

theorem peek_cases (ctx : Context) (s : State) :
    (∃ t line, peek ctx s = (.ok t, { s with line }) ∧ s.next? = some t) ∨
    ∃ f line, peek ctx s = (.error f, { s with line }) ∧ s.next? = none := by
  by_cases hrest : s.rest = []
  · obtain hending | ⟨f, hending⟩ := Option.eq_none_or_eq_some s.ending
    · exact .inl ⟨none, s.line, peek_of_nil hrest hending, by simp [State.next?, hrest, hending]⟩
    · exact .inr ⟨f.fault, f.line, peek_of_failure hrest hending, by simp [State.next?, hrest, hending]⟩
  · obtain ⟨tok, ts, hrest⟩ := List.exists_cons_of_ne_nil hrest
    exact .inl ⟨some tok, lineAfter tok, peek_of_cons hrest, by simp [State.next?, hrest]⟩

theorem exists_rest_of_next? {s : State} (h : s.next? = some (some tok)) : ∃ ts, s.rest = tok :: ts := by
  unfold State.next? at h
  split at h
  · split at h <;> cases h
  · next t ts hrest =>
    cases h
    exact ⟨ts, hrest⟩

/-- Looking ahead, and going on with what was seen. -/
theorem quiet_peek {g : Option Token → Reading β} (hnone : Quiet (g none)) (hsome : ∀ tok, QuietAt tok (g (some tok))) :
    Quiet (peek >>= g) := by
  refine ⟨fun ctx s => ?_, indifferent_peek.bind fun t => ?_⟩
  · obtain ⟨t, line, hpeek, hnext⟩ | ⟨f, line, hpeek, -⟩ := peek_cases ctx s
    · rw [bind_of_ok hpeek]
      have hcalm : Calm ctx s { s with line } := .of_eq rfl rfl rfl
      cases t with
      | none => exact hcalm.trans (hnone.calms ctx _)
      | some tok =>
        obtain ⟨ts, hrest⟩ := exists_rest_of_next? hnext
        exact hcalm.trans ((hsome tok).calms ctx _ ts hrest)
    · rw [bind_of_error hpeek]
      exact .of_eq rfl rfl rfl
  · cases t with
    | none => exact hnone.indifferent
    | some tok => exact (hsome tok).indifferent

theorem calms_advance {y : Reading β} (htok : tok.lexeme.isBrace = false) (h : Calms y) :
    CalmsAt tok (advance >>= fun _ => y) := by
  intro ctx s ts hrest
  have hcalm : Calm ctx s { s with rest := s.rest.drop 1 } := by
    refine ⟨⟨rfl, rfl⟩, .of_eq rfl, [tok], ?_, by simpa using htok⟩
    rw [hrest]
    rfl
  exact hcalm.trans (h ctx _)

theorem indifferent_advance : Indifferent ctx answer advance := fun _ => rfl

theorem quiet_advance {y : Reading β} (htok : tok.lexeme.isBrace = false) (h : Quiet y) :
    QuietAt tok (advance >>= fun _ => y) :=
  ⟨calms_advance htok h.calms, indifferent_advance.bind fun _ => h.indifferent⟩

theorem exists_unexpected (t : Option Token) (ctx : Context) (s : State) :
    ∃ f, (unexpected t : Reading α) ctx s = (.error f, s) := by
  cases t with
  | none => exact ⟨_, rfl⟩
  | some t =>
    unfold unexpected
    rw [bind_of_ok (a := ctx) (u := s) rfl]
    dsimp only
    cases t.lexeme.shown with
    | error f => exact ⟨f, rfl⟩
    | ok token => exact ⟨_, rfl⟩

theorem quiet_unexpected (t : Option Token) : Quiet (unexpected t : Reading α) := by
  refine ⟨fun ctx s => ?_, indifferent_read rfl ?_⟩
  · obtain ⟨f, hf⟩ := exists_unexpected (α := α) t ctx s
    rw [hf]
    exact .refl s
  · cases t with
    | none => exact (quiet_throw _).indifferent
    | some t => exact ((quiet_ofExcept _).bind fun _ => quiet_throw _).indifferent

theorem quiet_failAt {problem : Problem} {note token : String} {line : Nat} :
    Quiet (failAt problem note token line : Reading α) :=
  quiet_read (fun _ _ => rfl) fun _ => quiet_throw _

theorem quiet_failAt_bind {problem : Problem} {note token : String} {line : Nat} {f : α → Reading β} :
    Quiet (failAt problem note token line >>= f) := ⟨fun _ s => .refl s, fun _ => rfl⟩

/-- A token of the wanted form is passed, or reading fails where it is. -/
theorem expect_cases (wanted : Lexeme → Option α) (ctx : Context) (s : State) :
    (∃ tok ts a line, s.rest = tok :: ts ∧ wanted tok.lexeme = some a ∧
      expect wanted ctx s = (.ok (a, tok), { s with line, rest := ts })) ∨
    ∃ f line, expect wanted ctx s = (.error f, { s with line }) := by
  unfold expect
  obtain ⟨t, line, hpeek, hnext⟩ | ⟨f, line, hpeek, -⟩ := peek_cases ctx s
  · rw [bind_of_ok hpeek]
    obtain ⟨f, hf⟩ := exists_unexpected (α := α × Token) t ctx { s with line }
    cases t with
    | none => exact .inr ⟨f, line, hf⟩
    | some tok =>
      obtain ⟨ts, hrest⟩ := exists_rest_of_next? hnext
      dsimp only
      cases hwanted : wanted tok.lexeme with
      | none => exact .inr ⟨f, line, hf⟩
      | some a =>
        refine .inl ⟨tok, ts, a, line, hrest, hwanted, ?_⟩
        change (Except.ok (a, tok), { s with line, rest := s.rest.drop 1 }) = _
        rw [hrest]
        rfl
  · exact .inr ⟨f, line, bind_of_error hpeek⟩

/-! ### Comments, scopes and serial numbers -/

theorem quiet_pushComment (c : Comment) : Quiet (pushComment c) := ⟨fun _ _ => .of_eq rfl rfl rfl, fun _ => rfl⟩

theorem quiet_clearComments : Quiet clearComments := ⟨fun _ _ => .of_eq rfl rfl rfl, fun _ => rfl⟩

theorem quiet_collectComments : Quiet collectComments := ⟨fun _ _ => .of_eq rfl rfl rfl, fun _ => rfl⟩

theorem quiet_newlinePos (pos : Nat) : Quiet (modify fun s => { s with newlinePos := pos } : Reading Unit) :=
  ⟨fun _ _ => .of_eq rfl rfl rfl, fun _ => rfl⟩

theorem quiet_note (text : String) : Quiet (note text) := ⟨fun _ _ => .of_eq rfl rfl rfl, fun _ => rfl⟩

theorem quiet_lookup (names : List String) : Quiet (lookup names) := ⟨fun _ _ => .refl _, fun _ => rfl⟩

theorem quiet_currentScope : Quiet currentScope := by
  refine quiet_get.bind fun s => ?_
  split
  · exact quiet_pure _
  · exact quiet_throw _

theorem quiet_currentFile : Quiet currentFile := by
  refine quiet_get.bind fun s => ?_
  split
  · exact quiet_pure _
  · exact quiet_throw _

theorem quiet_freshId : Quiet freshId := ⟨fun _ _ => .of_eq rfl rfl rfl, fun _ => rfl⟩

theorem quiet_scopes : Quiet scopes := ⟨fun _ _ => .refl _, fun _ => rfl⟩

theorem quiet_indentOf (first : Token) : Quiet (indentOf first) := ⟨fun _ _ => .refl _, fun _ => rfl⟩

theorem quiet_makeHeader {named : Token} : Quiet (makeHeader name named first) :=
  quiet_read (fun _ _ => rfl) fun _ => quiet_freshId.bind fun _ => quiet_scopes.bind fun _ =>
    quiet_collectComments.bind fun _ =>
    (quiet_indentOf first).bind fun _ => quiet_currentFile.bind fun _ => quiet_pure _

theorem mark_of_push {member d' : Def} (h : d.push member name = .ok d') : d'.mark = d.mark := by
  simp only [Def.mark, scopeKind?_of_push h, header_of_push h]

theorem currentScope_of_nil {s : State} (h : s.frames = []) :
    currentScope ctx s = (.error (.broken (.ofInternal "Empty scope_stack")), s) := by
  obtain ⟨⟩ := s
  subst h
  rfl

/-- A new member changes the innermost scope. -/
theorem quiet_pushMember {member : Def} : Quiet (pushMember member name) := by
  refine ⟨fun ctx s => ?_, quiet_currentScope.indifferent.bind fun d => (quiet_ofExcept _).indifferent.bind
    fun _ _ => rfl⟩
  cases hframes : s.frames with
  | nil =>
    rw [pushMember, bind_of_error (currentScope_of_nil hframes)]
    exact .refl s
  | cons d below =>
    cases hpush : d.push member name with
    | error f =>
      have hrun : pushMember member name ctx s = (.error f, s) := by
        rw [pushMember, bind_of_ok (currentScope_of_cons hframes), hpush]
        rfl
      rw [hrun]
      exact .refl s
    | ok d' =>
      rw [pushMember_of_push hframes hpush]
      refine ⟨⟨?_, ?_⟩, .of_eq rfl, [], rfl, by simp⟩
      · rw [hframes]
        rfl
      · rw [hframes, List.map_cons, List.map_cons, mark_of_push hpush]

theorem quiet_define : Quiet (define d) := quiet_pushMember.bind fun _ => quiet_pure _

/-! ### Plain steps and types -/

theorem quiet_lookupConstant {names : List String} : Quiet (lookupConstant names first) := by
  refine (quiet_lookup _).bind fun d => ?_
  split
  · exact quiet_failAt
  · split
    · exact quiet_pure _
    · exact quiet_failAt

/-- **Plain steps are quiet.** -/
theorem Plain.quietAt {Occurs : Token → Prop} {x' : Reading α} {t : Option Token} (h : Plain Occurs t x x')
    (hall : ∀ tok, Occurs tok) : t.elim (Quiet x) (QuietAt · x) := by
  induction h with
  | pure a => exact quiet_pure a
  | bind _ _ ihx ihf => exact ihx.bind ihf
  | peek _ ih =>
    exact quiet_peek (ih none fun _ _ => hall _) fun tok => ih (some tok) fun _ _ => hall _
  | @ahead _ t _ _ _ ih =>
    cases t with
    | none => exact ih
    | some tok => exact Quiet.at ih
  | advance htok _ ih => exact quiet_advance htok ih
  | unexpected _ => exact quiet_unexpected _
  | failAt _ => exact quiet_failAt
  | apply _ _ => exact quiet_ofExcept _
  | rest _ ih => exact quiet_get.bind fun s => ih s.rest.length
  | constant _ ih => exact quiet_lookupConstant.bind fun d => ih d d ⟨rfl, rfl⟩

theorem Plain.quiet {x' : Reading α} (h : Plain (fun _ => True) none x x') : Quiet x := h.quietAt fun _ => trivial

theorem quiet_check {c : Option Token → Bool} {x : Option Token → Reading α} (hx : ∀ t, Quiet (x t)) :
    Quiet (do let t ← peek; if c t then x t else unexpected t) := by
  refine quiet_peek ?_ fun tok => Quiet.at ?_
  all_goals
    split
    · exact hx _
    · exact quiet_unexpected _

theorem quiet_lookupType {names : List String} : Quiet (lookupType names first) := by
  refine (quiet_lookup _).bind fun d => ?_
  split
  · exact quiet_failAt
  · split
    · exact quiet_pure _
    · exact quiet_failAt

theorem quiet_readTypeReference : Quiet (readTypeReference name first) :=
  plain_readDotted.quiet.bind fun _ => quiet_check fun _ => quiet_lookupType

theorem isBrace_of_baseType {file : String} {tok : Token} {t : Ty} (h : baseType? file tok = some t) :
    tok.lexeme.isBrace = false := by
  unfold baseType? at h
  split at h <;> simp_all [Lexeme.isBrace]

theorem quiet_readSingleType : Quiet readSingleType := by
  unfold readSingleType
  refine quiet_peek (quiet_unexpected _) fun tok => quietAt_read (fun _ _ => rfl) fun ctx => ?_
  split
  · next h => exact quiet_advance (isBrace_of_baseType h) (quiet_pure _)
  · split
    · next h => exact quiet_advance (by rw [h]; rfl) (quiet_readTypeReference.bind fun _ => quiet_pure _)
    · exact (quiet_unexpected _).at

theorem quiet_readMark : Quiet readMark := by
  unfold readMark
  refine quiet_peek (quiet_pure _) fun tok => ?_
  dsimp only
  split
  · next h =>
    refine quiet_advance (by rw [h]; rfl) (quiet_peek ?_ fun t => Quiet.at ?_)
    all_goals
      split
      · exact quiet_unexpected _
      · refine quiet_read (fun _ _ => rfl) fun _ => ?_
        split
        · exact quiet_failAt
        · exact quiet_pure _
  · exact (quiet_pure _).at

theorem quiet_readArray {element : Ty} : Quiet (readArray element) := by
  unfold readArray
  refine quiet_peek (quiet_pure _) fun tok => ?_
  dsimp only
  split
  · next h =>
    exact quiet_advance (by rw [h]; rfl) (plain_readCapacity.quiet.bind fun _ =>
      (plain_expectSymbol (by decide)).quiet.bind fun _ =>
      quiet_readMark.bind fun _ => quiet_check fun _ => (quiet_ofExcept _).bind fun _ =>
        quiet_read (fun _ _ => rfl) fun _ =>
        quiet_ofExcept _)
  · exact (quiet_pure _).at

theorem quiet_readType : Quiet readType :=
  quiet_readSingleType.bind fun _ => quiet_readArray.bind fun _ => quiet_pure _

/-! ### Simple statements -/

theorem quiet_unless {c : Option Token → Bool} {x : Reading α} (hx : Quiet x) :
    Quiet (peek >>= fun t => if !c t then (unexpected t : Reading PUnit) >>= fun _ => x else x) := by
  refine quiet_peek ?_ fun tok => Quiet.at ?_
  all_goals
    split
    · exact (quiet_unexpected _).bind fun _ => hx
    · exact hx

variable {first : Token}

theorem quiet_readComment {source : String} (htok : tok.lexeme.isBrace = false) :
    QuietAt tok (readComment source first) :=
  quiet_advance htok ((plain_expect rfl rfl).quiet.bind fun _ => quiet_unless (quiet_read (fun _ _ => rfl) fun _ =>
    (quiet_pushComment _).bind fun _ => (quiet_newlinePos _).bind fun _ => quiet_pure _))

theorem quiet_readNewline (htok : tok.lexeme.isBrace = false) : QuietAt tok (readNewline first) :=
  quiet_advance htok (quiet_unless (quiet_clearComments.bind fun _ => (quiet_newlinePos _).bind fun _ => quiet_pure _))

theorem quiet_readProto (htok : tok.lexeme.isBrace = false) : QuietAt tok (readProto first) := by
  refine quiet_advance htok (plain_expectName.quiet.bind fun x => plain_endStatement.quiet.bind fun _ =>
    ⟨fun ctx s => ?_, ?_⟩)
  swap
  · refine quiet_currentScope.indifferent.bind fun d => ?_
    split
    · exact quiet_collectComments.indifferent.bind fun _ _ => rfl
    · exact quiet_failAt.indifferent
  cases hframes : s.frames with
  | nil =>
    rw [bind_of_error (currentScope_of_nil hframes)]
    exact .refl s
  | cons d below =>
    rw [bind_of_ok (currentScope_of_cons hframes)]
    cases d with
    | proto h ms =>
      refine ⟨⟨?_, ?_⟩, .of_eq rfl, [], rfl, by simp⟩
      · rw [hframes]
        change (s.frames.drop 1) = below
        rw [hframes]
        rfl
      · rw [hframes]
        change Def.mark _ :: (s.frames.drop 1).map Def.mark = _
        rw [hframes]
        rfl
    | _ => exact quiet_failAt.calms ctx s

theorem quiet_readOption (htok : tok.lexeme.isBrace = false) : QuietAt tok (readOption first) :=
  quiet_advance htok (plain_expectName.quiet.bind fun _ => plain_readDotted.quiet.bind fun _ =>
    (plain_expectSymbol (by decide)).quiet.bind
    fun _ => plain_readOptionValue.quiet.bind fun _ => plain_endStatement.quiet.bind fun _ =>
      quiet_makeHeader.bind fun _ => quiet_define)

theorem quiet_readConst (htok : tok.lexeme.isBrace = false) : QuietAt tok (readConst first) :=
  quiet_advance htok (plain_expectName.quiet.bind fun _ => (plain_expectSymbol (by decide)).quiet.bind
    fun _ => plain_readConstantValue.quiet.bind fun _ =>
    plain_endStatement.quiet.bind fun _ => quiet_makeHeader.bind fun _ => quiet_define)

theorem quiet_readAlias (htok : tok.lexeme.isBrace = false) : QuietAt tok (readAlias first) :=
  quiet_advance htok (plain_expectName.quiet.bind fun _ => (plain_expectSymbol (by decide)).quiet.bind
    fun _ => quiet_readType.bind fun _ =>
    plain_endStatement.quiet.bind fun _ => quiet_makeHeader.bind fun _ => (quiet_ofExcept _).bind fun _ => quiet_define)

theorem quiet_readTypedef (htok : tok.lexeme.isBrace = false) : QuietAt tok (readTypedef first) :=
  quiet_advance htok (quiet_readType.bind fun _ => plain_expectName.quiet.bind fun _ =>
    plain_endStatement.quiet.bind fun _ =>
    (quiet_note _).bind fun _ => quiet_makeHeader.bind fun _ => (quiet_ofExcept _).bind fun _ => quiet_define)

theorem quiet_readEnumField {name : String} : Quiet (readEnumField name first) :=
  (plain_expectSymbol (by decide)).quiet.bind fun _ => (plain_expect rfl rfl).quiet.bind fun _ =>
    plain_endStatement.quiet.bind fun _ =>
    quiet_makeHeader.bind fun _ => (quiet_ofExcept _).bind fun _ => quiet_define.bind fun _ => quiet_pure _

theorem quiet_readField {t : Ty} : Quiet (readField t first) :=
  plain_expectName.quiet.bind fun _ => (plain_expectSymbol (by decide)).quiet.bind fun _ =>
    (plain_expect rfl rfl).quiet.bind fun _ =>
    plain_endStatement.quiet.bind fun _ => quiet_makeHeader.bind fun _ => (quiet_ofExcept _).bind fun _ => quiet_define

theorem quiet_readNamedItem {name : String} (htok : tok.lexeme.isBrace = false) :
    QuietAt tok (readNamedItem name first) := by
  have hmisplaced : Quiet (readNamedItem.misplaced name first) :=
    quiet_lookupType.bind fun _ => quiet_readArray.bind fun _ => quiet_readField
  refine quiet_advance htok (quiet_peek ?_ fun t => Quiet.at ?_)
  · show Quiet (unexpected none : Reading (Option Def))
    exact quiet_unexpected none
  split
  · exact quiet_readEnumField
  · split
    · exact quiet_readTypeReference.bind fun _ => quiet_readArray.bind fun _ => quiet_readField
    · dsimp only
      split
      · exact hmisplaced
      · exact hmisplaced
      · exact quiet_unexpected _

theorem quiet_checkPlace {body : Body} {d : Option Def} : Quiet (checkPlace body d) := by
  unfold checkPlace
  split
  · exact quiet_check fun _ => quiet_throw _
  · exact quiet_pure _

/-! ### Imports -/

theorem calms_readChild (path : String) : Calms (readChild path) := by
  intro ctx s
  cases hrun : ctx.readImport path (ctx.outer ++ s.frames.reverse.map frameRef) s.childStart with
  | mk r child =>
    rw [readChild_run hrun]
    have hleft : child.frames = (ctx.readImport path (ctx.outer ++ s.frames.reverse.map frameRef)
      s.childStart).2.frames := by
      rw [hrun]
    refine ⟨⟨rfl, rfl⟩, ⟨rfl, .inr ⟨_, _, _, hleft⟩, fun hctx => ?_⟩, [], rfl, by simp⟩
    · have hpaths := hctx path (ctx.outer ++ s.frames.reverse.map frameRef) s.childStart
      rw [hrun] at hpaths
      change { s.paths with reader := child.paths.reader } = s.paths
      rw [hpaths]
      rfl

theorem quiet_importPath (path : String) : Quiet (importPath path) := by
  refine quiet_read (fun _ _ => rfl) fun _ => ?_
  split <;> exact quiet_pure _

theorem quiet_isBeingRead (path : String) : Quiet (isBeingRead path) :=
  quiet_read (fun _ _ => rfl) fun _ => quiet_ofExcept _

theorem quiet_isImported (path : String) : Quiet (isImported path) :=
  quiet_read (fun _ _ => rfl) fun _ => quiet_currentFile.bind fun _ => quiet_ofExcept _

/-- **An import** opens no scope here, whatever is imported. -/
theorem calms_readImport (htok : tok.lexeme.isBrace = false) : CalmsAt tok (readImport first) := by
  refine calms_advance htok (plain_readTarget.quiet.calms.bind fun _ => plain_endStatement.quiet.calms.bind fun _ =>
    (quiet_importPath _).calms.bind fun _ => (quiet_isBeingRead _).calms.bind fun _ => ?_)
  split
  · exact quiet_failAt_bind.calms
  · refine (quiet_isImported _).calms.bind fun _ => ?_
    split
    · exact quiet_failAt_bind.calms
    · refine (calms_readChild _).bind fun _ => quiet_currentFile.calms.bind fun _ => ?_
      split
      · exact quiet_failAt_bind.calms
      · exact (quiet_pushMember.bind fun _ => quiet_pure _).calms

end Reading

end BitSchema
