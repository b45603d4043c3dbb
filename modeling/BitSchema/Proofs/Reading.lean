import BitSchema.Proofs.PlainSteps
import BitSchema.Proofs.Stages

/-!
# How steps of reading end

A step of reading ends with a result and a new state, or with a fault.  `Ends` says which of them are possible, given
what is known of the state in which the step starts.  Most steps only look at tokens and go past some of them; they
leave the open scopes and the next serial number as they are (`Reads`).

`Limits` say which tokens may occur and which faults may end reading: reports about the text, and faults of a file, of
a numeral, of a division or of an import in the wrong place.  A `Setting` is a context with such limits, which imported
files keep to as well.

The steps follow the grammar: single tokens, scopes, references, calculations and types.  Statements, bodies and files
are in `BitSchema.Proofs.Statements`.
-/

namespace BitSchema

/-! ### Tokens of texts -/

variable {problem : Problem} {file : String}

namespace Token

/-- The widths of integer types exist, and names are not empty. -/
def Sound (t : Token) : Prop :=
  match t.lexeme with
  | .uintType _ cap => 0 < cap ∧ cap ≤ 64
  | .intType _ cap => cap = 8 ∨ cap = 16 ∨ cap = 32 ∨ cap = 64
  | .identifier name => name ≠ ""
  | _ => True

/-- **What can come of looking at one position**: a sound lexeme, a mistake in a token, or a numeral with too many
digits. -/
def Step.Sound : Step → Prop
  | .found lexeme _ => ∀ source line pos, (Token.mk lexeme source line pos).Sound
  | .failed problem _ _ => problem.family = .token
  | .stopped f => ∃ count, f = .tooManyDigits count

theorem ofDigits_eq_error {digits : List Char} {f : Fault} (h : Numeral.ofDigits digits = .error f) :
    ∃ count, f = .tooManyDigits count := by
  unfold Numeral.ofDigits at h
  split at h
  · cases h
  · cases h
    exact ⟨_, rfl⟩

/-- An integer type of a width that exists is found, or its width is the mistake. -/
theorem integerType_sound {word : String} {digits : List Char} {ok : Nat → Bool} {make : String → Nat → Lexeme}
    (hproblem : problem.family = .token)
    (hmake : ∀ source cap, ok cap = true → ∀ source' line pos, (Token.mk (make source cap) source' line pos).Sound) :
    (integerType word digits ok make problem).Sound := by
  unfold integerType
  simp only
  split
  · next f hf => exact ofDigits_eq_error hf
  · next cap _ =>
    split
    · next hok => exact hmake _ cap hok
    · exact hproblem

theorem isNameChar_of_isNameStart {c : Char} (h : isNameStart c = true) : isNameChar c = true := by
  rw [isNameStart, Bool.or_eq_true] at h
  rw [isNameChar, Char.isAlphanum, Bool.or_eq_true, Bool.or_eq_true]
  exact h.imp_left .inl

theorem ofList_takeWhile_ne {p : Char → Bool} {c : Char} (r : List Char) (h : p c = true) :
    String.ofList ((c :: r).takeWhile p) ≠ "" := by
  rw [List.takeWhile_cons_of_pos h]
  exact fun hempty => List.cons_ne_nil _ _ (String.ofList_injective hempty)

/-- **What comes of looking at a position is sound.** -/
theorem step_sound (before : Option Char) (c : Char) (r : List Char) : (step before c r).Sound := by
  fun_cases step before c r
  case case4 => exact integerType_sound rfl fun _ _ hok _ _ _ => by simpa [Token.Sound, uintWidthOk] using hok
  case case5 => exact integerType_sound rfl fun _ _ hok _ _ _ => by simpa [Token.Sound, intWidthOk] using hok
  case case11 hstart _ =>
    intro _ _ _
    unfold Token.Sound
    cases Keyword.ofWord? _ with
    | some k => trivial
    | none => exact ofList_takeWhile_ne r (isNameChar_of_isNameStart hstart)
  -- nothing is said of other lexemes
  all_goals first
    | exact ofDigits_eq_error ‹_›
    | exact fun _ _ _ => trivial
    | rfl

theorem sound_of_mem_scanFrom {before : Option Char} {line pos : Nat} {cs : List Char} {t : Token}
    (h : t ∈ (scanFrom file before line pos cs).tokens) : t.Sound := by
  fun_induction scanFrom file before line pos cs with
  | case1 => simp at h
  | case2 before line pos c r _ ih => exact ih h
  | case3 => simp at h
  | case4 => simp at h
  | case5 before line pos c r _ lexeme more hstep source next ih =>
    rcases List.mem_cons.1 h with rfl | h
    · have hsound := step_sound before c r
      rw [hstep] at hsound
      exact hsound _ _ _
    · exact ih h

/-- **All tokens of a text are sound.** -/
theorem sound_of_mem_scan {line : Nat} {text : String} {t : Token} (h : t ∈ (scan file line text).tokens) : t.Sound :=
  sound_of_mem_scanFrom h

/-- **Why no tokens follow**: a mistake in a token, or a numeral with too many digits. -/
theorem fault_of_scanFrom {before : Option Char} {line pos : Nat} {cs : List Char} {f : Failure}
    (h : (scanFrom file before line pos cs).failure = some f) :
    (∃ r : Report, f.fault = .report r ∧ r.problem.family = .token) ∨ ∃ count, f.fault = .tooManyDigits count := by
  fun_induction scanFrom file before line pos cs with
  | case1 => cases h
  | case2 before line pos c r _ ih => exact ih h
  | case3 before line pos c r _ problem note source hstep =>
    cases h
    have hsound := step_sound before c r
    rw [hstep] at hsound
    exact .inl ⟨_, rfl, hsound⟩
  | case4 before line pos c r _ fault hstep =>
    cases h
    have hsound := step_sound before c r
    rw [hstep] at hsound
    exact .inr hsound
  | case5 before line pos c r _ lexeme more hstep source next ih => exact ih h

end Token

/-! ### Steps and their ends -/

namespace Reading

variable {α β : Type}

/-- **Ends of a step**: a result and a state of which `Q` is true, or a fault of which `Fails` is true. -/
def Ending (Fails : Fault → Prop) (Q : α → State → Prop) : Except Fault α × State → Prop
  | (.ok a, s) => Q a s
  | (.error f, _) => Fails f

/-- **What reading may meet**: the tokens that may occur in texts, and the faults that may end reading. -/
structure Limits (files : Files) where
  Occurs : Token → Prop
  Fails : Fault → Prop
  sound : ∀ t, Occurs t → t.Sound
  scan : ∀ path line text, files.read path = .ok text → ∀ t ∈ (Token.scan path line text).tokens, Occurs t
  failure : ∀ path line text, files.read path = .ok text → ∀ f ∈ (Token.scan path line text).failure, Fails f.fault
  report : ∀ r : Report, r.problem.family = .token ∨ r.problem.family = .grammar → Fails (.report r)
  shown : ∀ t f, Occurs t → t.lexeme.shown = .error f → Fails f
  capacity : ∀ t cap f, Occurs t → t.lexeme = .symbol '[' → Numeral.ofInt cap = .error f → Fails f
  division : ∀ t, Occurs t → t.lexeme = .divide → Fails .divisionByZero
  place : ∀ t u, Occurs t → Occurs u → t.lexeme = .keyword .importFile → u.lexeme = .keyword .message → Fails .noFile
  file : ∀ path f, files.read path = .error f → Fails f

/-- **Settings**: contexts with what reading may meet in them. -/
structure Setting (ctx : Context) extends Limits ctx.files where
  /-- A file that is not being read can be imported. -/
  imports : ∀ path outer s, (∀ p ∈ ctx.paths, ctx.files.same path p = .ok false) → s.frames = [] →
    Ending Fails (fun d s' => IsRead ctx.traditional outer s.nextId d s'.nextId) (ctx.readImport path outer s)

variable {ctx : Context} {g : Setting ctx}

/-- **How a step ends** that starts in a state of which `P` is true. -/
structure Ends (g : Setting ctx) (P : State → Prop) (x : Reading α) (Q : α → State → Prop) : Prop where
  run : ∀ s, P s → Ending g.Fails Q (x ctx s)

/-- **A place in a text**: the scopes that are open, the next serial number, and how many tokens there are at most
to come. -/
structure At (g : Setting ctx) (frames : List Def) (next n : Nat) (s : State) : Prop where
  frames_eq : s.frames = frames
  next_eq : s.nextId = next
  count : s.rest.length ≤ n
  tokens : ∀ t ∈ s.rest, g.Occurs t
  ending : ∀ f ∈ s.ending, g.Fails f.fault

/-- **Steps that go past tokens** and change nothing else: from `n` tokens to come at most to `m`, with a result of
which `P` is true. -/
abbrev Reads (g : Setting ctx) (frames : List Def) (next n m : Nat) (x : Reading α) (P : α → Prop) : Prop :=
  Ends g (At g frames next n) x fun a s => At g frames next m s ∧ P a

/-! ### Combining steps -/

variable {A B : State → Prop} {P : α → Prop} {Q : β → State → Prop}
variable {x : Reading α} {R : α → State → Prop}

theorem Ends.mono {R' : α → State → Prop} (h : Ends g A x R) (hR : ∀ a s, R a s → R' a s) :
    Ends g A x R' := by
  refine ⟨fun s hs => ?_⟩
  have hx := h.run s hs
  cases hrun : x ctx s with
  | mk r s' =>
    rw [hrun] at hx
    cases r with
    | error f => exact hx
    | ok a => exact hR a s' hx

/-- **One step after another.** -/
theorem Ends.andThen {f : α → Reading β} (h : Ends g A x R) (hf : ∀ a, Ends g (R a) (f a) Q) :
    Ends g A (x >>= f) Q := by
  refine ⟨fun s hs => ?_⟩
  have hx := h.run s hs
  change Ending _ _ ((x ctx >>= fun a => f a ctx) s)
  simp only [Bind.bind, ExceptT.bind, ExceptT.mk, StateT.bind]
  cases hrun : x ctx s with
  | mk r s' =>
    rw [hrun] at hx
    cases r with
    | error e => exact hx
    | ok a => exact (hf a).run s' hx

/-- One step after another, where all that is known of the state after the first is the same for all results. -/
theorem Ends.bind {f : α → Reading β} (h : Ends g A x fun a s => B s ∧ P a) (hf : ∀ a, P a → Ends g B (f a) Q) :
    Ends g A (x >>= f) Q :=
  h.andThen fun a => ⟨fun s hs => (hf a hs.2).run s hs.1⟩

theorem ends_pure {a : α} (h : ∀ s, A s → R a s) : Ends g A (pure a) R :=
  ⟨h⟩

theorem reads_pure {frames : List Def} {next n : Nat} {a : α} (h : P a) : Reads g frames next n n (pure a) P :=
  ends_pure fun _ hs => ⟨hs, h⟩

theorem ends_throw {f : Fault} (h : g.Fails f) : Ends g A (throw f : Reading α) R :=
  ⟨fun _ _ => h⟩

theorem ends_get : Ends g A (get : Reading State) fun s' s => A s ∧ A s' :=
  ⟨fun _ hs => ⟨hs, hs⟩⟩

theorem ends_read : Ends g A (read : Reading Context) fun c s => A s ∧ c = ctx :=
  ⟨fun _ hs => ⟨hs, rfl⟩⟩

theorem ends_modify {u : State → State} (h : ∀ s, A s → B (u s)) :
    Ends g A (modify u : Reading Unit) fun _ s => B s ∧ True :=
  ⟨fun s hs => ⟨h s hs, trivial⟩⟩

theorem ends_set {s' : State} (h : B s') : Ends g A (set s' : Reading Unit) fun _ s => B s ∧ True :=
  ⟨fun _ _ => ⟨h, trivial⟩⟩

theorem ends_ofExcept {x : Except Fault α} (h : ∀ f, x = .error f → g.Fails f) :
    Ends g A (ofExcept x) fun a s => A s ∧ x = .ok a := by
  cases x with
  | ok a => exact ends_pure fun s hs => ⟨hs, rfl⟩
  | error f => exact ends_throw (h f rfl)

/-! ### Tokens -/

variable {frames : List Def} {next n : Nat}
variable {m : Nat} {t : Option Token} {d : Def} {name : String} {first : Token} {names : List String} {element : Ty}

theorem At.of_le {s : State} (h : At g frames next n s) (hle : n ≤ m) : At g frames next m s :=
  ⟨h.frames_eq, h.next_eq, h.count.trans hle, h.tokens, h.ending⟩

theorem Reads.of_le {m' : Nat} {x : Reading α} (h : Reads g frames next n m x P) (hle : m ≤ m') :
    Reads g frames next n m' x P :=
  h.mono fun _ _ hs => ⟨hs.1.of_le hle, hs.2⟩

theorem Reads.imp {P' : α → Prop} {x : Reading α} (h : Reads g frames next n m x P) (hP : ∀ a, P a → P' a) :
    Reads g frames next n m x P' :=
  h.mono fun a _ hs => ⟨hs.1, hP a hs.2⟩

/-- **Look-ahead.** -/
theorem reads_peek : Reads g frames next n n peek fun t => ∀ t' ∈ t, g.Occurs t' ∧ 0 < n := by
  unfold peek
  refine ends_get.bind fun s hs => ?_
  have hline (line : Nat) : At g frames next n { s with line } :=
    ⟨hs.frames_eq, hs.next_eq, hs.count, hs.tokens, hs.ending⟩
  split
  · next t rest hrest =>
    refine (ends_set (hline _)).bind fun _ _ => reads_pure ?_
    rintro t' ⟨⟩
    have hcount := hs.count
    rw [hrest, List.length_cons] at hcount
    exact ⟨hs.tokens _ (by simp [hrest]), by omega⟩
  · split
    · next f hending => exact (ends_set (hline _)).bind fun _ _ => ends_throw (hs.ending f hending)
    · exact reads_pure (by simp)

theorem reads_advance : Reads g frames next n (n - 1) advance fun _ => True := by
  refine ends_modify fun s hs => ⟨hs.frames_eq, hs.next_eq, ?_, fun t ht =>
    hs.tokens t (List.mem_of_mem_drop ht), hs.ending⟩
  have hcount := hs.count
  rw [List.length_drop]
  omega

/-- Going past a token, where it does not matter that there are fewer tokens to come. -/
theorem reads_advance' : Reads g frames next n n advance fun _ => True :=
  reads_advance.of_le (Nat.sub_le ..)

/-- A token that cannot stand here is reported, if it can be written. -/
theorem ends_unexpected {R : α → State → Prop} (ht : ∀ t' ∈ t, g.Occurs t' ∧ 0 < n) :
    Ends g A (unexpected t : Reading α) R := by
  unfold unexpected
  refine ends_read.bind fun _ _ => ?_
  cases t with
  | none => exact ends_throw (g.report _ (.inr rfl))
  | some t =>
    exact (ends_ofExcept fun f => g.shown t f (ht t rfl).1).bind fun _ _ => ends_throw (g.report _ (.inr rfl))

/-- Nothing is done after a token that cannot stand here. -/
theorem ends_unexpected_bind {f : α → Reading β} (ht : ∀ t' ∈ t, g.Occurs t' ∧ 0 < n) :
    Ends g A (unexpected t >>= f) Q := by
  have h : Ends g A (unexpected t : Reading α) fun _ _ => False := ends_unexpected ht
  exact h.andThen fun _ => ⟨fun _ hfalse => hfalse.elim⟩

theorem ends_failAt {note token : String} {line : Nat} {R : α → State → Prop}
    (h : problem.family = .grammar) : Ends g A (failAt problem note token line : Reading α) R :=
  ends_read.bind fun _ _ => ends_throw (g.report _ (.inr h))

theorem ends_failAt_bind {note token : String} {line : Nat} {f : α → Reading β}
    (h : problem.family = .grammar) : Ends g A (failAt problem note token line >>= f) Q := by
  have h : Ends g A (failAt problem note token line : Reading α) fun _ _ => False := ends_failAt h
  exact h.andThen fun _ => ⟨fun _ hfalse => hfalse.elim⟩

theorem reads_expect {wanted : Lexeme → Option α} :
    Reads g frames next n n (expect wanted) fun r => g.Occurs r.2 ∧ wanted r.2.lexeme = some r.1 := by
  unfold expect
  refine reads_peek.bind fun t ht => ?_
  cases t with
  | none => exact ends_unexpected ht
  | some t =>
    simp only
    cases hw : wanted t.lexeme with
    | none => exact ends_unexpected ht
    | some a => exact reads_advance'.bind fun _ _ => reads_pure ⟨(ht t rfl).1, hw⟩

theorem reads_expectSymbol {c : Char} : Reads g frames next n n (expectSymbol c) fun _ => True :=
  reads_expect.bind fun _ _ => reads_pure trivial

theorem reads_expectName : Reads g frames next n n expectName fun _ => True :=
  reads_expect.imp fun _ _ => trivial

/-! ### Comments and scopes -/

/-- Changes that concern neither the open scopes nor the tokens. -/
theorem reads_modify {u : State → State} (h : ∀ s, (u s).frames = s.frames ∧ (u s).nextId = s.nextId ∧
    (u s).rest = s.rest ∧ (u s).ending = s.ending) : Reads g frames next n n (modify u : Reading Unit)
      fun _ => True := by
  refine ends_modify fun s hs => ?_
  obtain ⟨hframes, hnext, hrest, hending⟩ := h s
  exact ⟨hframes.trans hs.frames_eq, hnext.trans hs.next_eq, hrest ▸ hs.count, hrest ▸ hs.tokens, hending ▸ hs.ending⟩

theorem reads_pushComment {c : Comment} : Reads g frames next n n (pushComment c) fun _ => True :=
  reads_modify fun _ => ⟨rfl, rfl, rfl, rfl⟩

theorem reads_clearComments : Reads g frames next n n clearComments fun _ => True :=
  reads_modify fun _ => ⟨rfl, rfl, rfl, rfl⟩

theorem reads_collectComments : Reads g frames next n n collectComments fun _ => True :=
  ends_get.bind fun _ _ => reads_clearComments.bind fun _ _ => reads_pure trivial

theorem reads_note {text : String} : Reads g frames next n n (note text) fun _ => True :=
  reads_modify fun _ => ⟨rfl, rfl, rfl, rfl⟩

theorem reads_scopes : Reads g frames next n n scopes fun refs => refs = ctx.outer ++ frames.reverse.map frameRef := by
  refine ends_read.bind fun _ hctx => ends_get.bind fun s hs => ?_
  rw [hs.frames_eq, hctx]
  exact reads_pure rfl

theorem reads_currentScope : Reads g (d :: frames) next n n currentScope fun e => e = d := by
  unfold currentScope
  refine ends_get.bind fun s hs => ?_
  rw [hs.frames_eq]
  exact reads_pure rfl

theorem reads_currentFile {f : Def} (h : frames.getLast? = some f) :
    Reads g frames next n n currentFile fun e => e = f := by
  unfold currentFile
  refine ends_get.bind fun s hs => ?_
  rw [hs.frames_eq, h]
  exact reads_pure rfl

theorem ends_openScope :
    Ends g (At g frames next n) (openScope d) fun _ s => At g (d :: frames) next n s ∧ True :=
  ends_modify fun _ hs => ⟨congrArg (d :: ·) hs.frames_eq, hs.next_eq, hs.count, hs.tokens, hs.ending⟩

theorem ends_closeScope :
    Ends g (At g (d :: frames) next n) closeScope fun e s => At g frames next n s ∧ e = d := by
  unfold closeScope
  refine reads_currentScope.bind fun e he => ?_
  have hdrop : Ends g (At g (d :: frames) next n) (modify fun s => { s with frames := s.frames.drop 1 } : Reading Unit)
      fun _ s => At g frames next n s ∧ True :=
    ends_modify fun s hs => ⟨congrArg (List.drop 1) hs.frames_eq, hs.next_eq, hs.count, hs.tokens, hs.ending⟩
  exact hdrop.bind fun _ _ => reads_pure he

theorem ends_replaceScope {d' : Def} :
    Ends g (At g (d :: frames) next n) (replaceScope d') fun _ s => At g (d' :: frames) next n s ∧ True :=
  ends_modify fun s hs => ⟨by simp [hs.frames_eq], hs.next_eq, hs.count, hs.tokens, hs.ending⟩

theorem ends_freshId : Ends g (At g frames next n) freshId fun id s => At g frames (next + 1) n s ∧ id = next := by
  unfold freshId
  refine ends_get.bind fun s hs => ?_
  have hnext : At g frames (next + 1) n { s with nextId := s.nextId + 1 } :=
    ⟨hs.frames_eq, congrArg (· + 1) hs.next_eq, hs.count, hs.tokens, hs.ending⟩
  exact (ends_set hnext).bind fun _ _ => reads_pure hs.next_eq

/-- **A new header** has the next serial number, belongs to the file, and lists the open scopes. -/
theorem ends_makeHeader {named : Token} {f : Def} (h : frames.getLast? = some f) :
    Ends g (At g frames next n) (makeHeader name named first) fun h s =>
      At g frames (next + 1) n s ∧ IsMade ctx.outer f.id frames next h := by
  unfold makeHeader
  refine ends_read.bind fun _ _ => ends_freshId.bind fun id hid => reads_scopes.bind fun _ hrefs =>
    reads_collectComments.bind fun _ _ => ends_get.bind fun _ _ => (reads_currentFile h).bind fun e he => ?_
  exact ends_pure fun s hs => ⟨hs, ⟨hid, congrArg (some ·.id) he, hrefs⟩, rfl⟩

/-- **What is looked up** is found on the way from an open scope. -/
theorem reads_lookup :
    Reads g frames next n n (lookup names) fun d => ∀ e ∈ d, ∃ frame ∈ frames, frame.member? names = some e := by
  refine ends_get.bind fun s hs => reads_pure fun d hd => ?_
  rw [hs.frames_eq] at hd
  exact List.exists_of_findSome?_eq_some hd

/-! ### Plain steps -/

theorem reads_lookupConstant :
    Reads g frames next n n (lookupConstant names first) fun _ => True := by
  unfold lookupConstant
  refine reads_lookup.bind fun d _ => ?_
  cases d with
  | none => exact ends_failAt rfl
  | some d => cases d <;> first | exact reads_pure trivial | exact ends_failAt rfl

theorem fails_apply (g : Setting ctx) {op : Operator} {left right : Int} {f : Fault} (ht : ∀ t' ∈ t, g.Occurs t')
    (hop : Operator.of? t = some op) (h : op.apply left right = .error f) : g.Fails f := by
  unfold Operator.of? at hop
  split at hop
  · next tok =>
    split at hop <;> simp only [Option.some.injEq, reduceCtorEq] at hop <;> subst hop
    · cases h
    · cases h
    · cases h
    · next hlexeme =>
      simp only [Operator.apply] at h
      split at h
      · cases h
        exact g.division tok (ht tok rfl) hlexeme
      · cases h
  · cases hop

/-- **Plain steps** only go past tokens. -/
theorem Plain.reads {x x' : Reading α} (h : Plain g.Occurs t x x') : Reads g frames next n n x fun _ => True := by
  induction h with
  | pure a => exact reads_pure trivial
  | bind _ _ ihx ihf => exact ihx.bind fun a _ => ihf a
  | peek _ ih => exact reads_peek.bind fun t ht => ih t fun tok htok => (ht tok htok).1
  | ahead _ ih => exact ih
  | advance _ _ ih => exact reads_advance'.bind fun _ _ => ih
  | unexpected ht => exact ends_unexpected (n := 1) fun tok htok => ⟨ht tok htok, Nat.one_pos⟩
  | failAt h => exact ends_failAt h
  | apply ht hop =>
    exact (ends_ofExcept fun f hf => fails_apply g ht hop hf).mono fun _ _ hs => ⟨hs.1, trivial⟩
  | rest _ ih => exact ends_get.bind fun s _ => ih s.rest.length
  | constant _ ih => exact reads_lookupConstant.bind fun d _ => ih d d ⟨rfl, rfl⟩

/-! ### Types -/

abbrev TypeAt (ctx : Context) (frames : List Def) (t : Ty) : Prop := t.Readable ctx.traditional frames

theorem reads_lookupType :
    Reads g frames next n n (lookupType names first) (TypeAt ctx frames) := by
  unfold lookupType
  refine reads_lookup.bind fun d hd => ?_
  cases d with
  | none => exact ends_failAt rfl
  | some d =>
    simp only
    split
    · next htype =>
      obtain ⟨frame, hframe, hmember⟩ := hd d rfl
      exact reads_pure (.named hframe hmember htype)
    · exact ends_failAt rfl

theorem reads_readTypeReference :
    Reads g frames next n n (readTypeReference name first) (TypeAt ctx frames) := by
  refine plain_readDotted.reads.bind fun _ _ => reads_peek.bind fun t ht => ?_
  split
  · exact reads_lookupType
  · exact ends_unexpected ht

theorem typeAt_of_baseType? {t : Token} {ty : Ty} (ht : t.Sound) (h : baseType? file t = some ty) :
    TypeAt ctx frames ty := by
  unfold baseType? at h
  unfold Token.Sound at ht
  split at h <;> simp only [Option.some.injEq, reduceCtorEq] at h <;> subst h
  · exact .bool _
  · exact .byte _
  · next hlexeme => exact .uint _ (by simpa [hlexeme] using ht)
  · next hlexeme => exact .int _ (by simpa [hlexeme] using ht)

/-- **A single type** takes at least one token. -/
theorem reads_readSingleType : Reads g frames next n (n - 1) readSingleType fun r => TypeAt ctx frames r.1 ∧ 0 < n := by
  unfold readSingleType
  refine reads_peek.bind fun t ht => ?_
  cases t with
  | none => exact ends_unexpected ht
  | some tok =>
    obtain ⟨hoccurs, hpos⟩ := ht tok rfl
    refine ends_read.bind fun _ _ => ?_
    split
    · next ty hty =>
      exact reads_advance.bind fun _ _ => reads_pure ⟨typeAt_of_baseType? (g.sound tok hoccurs) hty, hpos⟩
    · split
      · exact reads_advance.bind fun _ _ => reads_readTypeReference.bind fun _ hty => reads_pure ⟨hty, hpos⟩
      · exact ends_unexpected ht

/-- **In traditional mode no mark is read.** -/
theorem reads_readMark : Reads g frames next n n readMark fun ext => ctx.traditional = true → ext = false := by
  unfold readMark
  refine reads_peek.bind fun _ _ => ?_
  split
  · split
    · refine reads_advance'.bind fun _ _ => reads_peek.bind fun t ht => ?_
      split
      · exact ends_unexpected ht
      · refine ends_read.bind fun _ hctx => ?_
        split
        · exact ends_failAt rfl
        · next hmode => exact reads_pure fun htraditional => absurd (hctx ▸ htraditional) hmode
    · exact reads_pure fun _ => rfl
  · exact reads_pure fun _ => rfl

theorem fails_makeArray (g : Setting ctx) {o : Origin} {cap : Int} {ext : Bool} {f : Fault}
    (h : makeArray o element cap ext = .error f) : g.Fails f := by
  unfold makeArray at h
  split at h
  · cases h
    exact g.report _ (.inr rfl)
  · split at h
    · cases h
      exact g.report _ (.inl rfl)
    · cases h

theorem typeAt_of_makeArray {o : Origin} {ty : Ty} {cap : Int} {ext : Bool} (he : TypeAt ctx frames element)
    (hext : ctx.traditional = true → ext = false) (h : makeArray o element cap ext = .ok ty) :
    TypeAt ctx frames ty := by
  unfold makeArray at h
  split at h
  · cases h
  · split at h
    · cases h
    · next hcap helement =>
      cases h
      exact .array o he (by omega) (by simpa using helement) hext

theorem reads_readArray (he : TypeAt ctx frames element) :
    Reads g frames next n n (readArray element) (TypeAt ctx frames) := by
  unfold readArray
  refine reads_peek.bind fun t ht => ?_
  split
  · next tok =>
    obtain ⟨hoccurs, -⟩ := ht tok rfl
    split
    · next hsymbol =>
      refine reads_advance'.bind fun _ _ => plain_readCapacity.reads.bind fun _ _ => reads_expectSymbol.bind fun _ _ =>
        reads_readMark.bind fun _ hext => reads_peek.bind fun t ht => ?_
      split
      · refine (ends_ofExcept fun f => g.capacity tok _ f hoccurs hsymbol).bind fun _ _ => ends_read.bind fun _ _ => ?_
        exact (ends_ofExcept fun f => fails_makeArray g).mono fun _ _ h => ⟨h.1, typeAt_of_makeArray he hext h.2⟩
      · exact ends_unexpected ht
    · exact reads_pure he
  · exact reads_pure he

theorem reads_readType : Reads g frames next n (n - 1) readType fun r => TypeAt ctx frames r.1 ∧ 0 < n :=
  reads_readSingleType.bind fun _ hty => (reads_readArray hty.1).bind fun _ hty' => reads_pure ⟨hty', hty.2⟩

end Reading

end BitSchema
