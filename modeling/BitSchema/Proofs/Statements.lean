import BitSchema.Proofs.Reading
import BitSchema.Proofs.SetOptions

/-!
# How statements, bodies and files end

A statement turns the innermost open scope into one with at most one more member, and leaves the other scopes as they
are (`Turn`).  Each kind of statement takes one of the steps of `Reached`; a body takes them one after another, and
closes its scope when everything in it may stand there.

Every statement goes past a token, so a bound on the number of statements that grows with the number of tokens is never
met (`ends_readStatement_readBody`).  No file is read while it is being read, so neither is a bound on the depth of
imports that grows with the number of files (`Reader.ending_readPath`).
-/

namespace BitSchema.Reading

variable {ctx : Context} {g : Setting ctx} {file next n : Nat} {d : Def} {frames : List Def}

/-- **What a statement with result `r` does** to the innermost scope `d`: it becomes `d'`. -/
structure Turned (g : Setting ctx) (file : Nat) (d d' : Def) (frames : List Def) (next n : Nat)
    (r : Option Def) (s : State) :
    Prop where
  place : At g (d' :: frames) next n s
  reached : Reached ctx.traditional ctx.outer file (d' :: frames) next
  body : d'.body = d.body
  /-- A new member is the result, or it may stand here. -/
  members : ∀ m ∈ d'.members, m ∈ d.members ∨ r = some m.2 ∨ d.body.refuses m.2 = none
  imported : ∀ e ∈ r, e.scopeKind? = some .proto → ∃ t, g.Occurs t ∧ t.lexeme = .keyword .importFile

/-- **What a statement does**, with at most `n` tokens left. -/
def Turn (g : Setting ctx) (file : Nat) (d : Def) (frames : List Def) (n : Nat) (r : Option Def) (s : State) : Prop :=
  ∃ d' next', Turned g file d d' frames next' n r s

variable {first : Token} {f : Fault} {member : Def} {name path : String}
  (hreached : Reached ctx.traditional ctx.outer file (d :: frames) next)

include hreached in
theorem turn_none {s : State} (hs : At g (d :: frames) next n s) : Turn g file d frames n none s :=
  ⟨d, next, hs, hreached, rfl, fun _ hm => .inl hm, by simp⟩

/-! ### Simple statements -/

theorem reads_newlinePos {pos : Nat} :
    Reads g frames next n n (modify fun s => { s with newlinePos := pos } : Reading Unit) fun _ => True :=
  reads_modify fun _ => ⟨rfl, rfl, rfl, rfl⟩

include hreached

theorem ends_readComment {source : String} :
    Ends g (At g (d :: frames) next n) (readComment source first) (Turn g file d frames (n - 1)) := by
  unfold readComment
  refine reads_advance.bind fun _ _ => reads_expect.bind fun _ _ => reads_peek.bind fun t ht => ?_
  split
  · exact ends_unexpected_bind ht
  · exact ends_read.bind fun _ _ => reads_pushComment.bind fun _ _ => reads_newlinePos.bind fun _ _ =>
      ends_pure fun _ hs => turn_none hreached hs

theorem ends_readNewline :
    Ends g (At g (d :: frames) next n) (readNewline first) (Turn g file d frames (n - 1)) := by
  unfold readNewline
  refine reads_advance.bind fun _ _ => reads_peek.bind fun t ht => ?_
  split
  · exact ends_unexpected_bind ht
  · exact reads_clearComments.bind fun _ _ => reads_newlinePos.bind fun _ _ =>
      ends_pure fun _ hs => turn_none hreached hs

/-- **A file gets its name.** -/
theorem ends_readProto :
    Ends g (At g (d :: frames) next n) (readProto first) (Turn g file d frames (n - 1)) := by
  unfold readProto
  refine reads_advance.bind fun _ _ => reads_expectName.bind fun _ _ => plain_endStatement.reads.bind fun _ _ =>
    reads_currentScope.bind fun e he => ?_
  subst he
  split
  · refine reads_collectComments.bind fun _ _ => ends_replaceScope.bind fun _ _ => ends_pure fun s hs => ?_
    exact ⟨_, next, hs, hreached.rehead rfl rfl rfl, rfl, fun _ hm => .inl hm, by simp⟩
  · exact ends_failAt rfl

omit hreached

/-! ### New members -/

theorem fails_about (g : Setting ctx) {problem : Problem} {o : Origin} {note : String}
    (hfamily : problem.family = .grammar) (h : .about problem o note = f) : g.Fails f :=
  h ▸ g.report _ (.inr hfamily)

theorem fails_checkOption (g : Setting ctx) (h : d.checkOption member = .error f) :
    g.Fails f := by
  unfold Def.checkOption at h
  split at h
  · cases h
  · split at h
    · exact fails_about g rfl (Except.error.inj h)
    · split at h
      · exact fails_about g rfl (Except.error.inj h)
      · split at h
        · exact fails_about g rfl (Except.error.inj h)
        · cases h
  · cases h

theorem fails_checkEnumField (g : Setting ctx) (h : d.checkEnumField member = .error f) :
    g.Fails f := by
  unfold Def.checkEnumField at h
  split at h
  · split at h
    · exact fails_about g rfl (Except.error.inj h)
    · split at h
      · exact fails_about g rfl (Except.error.inj h)
      · cases h
  · cases h

theorem fails_checkFieldNumber (g : Setting ctx) (h : d.checkFieldNumber member = .error f) :
    g.Fails f := by
  unfold Def.checkFieldNumber at h
  split at h
  · split at h
    · exact fails_about g rfl (Except.error.inj h)
    · cases h
  · cases h

/-- **Only reports come of adding a member.** -/
theorem fails_push (g : Setting ctx) (h : d.push member name = .error f) :
    g.Fails f := by
  unfold Def.push at h
  cases hhas : Members.has d.members name with
  | true =>
    rw [hhas, if_pos rfl] at h
    exact fails_about g rfl (Except.error.inj h)
  | false =>
    simp only [hhas, bind, Except.bind, pure, Except.pure] at h
    cases hoption : d.checkOption member with
    | error e =>
      rw [hoption] at h
      exact Except.error.inj h ▸ fails_checkOption g hoption
    | ok _ =>
      cases hvalue : d.checkEnumField member with
      | error e =>
        rw [hoption, hvalue] at h
        exact Except.error.inj h ▸ fails_checkEnumField g hvalue
      | ok _ =>
        cases hnumber : d.checkFieldNumber member with
        | error e =>
          rw [hoption, hvalue, hnumber] at h
          exact Except.error.inj h ▸ fails_checkFieldNumber g hnumber
        | ok _ =>
          rw [hoption, hvalue, hnumber] at h
          cases h

theorem body_of_push {d' : Def} (h : d.push member name = .ok d') : d'.body = d.body := by
  obtain ⟨-, -, -, -, rfl⟩ := Def.push_eq_ok h
  cases d <;> rfl

theorem ends_pushMember :
    Ends g (At g (d :: frames) next n) (pushMember member name) fun _ s =>
      ∃ d', d.push member name = .ok d' ∧ At g (d' :: frames) next n s := by
  unfold pushMember
  refine reads_currentScope.bind fun e he => ?_
  subst he
  refine (ends_ofExcept fun f => fails_push g).bind fun d' hd' => ?_
  exact ends_replaceScope.mono fun _ s hs => ⟨d', hd', hs.1⟩

/-- **A member is added** to the innermost scope, and is the result. -/
theorem ends_push (hscope : d.isScope = true)
    (hreached : ∀ d', d.push member name = .ok d' → Reached ctx.traditional ctx.outer file (d' :: frames) next)
    (himport : member.scopeKind? = some .proto → ∃ t, g.Occurs t ∧ t.lexeme = .keyword .importFile) :
    Ends g (At g (d :: frames) next n) (do pushMember member name; return some member) (Turn g file d frames n) := by
  refine ends_pushMember.andThen fun _ => ends_pure fun s hs => ?_
  obtain ⟨d', hpush, hs⟩ := hs
  refine ⟨d', next, hs, hreached d' hpush, body_of_push hpush, ?_, ?_⟩
  · exact forall_members_push hscope hpush (fun m hm => .inl hm) (.inr (.inl rfl))
  · rintro e ⟨⟩
    exact himport

/-- **A new header** is the next one of the file that is read. -/
theorem ends_header {named : Token} (hreached : Reached ctx.traditional ctx.outer file frames next) :
    Ends g (At g frames next n) (makeHeader name named first) fun h s =>
      At g frames (next + 1) n s ∧ IsMade ctx.outer file frames next h := by
  obtain ⟨f, hlast, hf⟩ := hreached.framed.getLast?
  exact (ends_makeHeader hlast).mono fun h s ⟨hs, hh⟩ => ⟨hs, hf.id_eq ▸ hh⟩

/-! ### Definitions -/

theorem refuses_enumField (body : Body) (h : Header) (value : Nat) : body.refuses (.enumField h value) = none := by
  cases body <;> rfl

include hreached

theorem ends_define
    (hread : member.Readable ctx.traditional (d :: frames))
    (hnext : IsMade ctx.outer file (d :: frames) next member.header) :
    Ends g (At g (d :: frames) (next + 1) n) (define member) (Turn g file d frames n) :=
  ends_push hreached.isScope (fun _ hpush => hreached.define hread hnext hpush)
    fun hkind => absurd hkind hread.scopeKind?_ne

theorem ends_readOption :
    Ends g (At g (d :: frames) next n) (readOption first) (Turn g file d frames (n - 1)) := by
  refine reads_advance.bind fun _ _ => reads_expectName.bind fun _ _ => plain_readDotted.reads.bind fun _ _ =>
    reads_expectSymbol.bind fun _ _ => plain_readOptionValue.reads.bind fun value _ =>
      plain_endStatement.reads.bind fun _ _ =>
      (ends_header hreached).bind fun h hh => ?_
  exact ends_define hreached (.option h value) hh

theorem ends_readConst :
    Ends g (At g (d :: frames) next n) (readConst first) (Turn g file d frames (n - 1)) := by
  refine reads_advance.bind fun _ _ => reads_expectName.bind fun _ _ => reads_expectSymbol.bind fun _ _ =>
    plain_readConstantValue.reads.bind fun value _ => plain_endStatement.reads.bind fun _ _ =>
      (ends_header hreached).bind fun h hh => ?_
  exact ends_define hreached (.constant h value) hh

/-- **An alias** is added once it can be made. -/
theorem ends_defineAlias {h : Header} {target : Ty}
    (ht : TypeAt ctx (d :: frames) target) (hh : IsMade ctx.outer file (d :: frames) next h) :
    Ends g (At g (d :: frames) (next + 1) n) (do define (← ofExcept (makeAlias h target))) (Turn g file d frames n) := by
  have hfails (f : Fault) (hf : makeAlias h target = .error f) : g.Fails f := by
    unfold makeAlias at hf
    split at hf
    · exact fails_about g rfl (Except.error.inj hf)
    · cases hf
  refine (ends_ofExcept hfails).bind fun member hmake => ?_
  unfold makeAlias at hmake
  split at hmake
  · cases hmake
  · next hnamed =>
    cases hmake
    have hunnamed : target.isNamed = false := by
      cases target <;> first | rfl | exact absurd rfl (hnamed _)
    exact ends_define hreached (.typeAlias h ht hunnamed) hh

theorem ends_readAlias :
    Ends g (At g (d :: frames) next n) (readAlias first) (Turn g file d frames (n - 1)) :=
  reads_advance.bind fun _ _ => reads_expectName.bind fun _ _ => reads_expectSymbol.bind fun _ _ =>
    (reads_readType.of_le (Nat.sub_le ..)).bind fun _ hty => plain_endStatement.reads.bind fun _ _ =>
      (ends_header hreached).bind fun _ hh => ends_defineAlias hreached hty.1 hh

theorem ends_readTypedef :
    Ends g (At g (d :: frames) next n) (readTypedef first) (Turn g file d frames (n - 1)) :=
  reads_advance.bind fun _ _ => (reads_readType.of_le (Nat.sub_le ..)).bind fun _ hty =>
    reads_expectName.bind fun _ _ => plain_endStatement.reads.bind fun _ _ => reads_note.bind fun _ _ =>
      (ends_header hreached).bind fun _ hh => ends_defineAlias hreached hty.1 hh

/-- **An enum field** is added without being the result of its statement. -/
theorem ends_readEnumField {named : Token} :
    Ends g (At g (d :: frames) next n) (readEnumField name named) (Turn g file d frames n) := by
  refine reads_expectSymbol.bind fun _ _ => reads_expect.bind fun _ _ => plain_endStatement.reads.bind fun _ _ =>
    (ends_header hreached).bind fun h hh => ?_
  refine (ends_ofExcept fun f hf => ?_).bind fun member hmake => ?_
  · unfold makeEnumField at hf
    split at hf
    · cases hf
    · exact fails_about g rfl (Except.error.inj hf)
  unfold makeEnumField at hmake
  split at hmake
  · cases hmake
    -- `define` gives the member back, but the statement does not
    have hdefine (member : Def) : Ends g (At g (d :: frames) (next + 1) n) (define member) fun _ s =>
        ∃ d', d.push member member.name = .ok d' ∧ At g (d' :: frames) (next + 1) n s :=
      ends_pushMember.andThen fun _ => ends_pure fun _ hs => hs
    refine (hdefine _).andThen fun _ => ends_pure fun s hs => ?_
    obtain ⟨d', hpush, hs⟩ := hs
    refine ⟨d', next + 1, hs, hreached.define (.enumField h _) hh hpush, body_of_push hpush, ?_, by simp⟩
    exact forall_members_push hreached.isScope hpush (fun m hm => .inl hm) (.inr (.inr (refuses_enumField ..)))
  · cases hmake

theorem ends_readField {ty : Ty}
    (hty : TypeAt ctx (d :: frames) ty) :
    Ends g (At g (d :: frames) next n) (readField ty first) (Turn g file d frames n) := by
  refine reads_expectName.bind fun _ _ => reads_expectSymbol.bind fun _ _ => reads_expect.bind fun number _ =>
    plain_endStatement.reads.bind fun _ _ => (ends_header hreached).bind fun h hh => ?_
  refine (ends_ofExcept fun f hf => ?_).bind fun member hmake => ?_
  · unfold makeField at hf
    split at hf
    · cases hf
    · exact fails_about g rfl (Except.error.inj hf)
  unfold makeField at hmake
  split at hmake
  · next hnumber =>
    cases hmake
    exact ends_define hreached (.field h hty (by omega)) hh
  · cases hmake

omit hreached

/-! ### Imports -/

/-- Nothing was found among elements that were all asked. -/
theorem anyM_eq_false {α ε : Type} {f : α → Except ε Bool} {as : List α} :
    as.anyM f = .ok false ↔ ∀ a ∈ as, f a = .ok false := by
  induction as with
  | nil => simp [List.anyM, pure, Except.pure]
  | cons a as ih =>
    rw [List.forall_mem_cons, ← ih]
    rcases ha : f a with e | (_ | _) <;> simp [List.anyM, ha, bind, Except.bind, pure, Except.pure]

theorem exists_error_of_anyM {α ε : Type} {f : α → Except ε Bool} {as : List α} {e : ε} (h : as.anyM f = .error e) :
    ∃ a, f a = .error e := by
  induction as with
  | nil => cases h
  | cons a as ih =>
    rcases ha : f a with e' | (_ | _) <;> simp only [List.anyM, ha, bind, Except.bind] at h
    · exact ⟨a, ha.trans h⟩
    · exact ih h
    · cases h

theorem read_of_stat {files : Files} (h : files.stat path = .error f) :
    files.read path = .error f := by
  unfold Files.stat at h
  unfold Files.read
  cases hlook : files.look path <;> simp_all

theorem fails_same (g : Setting ctx) {a b : String} (h : ctx.files.same a b = .error f) : g.Fails f := by
  unfold Files.same at h
  cases ha : ctx.files.stat a with
  | error e =>
    simp only [ha, bind, Except.bind] at h
    cases h
    exact g.file a f (read_of_stat ha)
  | ok ra =>
    cases hb : ctx.files.stat b with
    | error e =>
      simp only [ha, hb, bind, Except.bind] at h
      cases h
      exact g.file b f (read_of_stat hb)
    | ok rb =>
      simp only [ha, hb, bind, Except.bind] at h
      cases h

theorem reads_importPath : Reads g frames next n n (importPath path) fun _ => True := by
  unfold importPath
  refine ends_read.bind fun _ _ => ?_
  split
  · exact reads_pure trivial
  · exact reads_pure trivial

/-- **Whether a path leads to a file that is being read.** -/
theorem reads_isBeingRead :
    Reads g frames next n n (isBeingRead path) fun b => b = false → ∀ p ∈ ctx.paths,
      ctx.files.same path p = .ok false := by
  unfold isBeingRead
  refine ends_read.bind fun c hc => ?_
  subst hc
  refine (ends_ofExcept fun f hf => ?_).mono fun b s hs => ⟨hs.1, fun hb => anyM_eq_false.1 (hb ▸ hs.2)⟩
  obtain ⟨p, hp⟩ := exists_error_of_anyM hf
  exact fails_same g hp

theorem reads_isImported {f : Def} (hlast : frames.getLast? = some f) :
    Reads g frames next n n (isImported path) fun _ => True := by
  unfold isImported
  refine ends_read.bind fun c hc => (reads_currentFile hlast).bind fun _ _ => ?_
  subst hc
  refine (ends_ofExcept fun f hf => ?_).mono fun _ s hs => ⟨hs.1, trivial⟩
  obtain ⟨p, hp⟩ := exists_error_of_anyM hf
  exact fails_same g hp

/-- **A file is read as a part of this text**, with serial numbers of its own. -/
theorem ends_readChild (hfresh : ∀ p ∈ ctx.paths, ctx.files.same path p = .ok false) :
    Ends g (At g frames next n) (readChild path) fun child s =>
      ∃ next', IsRead ctx.traditional (ctx.outer ++ frames.reverse.map frameRef) next child next' ∧
        At g frames next' n s := by
  unfold readChild
  refine ends_read.bind fun c hc => ends_get.bind fun s hs => reads_scopes.bind fun outer houter => ?_
  subst hc houter
  split
  next result child himport =>
  have hchild := g.imports path (c.outer ++ frames.reverse.map frameRef) s.childStart hfresh rfl
  rw [himport] at hchild
  have hset : At g frames child.nextId n (s.afterChild child) := ⟨hs.frames_eq, rfl, hs.count, hs.tokens, hs.ending⟩
  refine (ends_set hset).bind fun _ _ => ?_
  cases result with
  | error f => exact ends_throw hchild
  | ok d => exact ends_pure fun s' hs' => ⟨child.nextId, hs.next_eq ▸ hchild, hs'⟩

theorem reads_readTarget : Reads g frames next n n readImport.readTarget fun r => ∀ name ∈ r.1, name ≠ "" := by
  unfold readImport.readTarget
  refine reads_peek.bind fun t ht => ?_
  split
  · exact ends_unexpected ht
  · next tok =>
    split
    · exact reads_advance'.bind fun _ _ => reads_pure (by simp)
    · next name hname =>
      have hsound := g.sound tok (ht tok rfl).1
      rw [Token.Sound, hname] at hsound
      exact reads_advance'.bind fun _ _ => reads_expect.bind fun _ _ => reads_pure fun _ h => Option.some.inj h ▸ hsound
    · exact ends_unexpected ht

include hreached in
/-- **An import** adds the file that is read. -/
theorem ends_readImport
    (hfirst : g.Occurs first ∧ first.lexeme = .keyword .importFile) :
    Ends g (At g (d :: frames) next n) (readImport first) (Turn g file d frames (n - 1)) := by
  obtain ⟨f, hlast, -⟩ := hreached.framed.getLast?
  unfold readImport
  refine reads_advance.bind fun _ _ => reads_readTarget.bind fun target htarget =>
    plain_endStatement.reads.bind fun _ _ =>
    reads_importPath.bind fun filepath _ => reads_isBeingRead.bind fun b hb => ?_
  split
  · exact ends_failAt_bind rfl
  next hfalse =>
  refine (reads_isImported hlast).bind fun _ _ => ?_
  split
  · exact ends_failAt_bind rfl
  refine (ends_readChild (hb (Bool.eq_false_iff.2 hfalse))).andThen fun child => ⟨fun s hs => ?_⟩
  obtain ⟨next', himport, hs⟩ := hs
  refine ((reads_currentFile hlast).bind fun _ _ => ?_).run s hs
  split
  · exact ends_failAt_bind rfl
  · have hname : target.1.getD child.name ≠ "" := by
      cases halias : target.1 with
      | none => exact himport.name
      | some name => exact htarget name halias
    exact ends_push hreached.isScope (fun _ hpush => hreached.importFile himport.reached hname himport.frozen
      hpush) fun _ => ⟨first, hfirst⟩

/-! ### Bodies -/

/-- **What may not stand in a body is reported**, but for an import in a message. -/
theorem fails_refuses (g : Setting ctx) {body : Body} {e : Def} (h : body.refuses e = some f)
    (hmessage : body = .message → ∃ t, g.Occurs t ∧ t.lexeme = .keyword .message)
    (himport : e.scopeKind? = some .proto → ∃ t, g.Occurs t ∧ t.lexeme = .keyword .importFile) : g.Fails f := by
  cases body with
  | file => cases h
  | enum => cases e <;> first | exact fails_about g rfl (Option.some.inj h) | cases h
  | message =>
    cases e with
    | proto hd ms =>
      obtain ⟨t, ht, hkeyword⟩ := himport rfl
      obtain ⟨u, hu, hkeyword'⟩ := hmessage rfl
      exact Option.some.inj h ▸ g.place t u ht hu hkeyword hkeyword'
    | typeAlias hd target => exact fails_about g rfl (Option.some.inj h)
    | constant hd k v => exact fails_about g rfl (Option.some.inj h)
    | _ => cases h

/-- **After the check of its place** a definition may stand where it stands. -/
theorem reads_checkPlace {body : Body} {r : Option Def}
    (hmessage : body = .message → ∃ t, g.Occurs t ∧ t.lexeme = .keyword .message)
    (himport : ∀ e ∈ r, e.scopeKind? = some .proto → ∃ t, g.Occurs t ∧ t.lexeme = .keyword .importFile) :
    Reads g frames next n n (checkPlace body r) fun _ => ∀ e ∈ r, body.refuses e = none := by
  unfold checkPlace
  split
  · next f hf =>
    obtain ⟨e, he, hrefuses⟩ := Option.bind_eq_some_iff.1 hf
    refine reads_peek.bind fun t ht => ?_
    split
    · exact ends_throw (fails_refuses g hrefuses hmessage (himport e he))
    · exact ends_unexpected ht
  · next hnone => exact reads_pure (Option.bind_eq_none_iff.1 hnone)

/-- **A scope was opened** that holds nothing but what may stand in it. -/
def Opened (g : Setting ctx) (file : Nat) (body : Body) (frames : List Def) (next n : Nat) (s : State) : Prop :=
  ∃ d, Reached ctx.traditional ctx.outer file (d :: frames) next ∧ d.body = body ∧ d.Admits ∧ At g (d :: frames) next n s

theorem ends_openEnum (hreached : Reached ctx.traditional ctx.outer file frames next) :
    Ends g (At g frames next n) (openEnum first) fun _ => Opened g file .enum frames (next + 1) (n - 1) := by
  unfold openEnum
  refine reads_advance.bind fun _ _ => reads_expectName.bind fun _ _ => reads_expectSymbol.bind fun _ _ =>
    reads_expect.bind fun ⟨⟨source, cap⟩, tok⟩ ⟨htok, hwanted⟩ => reads_expectSymbol.bind fun _ _ =>
      reads_peek.bind fun t ht => ?_
  have hcap : 0 < cap ∧ cap ≤ 64 := by
    have hsound := g.sound tok htok
    unfold Token.Sound at hsound
    simp only at hwanted
    split at hwanted
    · next source' cap' hlexeme =>
      cases hwanted
      simpa [hlexeme] using hsound
    · cases hwanted
  split
  · exact ends_unexpected_bind ht
  · refine (ends_header hreached).bind fun h hh => ends_read.bind fun _ _ => ends_openScope.mono fun _ s hs => ?_
    have hopens (o : Origin) := @Def.Opens.enum ctx.traditional { h with frozen := false } o cap hcap
    exact ⟨_, hreached.openScope (hopens _) ⟨hh.id, hh.bound, hh.scopes⟩, rfl, by simp [Def.Admits, Def.members], hs.1⟩

theorem ends_openMessage (hreached : Reached ctx.traditional ctx.outer file frames next) :
    Ends g (At g frames next n) (openMessage first) fun _ => Opened g file .message frames (next + 1) (n - 1) := by
  unfold openMessage
  refine reads_advance.bind fun _ _ => reads_expectName.bind fun _ _ => reads_readMark.bind fun ext hext =>
    reads_expectSymbol.bind fun _ _ => reads_peek.bind fun t ht => ?_
  split
  · exact ends_unexpected_bind ht
  · refine (ends_header hreached).bind fun h hh => ends_openScope.mono fun _ s hs => ?_
    have hopens := Def.Opens.message { h with frozen := false } hext
    exact ⟨_, hreached.openScope hopens ⟨hh.id, hh.bound, hh.scopes⟩, rfl, by simp [Def.Admits, Def.members], hs.1⟩

/-- **The innermost scope is closed** and becomes a member of the one around it. -/
theorem ends_closeBody {e : Def} (hreached : Reached ctx.traditional ctx.outer file (e :: d :: frames) next)
    (hadmits : e.Admits) :
    Ends g (At g (e :: d :: frames) next n) closeBody (Turn g file d frames n) := by
  have hfrozen := hreached.freeze
  have hinner := hfrozen.framed.1
  have hhome : e.freeze.home = file := by rw [Def.home, hinner.bound, Option.getD_some]
  have hproper : ∀ m ∈ e.freeze.members, Proper e.freeze.home m := by
    rw [hhome]
    exact hfrozen.proper e.freeze (List.mem_cons_self ..)
  unfold closeBody
  refine reads_advance'.bind fun _ _ => reads_peek.bind fun t ht => ?_
  split
  · exact ends_unexpected_bind ht
  refine ends_closeScope.bind fun e' he => ?_
  subst he
  refine (ends_ofExcept fun f hf => ?_).bind fun _ hclosed => ?_
  · obtain ⟨note, rfl⟩ := Def.checkClosed_eq_error (hfrozen.openIn _ (List.mem_cons_self ..)).sound hproper hf
    exact fails_about g rfl rfl
  · exact ends_push (hreached.framed.isScope d (by simp))
      (fun _ hpush => hfrozen.closeScope hadmits.freeze (Def.frozen_freeze _) hclosed hpush)
      fun hkind => absurd hkind hinner.kind

include hreached in
theorem ends_misplaced :
    Ends g (At g (d :: frames) next n) (readNamedItem.misplaced name first) (Turn g file d frames n) :=
  reads_lookupType.bind fun _ hty => (reads_readArray hty).bind fun _ hty' => ends_readField hreached hty'

include hreached in
theorem ends_readNamedItem :
    Ends g (At g (d :: frames) next n) (readNamedItem name first) (Turn g file d frames (n - 1)) := by
  unfold readNamedItem
  refine reads_advance.bind fun _ _ => reads_peek.bind fun t ht => ?_
  split
  · exact ends_readEnumField hreached
  · split
    · exact reads_readTypeReference.bind fun _ hty => (reads_readArray hty).bind fun _ hty' =>
        ends_readField hreached hty'
    · split
      · exact ends_unexpected ht
      · split
        · exact ends_misplaced hreached
        · exact ends_misplaced hreached
        · exact ends_unexpected ht

theorem Turn.of_le {m : Nat} {r : Option Def} {s : State} (h : Turn g file d frames n r s) (hle : n ≤ m) :
    Turn g file d frames m r s := by
  obtain ⟨d', next', hturned⟩ := h
  exact ⟨d', next', { hturned with place := hturned.place.of_le hle }⟩

/-- **Statements and bodies**, which are read by turns.  A statement goes past a token at least, and a body past those
of its statements, so twice as much fuel as there are tokens is enough. -/
theorem ends_readStatement_readBody (fuel : Nat) :
    (∀ {d : Def} {frames : List Def} {next n : Nat} {body : Body}, 2 * n < fuel → d.body = body →
      Reached ctx.traditional ctx.outer file (d :: frames) next →
        Ends g (At g (d :: frames) next n) (readStatement fuel body)
          fun r s => 0 < n ∧ Turn g file d frames (n - 1) r s) ∧
      ∀ {d : Def} {frames : List Def} {next n : Nat} {body : Body}, 2 * n + 1 < fuel →
        (body = .message → ∃ t, g.Occurs t ∧ t.lexeme = .keyword .message) →
          Ends g (Opened g file body (d :: frames) next n) (readBody fuel body) (Turn g file d frames n) := by
  -- both at once: a body is made of statements, and a statement may open a body
  induction fuel with
  | zero => exact ⟨fun hfuel => absurd hfuel (Nat.not_lt_zero _), fun hfuel => absurd hfuel (Nat.not_lt_zero _)⟩
  | succ fuel ih =>
    obtain ⟨hstatement, hbody⟩ := ih
    constructor
    · intro d frames next n body hfuel hd hreached
      unfold readStatement
      refine reads_peek.bind fun t ht => ?_
      cases t with
      | none => exact ends_unexpected ht
      | some tok =>
      obtain ⟨hoccurs, hpos⟩ := ht tok rfl
      suffices hturn : Ends g (At g (d :: frames) next n) _ (Turn g file d frames (n - 1)) from
        hturn.mono fun r s hr => ⟨hpos, hr⟩
      simp only
      split
      · exact ends_readComment hreached
      · exact ends_readNewline hreached
      · next hkeyword =>
        split
        · exact ends_readProto hreached
        · exact ends_readImport hreached ⟨hoccurs, hkeyword⟩
        · exact ends_readOption hreached
        · exact ends_readAlias hreached
        · exact ends_readTypedef hreached
        · exact ends_readConst hreached
        · exact (ends_openEnum hreached).andThen fun _ => hbody (by omega) (by simp)
        · exact (ends_openMessage hreached).andThen fun _ => hbody (by omega) fun _ => ⟨tok, hoccurs, hkeyword⟩
      · split
        · exact ends_unexpected ht
        · exact ends_readNamedItem hreached
        · exact reads_readType.bind fun _ hty => ends_readField hreached hty.1
      -- the four built-in types, with which a field begins
      iterate 4
        · split
          · exact ends_unexpected ht
          · exact reads_readType.bind fun _ hty => ends_readField hreached hty.1
      · exact ends_unexpected ht
    · intro d frames next n body hfuel hmessage
      refine ⟨fun s ⟨e, hreached, he, hadmits, hs⟩ => ?_⟩
      unfold readBody
      refine (reads_peek.bind fun _ _ => ?_).run s hs
      split
      · exact ends_closeBody hreached hadmits
      refine (hstatement (by omega) he hreached).andThen fun r => ⟨fun s hs => ?_⟩
      obtain ⟨hpos, e', next', hturned⟩ := hs
      refine ((reads_checkPlace hmessage hturned.imported).bind fun _ hr => ⟨fun s hs => ?_⟩).run s hturned.place
      -- what was there may stand there, and so may what is new
      have hadmits' : e'.Admits := by
        intro m hm
        rw [hturned.body]
        rcases hturned.members m hm with hold | hnew | hfree
        · exact hadmits m hold
        · rw [he]
          exact hr m.2 hnew
        · exact hfree
      have hrest := @hbody d frames next' (n - 1) body (by omega) hmessage
      exact (hrest.mono fun r s hr => hr.of_le (Nat.sub_le ..)).run s
        ⟨e', hturned.reached, hturned.body.trans he, hadmits', hs⟩

/-! ### Files -/

theorem ends_readStatements {fuel : Nat} (hfuel : 2 * n + 1 < fuel) (hd : d.body = .file)
    (hreached : Reached ctx.traditional ctx.outer file (d :: frames) next) :
    Ends g (At g (d :: frames) next n) (readStatements fuel) fun _ s => ∃ d' next',
      Reached ctx.traditional ctx.outer file (d' :: frames) next' ∧ At g (d' :: frames) next' n s := by
  induction fuel generalizing d next n with
  | zero => exact absurd hfuel (Nat.not_lt_zero _)
  | succ fuel ih =>
    unfold readStatements
    refine reads_peek.bind fun _ _ => ?_
    split
    · exact ends_pure fun s hs => ⟨d, next, hreached, hs⟩
    refine ((ends_readStatement_readBody fuel).1 (by omega) hd hreached).andThen fun _ => ⟨fun s hs => ?_⟩
    obtain ⟨hpos, d', next', hturned⟩ := hs
    refine ((ih (by omega) (hturned.body.trans hd) hturned.reached).mono fun _ s hs => ?_).run s hturned.place
    obtain ⟨d'', next'', hreached'', hs⟩ := hs
    exact ⟨d'', next'', hreached'', hs.of_le (Nat.sub_le ..)⟩

/-- **A file that is read** has the next serial number. -/
theorem ends_readFile :
    Ends g (At g [] next n) readFile fun d s => IsRead ctx.traditional ctx.outer next d s.nextId := by
  unfold readFile
  refine reads_peek.bind fun t ht => ?_
  split
  · exact ends_unexpected_bind ht
  refine ends_read.bind fun _ _ => ends_freshId.bind fun id hid => reads_scopes.bind fun outer houter =>
    ends_openScope.bind fun _ _ => ?_
  subst hid
  -- the fuel is measured by the tokens to come
  have hget {A : State → Prop} : Ends g A (get : Reading State) fun s' s => A s ∧ s' = s := ⟨fun _ hs => ⟨hs, rfl⟩⟩
  refine hget.andThen fun s => ⟨fun s' hs => ?_⟩
  obtain ⟨hs, rfl⟩ := hs
  have hexact : At g _ (id + 1) s.rest.length s := ⟨hs.frames_eq, hs.next_eq, le_rfl, hs.tokens, hs.ending⟩
  refine ((ends_readStatements (by omega) rfl (.start rfl (houter.trans (List.append_nil _)))).andThen
    fun _ => ⟨fun s hs => ?_⟩).run s hexact
  obtain ⟨d, next', hreached, hs⟩ := hs
  refine (ends_closeScope.bind fun e he => ?_).run s hs
  subst he
  split
  · exact ends_throw (g.report _ (.inr rfl))
  · next hname =>
    exact ends_pure fun s hs => ⟨hs.next_eq ▸ hreached.freeze, by simpa using hname, Def.frozen_freeze e⟩

/-- **A text is read** whose tokens may occur. -/
theorem ends_readText {text : String} (hoccurs : ∀ line, ∀ t ∈ (Token.scan ctx.path line text).tokens, g.Occurs t)
    (hfails : ∀ line, ∀ f ∈ (Token.scan ctx.path line text).failure, g.Fails f.fault) :
    Ends g (fun s => s.frames = [] ∧ s.nextId = next) (readText text) fun d s =>
      IsRead ctx.traditional ctx.outer next d s.nextId := by
  refine ⟨fun s hs => ?_⟩
  have hplace : At g [] next _ (s.begun ctx.path text) := ⟨hs.1, hs.2, le_rfl, hoccurs s.line, hfails s.line⟩
  have hending := ends_readFile.run _ hplace
  cases hrun : readFile ctx (s.begun ctx.path text) with
  | mk r t =>
    rw [hrun] at hending
    rw [readText, hrun]
    cases r <;> exact hending

end BitSchema.Reading
