import BitSchema.Proofs.Accepted
import BitSchema.Proofs.QuietSteps

/-!
# What a text asks for

A text asks for the files that it imports, but never for one that is being read.  So it does not matter what reading
such a file would give (`Reading.indifferent_readText`).  The only step that asks for anything is `Reading.readChild`,
and it does so behind `Reading.isBeingRead`; the other steps are quiet.

So the bound on the depth of imports does not matter either (`Reader.readPath_depth`), and the files that are being read
at the same time are different ones (`Reader.BeingRead.room`).
-/

namespace BitSchema

open List

/-- A path does not lead to a file that is being read. -/
def Context.Free (ctx : Context) (path : String) : Prop := ∀ p ∈ ctx.paths, ctx.files.same path p = .ok false

namespace Reading

variable {α β : Type} {ctx : Context} {answer : Import}

/-! ### Scopes that are opened and closed -/

theorem indifferent_expect {wanted : Lexeme → Option α} : Indifferent ctx answer (expect wanted) := by
  refine indifferent_peek.bind fun t => ?_
  cases t with
  | none => exact (quiet_unexpected _).indifferent
  | some tok =>
    dsimp only
    split
    · exact indifferent_advance.bind fun _ => (quiet_pure _).indifferent
    · exact (quiet_unexpected _).indifferent

theorem indifferent_expectSymbol {c : Char} : Indifferent ctx answer (expectSymbol c) :=
  indifferent_expect.bind fun _ => (quiet_pure _).indifferent

theorem indifferent_unless {c : Option Token → Bool} {x : Reading α} (hx : Indifferent ctx answer x) :
    Indifferent ctx answer (peek >>= fun t => if !c t then (unexpected t : Reading PUnit) >>= fun _ => x else x) := by
  refine indifferent_peek.bind fun t => ?_
  split
  · exact (quiet_unexpected _).indifferent.bind fun _ => hx
  · exact hx

variable {first : Token}

theorem indifferent_openEnum : Indifferent ctx answer (openEnum first) :=
  indifferent_advance.bind fun _ => plain_expectName.quiet.indifferent.bind fun _ =>
    indifferent_expectSymbol.bind fun _ =>
    indifferent_expect.bind fun _ => indifferent_expectSymbol.bind fun _ =>
      indifferent_unless (quiet_makeHeader.indifferent.bind fun _ => indifferent_read rfl fun _ => rfl)

theorem indifferent_openMessage : Indifferent ctx answer (openMessage first) :=
  indifferent_advance.bind fun _ => plain_expectName.quiet.indifferent.bind fun _ =>
    quiet_readMark.indifferent.bind fun _ =>
    indifferent_expectSymbol.bind fun _ => indifferent_unless (quiet_makeHeader.indifferent.bind fun _ _ => rfl)

theorem indifferent_closeScope : Indifferent ctx answer closeScope :=
  quiet_currentScope.indifferent.bind fun _ _ => rfl

theorem indifferent_closeBody : Indifferent ctx answer closeBody :=
  indifferent_advance.bind fun _ => indifferent_unless (indifferent_closeScope.bind fun _ =>
    ((quiet_ofExcept _).bind fun _ => quiet_define).indifferent)

/-! ### Imports -/

/-- **Behind the check that a file is not being read** this is known. -/
theorem indifferent_isBeingRead {path : String} {y k : Reading α} (hy : Indifferent ctx answer y)
    (hk : ctx.Free path → Indifferent ctx answer k) :
    Indifferent ctx answer (do if ← isBeingRead path then y else k) := by
  simp only [isBeingRead, bind_assoc]
  refine indifferent_read rfl ?_
  change Indifferent ctx answer
    (ofExcept (ctx.paths.anyM fun p => ctx.files.same path p) >>= fun b => if b = true then y else k)
  rcases hany : ctx.paths.anyM fun p => ctx.files.same path p with f | (_ | _)
  · exact fun _ => rfl
  · exact hk (anyM_eq_false.1 hany)
  · exact hy

/-- **A file that is not being read is asked for.** -/
theorem indifferent_readChild {path : String} (h : answer path = ctx.readImport path) :
    Indifferent ctx answer (readChild path) := by
  intro s
  cases hrun : ctx.readImport path (ctx.outer ++ s.frames.reverse.map frameRef) s.childStart with
  | mk r child =>
    have hrun' : answer path (ctx.outer ++ s.frames.reverse.map frameRef) s.childStart = (r, child) := by
      rw [h, hrun]
    have hchild : readChild path (ctx.importing answer) s = (r, s.afterChild child) := readChild_run hrun'
    rw [readChild_run hrun, hchild]

section

variable (hanswer : ∀ path, ctx.Free path → answer path = ctx.readImport path)

include hanswer

theorem indifferent_readImport : Indifferent ctx answer (readImport first) := by
  refine indifferent_advance.bind fun _ => plain_readTarget.quiet.indifferent.bind fun _ =>
    plain_endStatement.quiet.indifferent.bind fun _ =>
    (quiet_importPath _).indifferent.bind fun path => indifferent_isBeingRead quiet_failAt_bind.indifferent fun hfree =>
      (quiet_isImported _).indifferent.bind fun _ => ?_
  split
  · exact quiet_failAt_bind.indifferent
  · refine (indifferent_readChild (hanswer path hfree)).bind fun d => quiet_currentFile.indifferent.bind fun f => ?_
    split
    · exact quiet_failAt_bind.indifferent
    · exact (quiet_pushMember.bind fun _ => quiet_pure _).indifferent

/-- **Statements and bodies**, by induction on their bound. -/
theorem indifferent_readStatement_readBody (fuel : Nat) :
    (∀ body, Indifferent ctx answer (readStatement fuel body)) ∧
      ∀ body, Indifferent ctx answer (readBody fuel body) := by
  induction fuel with
  | zero =>
    constructor
    · intro body
      rw [readStatement]
      exact (quiet_throw _).indifferent
    · intro body
      rw [readBody]
      exact (quiet_throw _).indifferent
  | succ fuel ih =>
    obtain ⟨hstatement, hbody⟩ := ih
    have hfield : Indifferent ctx answer (readType >>= fun x => readField x.1 x.2) :=
      (quiet_readType.bind fun _ => quiet_readField).indifferent
    constructor
    · intro body
      rw [readStatement]
      refine indifferent_peek.bind fun t => ?_
      cases t with
      | none => exact (quiet_unexpected _).indifferent
      | some tok =>
      dsimp only
      split
      · next h => exact (quiet_readComment (by rw [h]; rfl) : QuietAt tok _).indifferent
      · next h => exact (quiet_readNewline (by rw [h]; rfl) : QuietAt tok _).indifferent
      · next h =>
        have htok : tok.lexeme.isBrace = false := by rw [h]; rfl
        split
        · exact (quiet_readProto htok).indifferent
        · exact indifferent_readImport hanswer
        · exact (quiet_readOption htok).indifferent
        · exact (quiet_readAlias htok).indifferent
        · exact (quiet_readTypedef htok).indifferent
        · exact (quiet_readConst htok).indifferent
        · exact indifferent_openEnum.bind fun _ => hbody .enum
        · exact indifferent_openMessage.bind fun _ => hbody .message
      · next h =>
        split
        · exact (quiet_unexpected _).indifferent
        · exact (quiet_readNamedItem (by rw [h]; rfl) : QuietAt tok _).indifferent
        · exact hfield
      -- the four built-in types, with which a field begins
      iterate 4
        · split
          · exact (quiet_unexpected _).indifferent
          · exact hfield
      · exact (quiet_unexpected _).indifferent
    · intro body
      rw [readBody]
      refine indifferent_peek.bind fun t => ?_
      split
      · exact indifferent_closeBody
      · exact (hstatement body).bind fun _ => quiet_checkPlace.indifferent.bind fun _ => hbody body

theorem indifferent_readStatements (fuel : Nat) : Indifferent ctx answer (readStatements fuel) := by
  induction fuel with
  | zero => exact (quiet_throw _).indifferent
  | succ fuel ih =>
    unfold readStatements
    refine indifferent_peek.bind fun t => ?_
    split
    · exact (quiet_pure _).indifferent
    · exact ((indifferent_readStatement_readBody hanswer fuel).1 .file).bind fun _ => ih

theorem indifferent_readFile : Indifferent ctx answer readFile := by
  refine indifferent_unless (indifferent_read rfl ?_)
  refine quiet_freshId.indifferent.bind fun _ => quiet_scopes.indifferent.bind fun _ =>
    Indifferent.bind (fun _ => rfl) fun _ =>
    quiet_get.indifferent.bind fun _ => (indifferent_readStatements hanswer _).bind fun _ =>
      indifferent_closeScope.bind fun d => ?_
  change Indifferent ctx answer (if d.name.isEmpty = true then
    throw (.report { problem := .schemaNameMissing, file := ctx.path }) >>=
      fun _ : PUnit => pure d.freeze else pure d.freeze)
  split
  · exact fun _ => rfl
  · exact (quiet_pure d.freeze).indifferent

/-- **A text does not ask for a file that is being read.** -/
theorem indifferent_readText (text : String) : Indifferent ctx answer (readText text) := by
  intro s
  rw [readText, readText, indifferent_readFile hanswer]
  rfl

end

end Reading

namespace Reader

variable {files : Files} {mode : Bool} {root path : String} {paths : List String} {depth : Nat} {outer : List ScopeRef}
  {s : State}

/-! ### Room for imports -/

/-- **There is room for a file** inside those at `paths`: they are different files, the path leads to none of them, and
together with the files that may still be read inside each other they are more than there are. -/
structure Room (files : Files) (depth : Nat) (paths : List String) (path : String) : Prop where
  distinct : files.Distinct paths
  free : ∀ p ∈ paths, files.same path p = .ok false
  deep : files.reals.length < paths.length + depth

theorem Room.first (hdepth : files.reals.length < depth) : Room files depth [] path :=
  ⟨⟨nodup_nil, by simp⟩, by simp, by simpa using hdepth⟩

/-- **There is room for what a file asks for.** -/
theorem Room.next (h : Room files (depth + 1) paths path) {text target : String} (hread : files.read path = .ok text)
    (hfree : ∀ p ∈ paths ++ [path], files.same target p = .ok false) : Room files depth (paths ++ [path]) target := by
  refine ⟨h.distinct.concat hread h.free, hfree, ?_⟩
  have hdeep := h.deep
  rw [length_append, length_singleton]
  omega

theorem Room.nodup (h : Room files depth paths path) : ((paths ++ [path]).map files.stat).Nodup := by
  rw [map_append, nodup_append]
  refine ⟨h.distinct.nodup, nodup_singleton _, fun a ha b hb hab => ?_⟩
  obtain ⟨p, hp, rfl⟩ := mem_map.1 ha
  rw [map_singleton, mem_singleton] at hb
  have hsame := h.free p hp
  rw [Files.same, ← hb, ← hab] at hsame
  cases hstat : files.stat p with
  | error f =>
    rw [hstat] at hsame
    cases hsame
  | ok real =>
    rw [hstat] at hsame
    simp [bind, Except.bind, pure, Except.pure] at hsame

/-- **A text asks for a file**: it would end otherwise if that file, read in the scopes `outer` and the state `t`, gave
something else. -/
def Asks (text : String) (ctx : Context) (s : State) (path : String) (outer : List ScopeRef) (t : State) : Prop :=
  ∃ answer : Import, (∀ q o u, (q, o, u) ≠ (path, outer, t) → answer q o u = ctx.readImport q o u) ∧
    Reading.readText text (ctx.importing answer) s ≠ Reading.readText text ctx s

/-- **What is being read** at some time while the file at `root` is read: the file at a path, inside those at
`paths`. -/
inductive BeingRead (files : Files) (mode : Bool) (root : String) :
    Nat → List String → String → List ScopeRef → State → Prop where
  | root : BeingRead files mode root (files.reals.length + 1) [] root [] {}
  | inside {depth : Nat} {paths : List String} {path text target : String} {outer outer' : List ScopeRef} {s s' : State}
      (h : BeingRead files mode root (depth + 1) paths path outer s) (hread : files.read path = .ok text)
      (hasks : Asks text (contextAt files mode depth paths path outer) s target outer' s') :
      BeingRead files mode root depth (paths ++ [path]) target outer' s'

theorem Asks.free {text target : String} {ctx : Context} {t : State} (h : Asks text ctx s target outer t) :
    ctx.Free target := by
  obtain ⟨answer, hagrees, hne⟩ := h
  by_contra hfree
  refine hne (Reading.indifferent_readText (fun path hpath => ?_) text s)
  funext o u
  refine hagrees path o u fun heq => hfree ?_
  rwa [(Prod.mk.inj heq).1] at hpath

/-- **There is always room** for what is being read. -/
theorem BeingRead.room (h : BeingRead files mode root depth paths path outer s) : Room files depth paths path := by
  induction h with
  | root => exact .first (Nat.lt_succ_self _)
  | inside _ hread hasks ih => exact ih.next hread hasks.free

end Reader

end BitSchema
