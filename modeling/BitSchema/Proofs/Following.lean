import BitSchema.Proofs.PlainSteps
import BitSchema.Proofs.Relabeling

/-!
# One reading beside another

The same text may be read twice: in the two modes, as a file of its own or as an imported one, by one path or by
another.  A second reading *follows* the first as long as it does the same up to labels: `Match` says how the states of
the two are related, and `Follows` that a step of the one is matched by a step of the other.

The second reading may drop out.  It is excused if the comparison is lax, or if it refuses the marks of extensibility
and the first one has met such a mark (`Pairing.Excused`).  Whatever the second one does, the first one goes on, and
`Steady` says what is known of its open scopes: the imported files in them have been read by their own paths, and no
file has been imported twice.

The steps follow the grammar, as in `BitSchema.Proofs.Reading`.  Statements, bodies and files are in
`BitSchema.Proofs.FollowingFiles`.
-/

namespace BitSchema

open List

/-! ### Files inside files -/

/-- **States in which a file is begun.** -/
structure State.Fresh (s : State) : Prop where
  frames : s.frames = []
  rest : s.rest = []
  ending : s.ending = none
  line : s.line = 1
  newlinePos : s.newlinePos = 0

/-- **Files that have been read**: reading the path of the file gives the definition, inside some other files. -/
def Reader.Given (files : Files) (traditional : Bool) (d : Def) : Prop :=
  ∃ depth paths s t, depth ≤ files.reals.length + 1 ∧ s.Fresh ∧
    readPath files traditional depth paths d.header.origin.file d.header.scopes s = (.ok d, t)

/-- Something is true of all imported files inside a definition. -/
def Def.Imports (P : Def → Prop) (d : Def) : Prop :=
  ∀ m ∈ d.within .definition, m.2.scopeKind? = some .proto → P m.2

/-- **No file is imported twice.** -/
def Def.ImportsApart (files : Files) (d : Def) : Prop :=
  ((d.direct .proto).map fun m => files.stat m.2.header.origin.file).Nodup

def Files.importPath (files : Files) (path target : String) : String :=
  if path.isEmpty then Path.join files.cwd target else Path.join (Path.directory path) target

/-- **What is known of a file that has been read** by a path, inside the given scopes. -/
structure Reader.Loaded (files : Files) (traditional : Bool) (path : String) (outer : List ScopeRef)
    (d : Def) : Prop where
  kind : d.scopeKind? = some .proto
  file : d.header.origin.file = path
  scopes : d.header.scopes = outer
  given : d.Imports (Given files traditional)
  apart : d.ImportsApart files

namespace Reading

open Reader

variable {α β : Type}

/-! ### Comparisons -/

/-- **What is compared.** -/
structure Comparison (files : Files) where
  left : Relabeling
  right : Relabeling
  /-- The second reading may fail where the first succeeds. -/
  Lax : Prop
  /-- Comments are compared too. -/
  Comments : Prop
  /-- Paths by which the same file is read in the two readings. -/
  Near : String → String → Prop
  plain : left.Plain
  plain' : right.Plain
  indent : ∀ i, left.indent i = right.indent i
  comments : ∀ cs cs', (Comments → cs' = cs) → left.comments cs = right.comments cs'
  origin : ∀ p p', Near p p' → ∀ token line, left.origin ⟨token, line, p⟩ = right.origin ⟨token, line, p'⟩
  path : ∀ p p', Near p p' → Comments → p' = p
  text : ∀ p p' text text', Near p p' → files.read p = .ok text → files.read p' = .ok text' → text' = text
  child : ∀ p p' q text text', Near p p' → files.read (files.importPath p q) = .ok text →
    files.read (files.importPath p' q) = .ok text' → Near (files.importPath p q) (files.importPath p' q)
  strict : Lax ∨ (∀ p p', Near p p' → p' = p) ∧ ∀ o o', left.origin o = right.origin o' → o'.file = o.file

variable {files : Files}

namespace Comparison

def TyLike (c : Comparison files) (t t' : Ty) : Prop := t.relabel c.left = t'.relabel c.right

def DefLike (c : Comparison files) (d d' : Def) : Prop := d.relabel c.left = d'.relabel c.right

/-- **Scopes around two files** that leave the scopes inside alike. -/
def Outer (c : Comparison files) (outer outer' : List ScopeRef) : Prop :=
  ∀ refs refs', refs.map c.left.ref = refs'.map c.right.ref →
    c.left.scopes (outer ++ refs) = c.right.scopes (outer' ++ refs')

/-- **States that match.** -/
structure Match (c : Comparison files) (s s' : State) : Prop where
  frames : s.frames.map (Def.relabel c.left) = s'.frames.map (Def.relabel c.right)
  next : ∀ j, c.left.id (s.nextId + j) = c.right.id (s'.nextId + j)
  rest : s'.rest = s.rest
  ending : s'.ending.isNone = s.ending.isNone
  newlinePos : s'.newlinePos = s.newlinePos
  comments : c.Comments → s'.comments = s.comments ∧ s'.attached = s.attached ∧ s'.lent = s.lent

/-- **How the second reading of a file ends**, given how the first one ended: it fails with an excuse, or it gives a
file that is alike. -/
def Finishes (c : Comparison files) (excuse : Prop) (d : Def) (t : State) : Except Fault Def × State → Prop
  | (.ok d', t') =>
    c.DefLike d d' ∧ (∀ j, c.left.id (t.nextId + j) = c.right.id (t'.nextId + j)) ∧ (c.Comments → t'.lent = t.lent)
  | (.error _, _) => c.Lax ∨ excuse

end Comparison

/-- The second reading refuses what the first one accepts. -/
def Refuses (ctx ctx' : Context) : Prop := ctx.traditional = false ∧ ctx'.traditional = true

/-- **Two contexts that are compared.** -/
structure Pairing (c : Comparison files) (ctx ctx' : Context) : Prop where
  files_eq : ctx.files = files
  files_eq' : ctx'.files = files
  near : c.Near ctx.path ctx'.path
  outer : c.Outer ctx.outer ctx'.outer
  paths : c.Lax ∨ ∀ p ∈ ctx'.paths, p ∈ ctx.paths
  /-- What the first reading knows of imported files. -/
  loaded : ∀ path outer s d t, s.Fresh → ctx.readImport path outer s = (.ok d, t) →
    Loaded files ctx.traditional path outer d ∧ Given files ctx.traditional d
  /-- Imported files are matched. -/
  finishes : ∀ q outer outer' s s' d t, c.Outer outer outer' → s.Fresh → s'.Fresh → c.Match s s' →
    ctx.readImport (files.importPath ctx.path q) outer s = (.ok d, t) →
    c.Finishes (Refuses ctx ctx' ∧ ¬ d.Unmarked) d t (ctx'.readImport (files.importPath ctx'.path q) outer' s')

/-- **What is known of the open scopes.** -/
structure Steady (ctx : Context) (frames : List Def) : Prop where
  scope : ∀ d ∈ frames, d.isScope = true
  inner : ∀ d ∈ frames.dropLast, d.scopeKind? ≠ some .proto
  file : ∀ d ∈ frames.getLast?, d.scopeKind? = some .proto ∧ d.header.origin.file = ctx.path ∧
    d.header.scopes = ctx.outer
  given : ∀ d ∈ frames, d.Imports (Given ctx.files ctx.traditional)
  apart : ∀ d ∈ frames.getLast?, d.ImportsApart ctx.files

/-- Something extensible is open. -/
def Marked (frames : List Def) : Prop := ∃ d ∈ frames, ¬ d.Unmarked

theorem marked_cons {d : Def} {frames : List Def} : Marked (d :: frames) ↔ ¬ d.Unmarked ∨ Marked frames := by
  simp [Marked]

/-! ### Steps side by side -/

/-- **What is known between two steps**: of the open scopes of the first reading in any case, of both readings as long
as the second one follows, and of what is read by the first one when the second one has dropped out. -/
structure Facts where
  first : List Def → Prop := fun _ => True
  both : Prop := True
  lost : Prop := False

/-- **What is known after a step**, of its results. -/
structure Post (α : Type) where
  first : α → List Def → Prop := fun _ _ => True
  both : α → α → Prop := fun _ _ => True
  lost : α → Prop := fun _ => False

/-- What is known after a step with the given results. -/
def Post.facts (Ψ : Post α) (a a' : α) : Facts := ⟨Ψ.first a, Ψ.both a a', Ψ.lost a⟩

namespace Facts

def and (Φ : Facts) (both lost : Prop) : Facts := ⟨Φ.first, both ∧ Φ.both, lost ∨ Φ.lost⟩

/-- The results are related, and what was known stays known. -/
def plus (Φ : Facts) (related : α → α → Prop) (lost : α → Prop) : Post α :=
  ⟨fun _ => Φ.first, fun a a' => related a a' ∧ Φ.both, fun a => lost a ∨ Φ.lost⟩

/-- The results are the same, and what was known stays known. -/
def same (Φ : Facts) : Post α := ⟨fun _ => Φ.first, fun a a' => a' = a ∧ Φ.both, fun _ => Φ.lost⟩

end Facts

/-- What comes of a step of the second reading; nothing if it fails or has dropped out before. -/
def follow (ctx : Context) (x : Reading α) (o : Option State) : Option (α × State) :=
  o.bind fun s =>
    match x ctx s with
    | (.ok a, t) => some (a, t)
    | (.error _, _) => none

variable {c : Comparison files} {ctx ctx' : Context}

namespace Pairing

/-- **Excuses** for dropping out. -/
def Excused (_ : Pairing c ctx ctx') (frames : List Def) (lost : Prop) : Prop :=
  c.Lax ∨ Refuses ctx ctx' ∧ (Marked frames ∨ lost)

/-- **The two readings between two steps.** -/
def Side (p : Pairing c ctx ctx') (Φ : Facts) (s : State) : Option State → Prop
  | some s' => Steady ctx s.frames ∧ Φ.first s.frames ∧ c.Match s s' ∧ Φ.both
  | none => Steady ctx s.frames ∧ Φ.first s.frames ∧ p.Excused s.frames Φ.lost

/-- **The two readings after a step.** -/
def Ended (p : Pairing c ctx ctx') (Ψ : Post α) (a : α) (t : State) : Option (α × State) → Prop
  | some (a', t') => p.Side (Ψ.facts a a') t (some t')
  | none => p.Side (Ψ.facts a a) t none

end Pairing

/-- **A step of the second reading follows** one of the first. -/
structure Follows (p : Pairing c ctx ctx') (Φ : Facts) (x x' : Reading α) (Ψ : Post α) : Prop where
  run : ∀ {s o a t}, p.Side Φ s o → x ctx s = (.ok a, t) → p.Ended Ψ a t (follow ctx' x' o)

/-- **A step that gives the same** in both readings. -/
abbrev Repeats (p : Pairing c ctx ctx') (Φ : Facts) (x : Reading α) : Prop := Follows p Φ x x Φ.same

/-! ### Combining steps -/

section

variable {x x' : Reading α} {f f' : α → Reading β} {s t : State}

theorem bind_eq_ok {b : β} (h : (x >>= f) ctx s = (.ok b, t)) :
    ∃ a u, x ctx s = (.ok a, u) ∧ f a ctx u = (.ok b, t) := by
  change (x ctx >>= fun a => f a ctx) s = _ at h
  simp only [Bind.bind, ExceptT.bind, ExceptT.mk, StateT.bind] at h
  cases hx : x ctx s with
  | mk r u =>
    rw [hx] at h
    cases r with
    | error e => cases h
    | ok a => exact ⟨a, u, rfl, h⟩

theorem bind_of_ok {a : α} {u : State} (h : x ctx s = (.ok a, u)) : (x >>= f) ctx s = f a ctx u := by
  change (x ctx >>= fun a => f a ctx) s = _
  simp only [Bind.bind, ExceptT.bind, ExceptT.mk, StateT.bind]
  rw [h]
  rfl

theorem bind_of_error {e : Fault} {u : State} (h : x ctx s = (.error e, u)) : (x >>= f) ctx s = (.error e, u) := by
  change (x ctx >>= fun a => f a ctx) s = _
  simp only [Bind.bind, ExceptT.bind, ExceptT.mk, StateT.bind]
  rw [h]
  rfl

theorem follow_of_ok {a : α} (h : x ctx s = (.ok a, t)) : follow ctx x (some s) = some (a, t) := by
  simp only [follow, Option.bind_some, h]

theorem follow_of_error {e : Fault} (h : x ctx s = (.error e, t)) : follow ctx x (some s) = none := by
  simp only [follow, Option.bind_some, h]

theorem follow_bind (o : Option State) :
    follow ctx (x >>= f) o = (follow ctx x o).bind fun r => follow ctx (f r.1) (some r.2) := by
  cases o with
  | none => rfl
  | some s =>
    cases hx : x ctx s with
    | mk r u =>
      cases r with
      | error e => rw [follow_of_error hx, follow_of_error (bind_of_error hx), Option.bind_none]
      | ok a =>
        rw [follow_of_ok hx, Option.bind_some]
        simp only [follow, Option.bind_some, bind_of_ok hx]

end

variable {p : Pairing c ctx ctx'} {Φ : Facts} {Ψ Ψ' : Post α} {Ω : Post β}

variable {x x' : Reading α} {f f' : α → Reading β} {Φ' : Facts} {a : α} {s : State} {tok? : Option Token} {d : Def}
  {first : Token} {name : String} {names : List String} {element : Ty}

/-- **One step after another.** -/
theorem Follows.bind (h : Follows p Φ x x' Ψ) (hf : ∀ a a', Follows p (Ψ.facts a a') (f a) (f' a') Ω) :
    Follows p Φ (x >>= f) (x' >>= f') Ω := by
  refine ⟨fun {s o b u} hside hrun => ?_⟩
  obtain ⟨a, t, hx, hfa⟩ := bind_eq_ok hrun
  have hend := h.run hside hx
  rw [follow_bind]
  cases hfollow : follow ctx' x' o with
  | none =>
    -- the second reading has dropped out, so it does not matter how it would go on
    rw [hfollow] at hend
    exact (hf a a).run (s := t) (o := none) hend hfa
  | some r =>
    rw [hfollow] at hend
    exact (hf a r.1).run (s := t) (o := some r.2) hend hfa

/-- One step after another, where the results of the first are related. -/
theorem Follows.andThen {related : α → α → Prop} {lost : α → Prop} (h : Follows p Φ' x x' (Φ.plus related lost))
    (hf : ∀ a a', Follows p (Φ.and (related a a') (lost a)) (f a) (f' a') Ω) :
    Follows p Φ' (x >>= f) (x' >>= f') Ω :=
  h.bind hf

/-- One step after another, where the first gives the same in both readings. -/
theorem Follows.next (h : Follows p Φ' x x' Φ.same) (hf : ∀ a, Follows p Φ (f a) (f' a) Ω) :
    Follows p Φ' (x >>= f) (x' >>= f') Ω := by
  refine h.bind fun a a' => ⟨fun {s o b u} hside hrun => ?_⟩
  cases o with
  | none => exact (hf a).run (o := none) hside hrun
  | some s' =>
    obtain ⟨hsteady, hfirst, hmatch, rfl, hboth⟩ := hside
    exact (hf a').run (o := some s') ⟨hsteady, hfirst, hmatch, hboth⟩ hrun

theorem Follows.mono (h : Follows p Φ x x' Ψ) (hfirst : ∀ a frames, Ψ.first a frames → Ψ'.first a frames)
    (hboth : ∀ a a', Ψ.both a a' → Ψ'.both a a') (hlost : ∀ a, Ψ.lost a → Ψ'.lost a) : Follows p Φ x x' Ψ' := by
  refine ⟨fun {s o a t} hside hrun => ?_⟩
  have hend := h.run hside hrun
  cases hfollow : follow ctx' x' o with
  | none =>
    rw [hfollow] at hend
    obtain ⟨hsteady, hfirst', hexcused⟩ := hend
    exact ⟨hsteady, hfirst _ _ hfirst', hexcused.imp id (And.imp_right (Or.imp_right (hlost a)))⟩
  | some r =>
    rw [hfollow] at hend
    obtain ⟨hsteady, hfirst', hmatch, hboth'⟩ := hend
    exact ⟨hsteady, hfirst _ _ hfirst', hmatch, hboth _ _ hboth'⟩

theorem Follows.pre (h : Follows p Φ' x x' Ψ) (hfirst : ∀ frames, Φ.first frames → Φ'.first frames)
    (hboth : Φ.both → Φ'.both) (hlost : Φ.lost → Φ'.lost) :
    Follows p Φ x x' Ψ := by
  refine ⟨fun {s o a t} hside hrun => h.run ?_ hrun⟩
  cases o with
  | none => exact ⟨hside.1, hfirst _ hside.2.1, hside.2.2.imp_right (And.imp_right (Or.imp_right hlost))⟩
  | some s' => exact ⟨hside.1, hfirst _ hside.2.1, hside.2.2.1, hboth hside.2.2.2⟩

theorem Follows.of_both {x'' : Reading α} (h : Φ.both → Follows p Φ x x' Ψ)
    (h' : Follows p { Φ with both := False } x x'' Ψ) : Follows p Φ x x' Ψ := by
  refine ⟨fun {s o a t} hside hrun => ?_⟩
  cases o with
  | none => exact h'.run (o := none) hside hrun
  | some s' => exact (h hside.2.2.2).run hside hrun

theorem Follows.drop {x'' : Reading α} (h : Follows p Φ x x'' Ψ) (hlax : Φ.both → c.Lax)
    (hfail : ∀ s a t, x' ctx' s ≠ (.ok a, t)) : Follows p Φ x x' Ψ := by
  refine ⟨fun {s o a t} hside hrun => ?_⟩
  cases o with
  | none => exact h.run (o := none) hside hrun
  | some s' =>
    have hnone : follow ctx' x' (some s') = none := by
      cases hrun' : x' ctx' s' with
      | mk r t' =>
        cases r with
        | error e => exact follow_of_error hrun'
        | ok a' => exact absurd hrun' (hfail s' a' t')
    rw [hnone]
    exact h.run (o := none) ⟨hside.1, hside.2.1, .inl (hlax hside.2.2.2)⟩ hrun

/-- **What has to be shown of a step**: that the scopes of the first reading stay steady, that the second reading
follows or has an excuse, and that excuses last. -/
theorem Follows.of_run
    (hsteady : ∀ s a t, Steady ctx s.frames → Φ.first s.frames → x ctx s = (.ok a, t) →
      Steady ctx t.frames ∧ Ψ.first a t.frames)
    (hmatch : ∀ s s' a t, Steady ctx s.frames → Φ.first s.frames → c.Match s s' → Φ.both → x ctx s = (.ok a, t) →
      (∃ a' t', x' ctx' s' = (.ok a', t') ∧ c.Match t t' ∧ Ψ.both a a') ∨
        (∃ e t', x' ctx' s' = (.error e, t')) ∧ p.Excused t.frames (Ψ.lost a))
    (hlost : ∀ s a t, Steady ctx s.frames → Φ.first s.frames → x ctx s = (.ok a, t) →
      Marked s.frames ∨ Φ.lost → Marked t.frames ∨ Ψ.lost a) :
    Follows p Φ x x' Ψ := by
  refine ⟨fun {s o a t} hside hrun => ?_⟩
  cases o with
  | none =>
    obtain ⟨hs, hfirst, hexcused⟩ := hside
    obtain ⟨ht, hfirst'⟩ := hsteady s a t hs hfirst hrun
    exact ⟨ht, hfirst', hexcused.imp id (And.imp_right (hlost s a t hs hfirst hrun))⟩
  | some s' =>
    obtain ⟨hs, hfirst, hss', hboth⟩ := hside
    obtain ⟨ht, hfirst'⟩ := hsteady s a t hs hfirst hrun
    rcases hmatch s s' a t hs hfirst hss' hboth hrun with ⟨a', t', hrun', htt', hboth'⟩ | ⟨⟨e, t', hrun'⟩, hexcused⟩
    · rw [follow_of_ok hrun']
      exact ⟨ht, hfirst', htt', hboth'⟩
    · rw [follow_of_error hrun']
      exact ⟨ht, hfirst', hexcused⟩

theorem Follows.of_keeps {related : α → α → Prop} (hframes : ∀ s a t, x ctx s = (.ok a, t) → t.frames = s.frames)
    (hmatch : ∀ s s' a t, c.Match s s' → Φ.both → x ctx s = (.ok a, t) →
      ∃ a' t', x' ctx' s' = (.ok a', t') ∧ c.Match t t' ∧ related a a') :
    Follows p Φ x x' (Φ.plus related fun _ => False) := by
  refine .of_run (fun s a t hs hfirst hrun => ?_) (fun s s' a t _ _ hss' hboth hrun => ?_) fun s a t _ _ hrun hlost => ?_
  · rw [hframes s a t hrun]
    exact ⟨hs, hfirst⟩
  · obtain ⟨a', t', hrun', htt', hrelated⟩ := hmatch s s' a t hss' hboth hrun
    exact .inl ⟨a', t', hrun', htt', hrelated, hboth⟩
  · rw [hframes s a t hrun]
    exact hlost.imp_right .inr

theorem Follows.same_of_keeps (hframes : ∀ s a t, x ctx s = (.ok a, t) → t.frames = s.frames)
    (hmatch : ∀ s s' a t, c.Match s s' → x ctx s = (.ok a, t) → ∃ t', x' ctx' s' = (.ok a, t') ∧ c.Match t t') :
    Follows p Φ x x' Φ.same := by
  have h : Follows p Φ x x' (Φ.plus (fun a a' => a' = a) fun _ => False) := by
    refine .of_keeps hframes fun s s' a t hss' _ hrun => ?_
    obtain ⟨t', hrun', htt'⟩ := hmatch s s' a t hss' hrun
    exact ⟨a, t', hrun', htt', rfl⟩
  exact h.mono (fun _ _ => id) (fun _ _ => id) fun _ => fun h => h.resolve_left id

theorem follows_never (h : ∀ s a t, x ctx s ≠ (.ok a, t)) : Follows p Φ x x' Ψ :=
  ⟨fun _ hrun => absurd hrun (h _ _ _)⟩

theorem follows_throw {e : Fault} : Follows p Φ (throw e) x' Ψ :=
  follows_never fun s a t h => by cases h

/-- Results that are related, where the second reading gives one as long as it follows. -/
theorem follows_pure_of (hfirst : ∀ frames, Φ.first frames → Ψ.first a frames)
    (hboth : Φ.both → ∃ a', x' = pure a' ∧ Ψ.both a a') (hlost : Φ.lost → Ψ.lost a) :
    Follows p Φ (pure a) x' Ψ := by
  refine .of_run ?_ ?_ ?_
  · intro s b t hs hf h
    cases h
    exact ⟨hs, hfirst _ hf⟩
  · intro s s' b t _ _ hss' hb h
    cases h
    obtain ⟨a', rfl, hrelated⟩ := hboth hb
    exact .inl ⟨a', s', rfl, hss', hrelated⟩
  · intro s b t _ _ h hl
    cases h
    exact hl.imp_right hlost

theorem follows_pure {a' : α} (hfirst : ∀ frames, Φ.first frames → Ψ.first a frames) (hboth : Φ.both → Ψ.both a a')
    (hlost : Φ.lost → Ψ.lost a) : Follows p Φ (pure a) (pure a') Ψ :=
  follows_pure_of hfirst (fun h => ⟨a', rfl, hboth h⟩) hlost

theorem repeats_pure : Repeats p Φ (pure a) :=
  follows_pure (fun _ h => h) (fun h => ⟨rfl, h⟩) fun h => h

theorem follows_ofExcept {x x' : Except Fault α} (hfirst : ∀ a frames, x = .ok a → Φ.first frames → Ψ.first a frames)
    (hboth : ∀ a, x = .ok a → Φ.both → ∃ a', x' = .ok a' ∧ Ψ.both a a') (hlost : ∀ a, x = .ok a → Φ.lost → Ψ.lost a) :
    Follows p Φ (ofExcept x) (ofExcept x') Ψ := by
  cases x with
  | error e => exact follows_throw
  | ok a =>
    refine follows_pure_of (hfirst a · rfl) (fun hb => ?_) (hlost a rfl)
    obtain ⟨a', rfl, hboth'⟩ := hboth a rfl hb
    exact ⟨a', rfl, hboth'⟩

theorem repeats_ofExcept {x : Except Fault α} : Repeats p Φ (ofExcept x) :=
  follows_ofExcept (fun _ _ _ h => h) (fun a hx h => ⟨a, hx, rfl, h⟩) fun _ _ h => h

theorem follows_modify {u u' : State → State} (hframes : ∀ s, (u s).frames = s.frames)
    (hmatch : ∀ s s', c.Match s s' → c.Match (u s) (u' s')) : Follows p Φ (modify u) (modify u') Φ.same := by
  refine .same_of_keeps (fun s a t h => ?_) fun s s' a t hss' h => ?_
  · cases h
    exact hframes s
  · cases h
    exact ⟨u' s', rfl, hmatch s s' hss'⟩

theorem follows_read {f f' : Context → Reading β} (h : Follows p Φ (f ctx) (f' ctx') Ω) :
    Follows p Φ (read >>= f) (read >>= f') Ω :=
  ⟨fun hside hrun => h.run hside hrun⟩

theorem follows_rest (f f' : Nat → Reading β) (h : ∀ n, Follows p Φ (f n) (f' n) Ω) :
    Follows p Φ (get >>= fun s => f s.rest.length) (get >>= fun s => f' s.rest.length) Ω := by
  refine ⟨fun {s o b t} hside hrun => ?_⟩
  have hend := (h s.rest.length).run hside hrun
  cases o with
  | none => exact hend
  | some s' =>
    obtain ⟨-, -, hmatch, -⟩ := hside
    rw [← hmatch.rest] at hend
    exact hend

/-! ### Tokens -/

theorem peek_of_cons {tok : Token} {rest : List Token} (h : s.rest = tok :: rest) :
    peek ctx s = (.ok (some tok), { s with line := lineAfter tok }) := by
  obtain ⟨⟩ := s
  subst h
  rfl

theorem peek_of_nil (h : s.rest = []) (hending : s.ending = none) : peek ctx s = (.ok none, s) := by
  obtain ⟨⟩ := s
  subst h hending
  rfl

/-- **What looking ahead finds.** -/
theorem peek_eq_ok {t : State} (h : peek ctx s = (.ok tok?, t)) :
    (∃ tok rest, s.rest = tok :: rest ∧ tok? = some tok ∧ t = { s with line := lineAfter tok }) ∨
      s.rest = [] ∧ s.ending = none ∧ tok? = none ∧ t = s := by
  cases hrest : s.rest with
  | cons tok rest =>
    rw [peek_of_cons hrest] at h
    cases h
    refine .inl ⟨tok, rest, rfl, rfl, ?_⟩
    rw [← hrest]
  | nil =>
    cases hending : s.ending with
    | none =>
      rw [peek_of_nil hrest hending] at h
      cases h
      exact .inr ⟨rfl, rfl, rfl, rfl⟩
    | some f =>
      have hfail : peek ctx s = (.error f.fault, { s with line := f.line }) := by
        obtain ⟨⟩ := s
        subst hrest hending
        rfl
      rw [hfail] at h
      cases h

theorem repeats_peek : Repeats p Φ peek := by
  refine Follows.same_of_keeps (fun s a t h => ?_) fun s s' a t hss' h => ?_
  · obtain ⟨_, _, _, _, rfl⟩ | ⟨_, _, _, rfl⟩ := peek_eq_ok h <;> rfl
  · obtain ⟨tok, rest, hrest, rfl, rfl⟩ | ⟨hrest, hending, rfl, rfl⟩ := peek_eq_ok h
    · refine ⟨_, peek_of_cons (hss'.rest.trans hrest), ?_⟩
      exact { hss' with }
    · have hending' : s'.ending = none := by
        rw [← Option.isNone_iff_eq_none, hss'.ending, hending]
        rfl
      exact ⟨_, peek_of_nil (hss'.rest.trans hrest) hending', hss'⟩

theorem repeats_advance : Repeats p Φ advance :=
  follows_modify (fun _ => rfl) fun _ _ h =>
    { h with rest := congrArg (List.drop 1) h.rest }

/-- After a token that cannot stand here there is no result. -/
theorem unexpected_ne_ok (s : State) (a : α) (t : State) : unexpected tok? ctx s ≠ (.ok a, t) := by
  intro h
  cases tok? with
  | none => cases h
  | some tok =>
    obtain ⟨_, _, _, h⟩ := bind_eq_ok h
    obtain ⟨_, _, _, h⟩ := bind_eq_ok h
    cases h

theorem follows_unexpected : Follows p Φ (unexpected tok?) x' Ψ :=
  follows_never unexpected_ne_ok

theorem follows_unexpected_bind {x' : Reading β} :
    Follows p Φ (unexpected tok? >>= f) x' Ω :=
  follows_never fun s b t h => by
    obtain ⟨a, u, h, _⟩ := bind_eq_ok h
    exact unexpected_ne_ok s a u h

theorem follows_failAt {problem : Problem} {note token : String} {line : Nat} :
    Follows p Φ (failAt problem note token line) x' Ψ :=
  follows_never fun s a t h => by cases h

theorem repeats_expect {wanted : Lexeme → Option α} : Repeats p Φ (expect wanted) := by
  unfold expect
  refine repeats_peek.next fun tok? => ?_
  cases tok? with
  | none => exact follows_unexpected
  | some tok =>
    simp only
    cases wanted tok.lexeme with
    | none => exact follows_unexpected
    | some a => exact repeats_advance.next fun _ => repeats_pure

theorem repeats_expectSymbol {sign : Char} : Repeats p Φ (expectSymbol sign) :=
  repeats_expect.next fun _ => repeats_pure

theorem repeats_expectName : Repeats p Φ expectName := repeats_expect

/-! ### Comments and scopes -/

theorem repeats_clearComments : Repeats p Φ clearComments :=
  follows_modify (fun _ => rfl) fun _ _ h =>
    { h with comments := fun hc => ⟨rfl, rfl, (h.comments hc).2.2⟩ }

theorem follows_pushComment {source : String} {line : Int} :
    Follows p Φ (pushComment ⟨source, line, ctx.path⟩) (pushComment ⟨source, line, ctx'.path⟩) Φ.same := by
  refine follows_modify (fun _ => rfl) fun s s' h => { h with comments := fun hc => ?_ }
  obtain ⟨hcomments, hattached, hlent⟩ := h.comments hc
  simp only [hcomments, hattached, hlent, c.path _ _ p.near hc, and_self]

theorem follows_collectComments :
    Follows p Φ collectComments collectComments
      (Φ.plus (fun cs cs' => c.left.comments cs = c.right.comments cs') fun _ => False) := by
  refine .of_keeps (fun s a t h => by cases h; rfl) fun s s' a t hss' _ h => ?_
  cases h
  refine ⟨_, _, rfl, ?_, c.comments _ _ fun hc => (hss'.comments hc).1⟩
  exact { hss' with comments := fun hc => ⟨rfl, rfl, (hss'.comments hc).2.2⟩ }

theorem Comparison.Match.refs {s' : State} (h : c.Match s s') :
    (s.frames.reverse.map frameRef).map c.left.ref = (s'.frames.reverse.map frameRef).map c.right.ref := by
  have hrefs := congrArg (fun ds => (ds.map frameRef).reverse) h.frames
  simp only [map_map, Function.comp_def, Def.frameRef_relabel] at hrefs
  simpa only [map_map, map_reverse, Function.comp_def] using hrefs

/-- Scopes inside files whose surroundings are alike. -/
theorem Comparison.Outer.append {outer outer' refs refs' : List ScopeRef} (h : c.Outer outer outer')
    (hrefs : refs.map c.left.ref = refs'.map c.right.ref) : c.Outer (outer ++ refs) (outer' ++ refs') := by
  intro more more' hmore
  rw [append_assoc, append_assoc]
  refine h _ _ ?_
  rw [map_append, map_append, hrefs, hmore]

theorem follows_scopes :
    Follows p Φ scopes scopes
      ⟨fun refs frames => refs = ctx.outer ++ frames.reverse.map frameRef ∧ Φ.first frames,
        fun refs refs' => c.Outer refs refs' ∧ Φ.both, fun _ => Φ.lost⟩ := by
  refine .of_run (fun s a t hs hfirst h => ?_) (fun s s' a t _ _ hss' hboth h => ?_) fun s a t _ _ h hlost => ?_
  · cases h
    exact ⟨hs, rfl, hfirst⟩
  · cases h
    exact .inl ⟨_, s', rfl, hss', p.outer.append hss'.refs, hboth⟩
  · cases h
    exact hlost

theorem currentFile_eq_ok {t : State} : currentFile ctx s = (.ok d, t) ↔ s.frames.getLast? = some d ∧ t = s := by
  unfold currentFile
  rw [bind_of_ok (a := s) (u := s) rfl]
  cases s.frames.getLast? with
  | none => exact ⟨fun h => (by cases h), fun h => (by cases h.1)⟩
  | some e =>
    constructor
    · intro h
      cases h
      exact ⟨rfl, rfl⟩
    · rintro ⟨⟨⟩, rfl⟩
      rfl

/-- **Open scopes that are alike** are found at the same place. -/
theorem follows_select {x : Reading Def} {select : List Def → Option Def}
    (hselect : ∀ ρ frames, select (frames.map (Def.relabel ρ)) = (select frames).map (Def.relabel ρ))
    (hrun : ∀ {ctx s d t}, x ctx s = (.ok d, t) ↔ select s.frames = some d ∧ t = s) :
    Follows p Φ x x
      ⟨fun d frames => select frames = some d ∧ Φ.first frames, fun d d' => c.DefLike d d' ∧ Φ.both,
        fun _ => Φ.lost⟩ := by
  refine .of_run ?_ ?_ ?_
  · intro s d t hs hfirst h
    obtain ⟨hd, rfl⟩ := hrun.1 h
    exact ⟨hs, hd, hfirst⟩
  · intro s s' d t _ _ hss' hboth h
    obtain ⟨hd, rfl⟩ := hrun.1 h
    have hfound := congrArg select hss'.frames
    rw [hselect, hselect, hd, Option.map_some] at hfound
    obtain ⟨d', hd', hlike⟩ := Option.map_eq_some_iff.1 hfound.symm
    exact .inl ⟨d', s', hrun.2 ⟨hd', rfl⟩, hss', hlike.symm, hboth⟩
  · intro s d t _ _ h hlost
    obtain ⟨-, rfl⟩ := hrun.1 h
    exact hlost

theorem follows_currentFile :
    Follows p Φ currentFile currentFile
      ⟨fun d frames => frames.getLast? = some d ∧ Φ.first frames, fun d d' => c.DefLike d d' ∧ Φ.both,
        fun _ => Φ.lost⟩ :=
  follows_select (fun _ _ => getLast?_map) currentFile_eq_ok

theorem follows_freshId :
    Follows p Φ freshId freshId (Φ.plus (fun n n' => c.left.id n = c.right.id n') fun _ => False) := by
  refine .of_keeps (fun s a t h => by cases h; rfl) fun s s' a t hss' _ h => ?_
  cases h
  refine ⟨_, _, rfl, { hss' with next := fun j => ?_ }, hss'.next 0⟩
  have hnext := hss'.next (1 + j)
  rwa [← Nat.add_assoc, ← Nat.add_assoc] at hnext

theorem repeats_indentOf : Repeats p Φ (indentOf first) := by
  refine Follows.same_of_keeps (fun s a t h => by cases h; rfl) fun s s' a t hss' h => ?_
  cases h
  refine ⟨s', ?_, hss'⟩
  change ((Except.ok _, s') : Except Fault Int × State) = _
  rw [hss'.newlinePos]

/-- **New headers are alike.** -/
theorem follows_makeHeader {named : Token} :
    Follows p Φ (makeHeader name named first) (makeHeader name named first)
      (Φ.plus (fun h h' => c.left.header h = c.right.header h') fun _ => False) := by
  unfold makeHeader
  refine follows_read ?_
  refine follows_freshId.andThen fun id id' => ?_
  refine follows_scopes.bind fun sc sc' => ?_
  refine follows_collectComments.andThen fun cs cs' => ?_
  refine repeats_indentOf.next fun indent => ?_
  refine follows_currentFile.bind fun f f' => ?_
  refine follows_pure (fun frames h => h.2.2) (fun h => ?_) ?_
  · obtain ⟨hfile, hcomments, hscopes, hid, hboth⟩ := h
    have hbound := congrArg Def.id hfile
    rw [Def.id_relabel, Def.id_relabel] at hbound
    have hsc := hscopes [] [] rfl
    rw [append_nil, append_nil] at hsc
    refine ⟨?_, hboth⟩
    simp only [Relabeling.header, c.origin _ _ p.near, hid, hsc, hcomments, c.indent, Option.map_some, hbound]
  · rintro (h | h | h)
    · exact h.elim
    · exact h.elim
    · exact .inr h

/-- **The same names are looked up.** -/
theorem follows_lookup :
    Follows p Φ (lookup names) (lookup names)
      (Φ.plus (fun d d' => d.map (Def.relabel c.left) = d'.map (Def.relabel c.right)) fun _ => False) := by
  refine .of_keeps (fun s a t h => by cases h; rfl) fun s s' a t hss' _ h => ?_
  cases h
  refine ⟨_, s', rfl, hss', ?_⟩
  have hfound := congrArg (List.findSome? fun d => d.member? names) hss'.frames
  simpa only [findSome?_map, map_findSome?, Function.comp_def, Def.member?_relabel c.plain,
    Def.member?_relabel c.plain'] using hfound

/-! ### Plain steps -/

theorem follows_lookupConstant :
    Follows p Φ (lookupConstant names first) (lookupConstant names first) (Φ.plus SameValue fun _ => False) := by
  unfold lookupConstant
  refine follows_lookup.andThen fun d d' => ?_
  cases d with
  | none => exact follows_failAt
  | some d =>
    cases d with
    | constant h kind value =>
      refine follows_pure_of (fun _ hfirst => hfirst) (fun hboth => ?_) fun hlost => hlost
      obtain ⟨hlike, hboth⟩ := hboth
      obtain ⟨e, rfl, he⟩ := Option.map_eq_some_iff.1 hlike.symm
      have hvalue : SameValue (.constant h kind value) e := by
        constructor
        · rw [← Def.integerOf?_relabel (ρ := c.right), he, Def.integerOf?_relabel]
        · rw [← Def.literal?_relabel (ρ := c.right), he, Def.literal?_relabel]
      cases e with
      | constant h' kind' value' => exact ⟨_, rfl, hvalue, hboth⟩
      | _ => cases he
    | _ => exact follows_failAt

/-- The facts about constants are of no further use. -/
theorem lost_of_and {both : Prop} (h : (Φ.and both False).lost) : Φ.lost := h.resolve_left id

/-- **Plain steps give the same** in both readings. -/
theorem Plain.repeats (h : Plain (fun _ => True) tok? x x') : Follows p Φ x x' Φ.same := by
  induction h with
  | pure a => exact repeats_pure
  | bind _ _ ihx ihf => exact ihx.next ihf
  | peek _ ih => exact repeats_peek.next fun t => ih t fun _ _ => trivial
  | ahead _ ih => exact ih
  | advance _ _ ih => exact repeats_advance.next fun _ => ih
  | unexpected _ => exact follows_unexpected
  | failAt _ => exact follows_failAt
  | apply _ _ => exact repeats_ofExcept
  | rest _ ih => exact follows_rest _ _ ih
  | constant _ ih =>
    refine follows_lookupConstant.andThen fun d d' => .of_both (fun h => ?_)
      ((ih d d ⟨rfl, rfl⟩).pre (fun _ h => h) (fun h => h.elim) fun h => h.resolve_left id)
    exact (ih d d' h.1).pre (fun _ h => h) (fun h => h.2) lost_of_and

/-! ### Types -/

theorem follows_lookupType :
    Follows p Φ (lookupType names first) (lookupType names first) (Φ.plus c.TyLike fun t => ¬ t.Unmarked) := by
  unfold lookupType
  refine follows_lookup.andThen fun d d' => ?_
  cases d with
  | none => exact follows_failAt
  | some d =>
    dsimp only
    split
    · next htype =>
      refine follows_pure_of (fun _ h => h) (fun hboth => ?_) fun h => .inr (lost_of_and h)
      obtain ⟨hlike, hboth⟩ := hboth
      obtain ⟨e, rfl, he⟩ := Option.map_eq_some_iff.1 hlike.symm
      have htype' : e.isType = true := by
        rw [← Def.isType_relabel (ρ := c.right), he, Def.isType_relabel, htype]
      refine ⟨.named e, ?_, congrArg Ty.named he.symm, hboth⟩
      dsimp only
      rw [if_pos htype']
    · exact follows_failAt

theorem follows_readTypeReference :
    Follows p Φ (readTypeReference name first) (readTypeReference name first)
      (Φ.plus c.TyLike fun t => ¬ t.Unmarked) := by
  refine plain_readDotted.repeats.next fun _ => repeats_peek.next fun tok? => ?_
  split
  · exact follows_lookupType
  · exact follows_unexpected

def Comparison.TypeRead (c : Comparison files) (r r' : Ty × Token) : Prop := c.TyLike r.1 r'.1 ∧ r'.2 = r.2

theorem baseType?_like (p : Pairing c ctx ctx') (tok : Token) :
    (baseType? ctx.path tok).map (Ty.relabel c.left) = (baseType? ctx'.path tok).map (Ty.relabel c.right) := by
  unfold baseType?
  split <;> simp [Ty.relabel, c.origin _ _ p.near]

theorem follows_readSingleType :
    Follows p Φ readSingleType readSingleType (Φ.plus c.TypeRead fun r => ¬ r.1.Unmarked) := by
  unfold readSingleType
  refine repeats_peek.next fun tok? => ?_
  cases tok? with
  | none => exact follows_unexpected
  | some tok =>
    refine follows_read ?_
    have hbase := baseType?_like p tok
    cases hty : baseType? ctx.path tok with
    | some ty =>
      rw [hty] at hbase
      obtain ⟨ty', hty', hlike⟩ := Option.map_eq_some_iff.1 hbase.symm
      rw [hty']
      refine repeats_advance.next fun _ => follows_pure (fun _ h => h) (fun h => ⟨⟨hlike.symm, rfl⟩, h⟩) .inr
    | none =>
      rw [hty] at hbase
      have hty' := Option.map_eq_none_iff.1 hbase.symm
      rw [hty']
      dsimp only
      cases tok.lexeme with
      | identifier name =>
        refine repeats_advance.next fun _ => follows_readTypeReference.andThen fun t t' => ?_
        exact follows_pure (fun _ h => h) (fun h => ⟨⟨h.1, rfl⟩, h.2⟩) fun h => h
      | _ => exact follows_unexpected

/-- **Only a mark of extensibility tells the two modes apart.** -/
theorem follows_readMark :
    Follows p Φ readMark readMark (Φ.plus (fun ext ext' => ext' = ext) fun ext => ext = true) := by
  have hsame {ext : Bool} : Follows p Φ (pure ext) (pure ext) (Φ.plus (fun e e' => e' = e) fun e => e = true) :=
    follows_pure (fun _ h => h) (fun h => ⟨rfl, h⟩) .inr
  unfold readMark
  refine repeats_peek.next fun tok? => ?_
  cases tok? with
  | none => exact hsame
  | some tok =>
    dsimp only
    split
    · refine repeats_advance.next fun _ => repeats_peek.next fun t => ?_
      split
      · exact follows_unexpected
      · refine follows_read ?_
        cases hmode : ctx.traditional with
        | true => exact follows_failAt
        | false =>
          cases hmode' : ctx'.traditional with
          | false => exact hsame
          | true =>
            refine .of_run (fun s a t hs hfirst h => ?_) (fun s s' a t _ _ _ _ h => ?_) fun s a t _ _ h hlost => ?_
            · cases h
              exact ⟨hs, hfirst⟩
            · cases h
              exact .inr ⟨⟨_, s', rfl⟩, .inr ⟨⟨hmode, hmode'⟩, .inr (.inl rfl)⟩⟩
            · cases h
              exact hlost.imp_right .inr
    · exact hsame

theorem exists_like {x x' : Except Fault α} {u u' : α → α} (h : x.toOption.map u = x'.toOption.map u')
    (hx : x = .ok a) : ∃ a', x' = .ok a' ∧ u a = u' a' := by
  subst hx
  cases x' with
  | error e => cases h
  | ok a' => exact ⟨a', rfl, Option.some.inj h⟩

theorem makeArray_like {o o' : Origin} {element' ty : Ty} {cap : Int} {ext : Bool}
    (ho : c.left.origin o = c.right.origin o') (he : c.TyLike element element')
    (h : makeArray o element cap ext = .ok ty) :
    ∃ ty', makeArray o' element' cap ext = .ok ty' ∧ c.TyLike ty ty' := by
  refine exists_like ?_ h
  rw [← makeArray_relabel, ← makeArray_relabel, ho, he]

theorem not_unmarked_of_makeArray {o : Origin} {ty : Ty} {cap : Int} {ext : Bool}
    (h : makeArray o element cap ext = .ok ty) (hlost : ext = true ∨ ¬ element.Unmarked) : ¬ ty.Unmarked := by
  unfold makeArray at h
  split at h
  · cases h
  · split at h
    · cases h
    · cases h
      rintro ⟨hext, helement⟩
      rcases hlost with hlost | hlost
      · rw [hlost] at hext
        cases hext
      · exact hlost helement

theorem follows_readArray {element' : Ty} :
    Follows p (Φ.and (c.TyLike element element') (¬ element.Unmarked)) (readArray element) (readArray element')
      (Φ.plus c.TyLike fun t => ¬ t.Unmarked) := by
  have hsame : Follows p (Φ.and (c.TyLike element element') (¬ element.Unmarked)) (pure element) (pure element')
      (Φ.plus c.TyLike fun t => ¬ t.Unmarked) :=
    follows_pure (fun _ h => h) (fun h => h) fun h => h
  unfold readArray
  refine repeats_peek.next fun tok? => ?_
  cases tok? with
  | none => exact hsame
  | some tok =>
    dsimp only
    split
    · refine repeats_advance.next fun _ => plain_readCapacity.repeats.next fun cap => repeats_expectSymbol.next fun _ =>
        follows_readMark.andThen fun ext ext' => repeats_peek.next fun t => ?_
      split
      · refine repeats_ofExcept.next fun digits => follows_read ?_
        refine follows_ofExcept (fun _ _ _ h => h) (fun ty hty hboth => ?_) fun ty hty hlost => ?_
        · obtain ⟨rfl, helement, hboth⟩ := hboth
          have hshown := congrArg Ty.shown helement
          rw [Ty.shown_relabel, Ty.shown_relabel] at hshown
          rw [← hshown]
          obtain ⟨ty', hty', hlike⟩ := makeArray_like (c.origin _ _ p.near _ _) helement hty
          exact ⟨ty', hty', hlike, hboth⟩
        · rcases hlost with hlost | hlost | hlost
          · exact .inl (not_unmarked_of_makeArray hty (.inl hlost))
          · exact .inl (not_unmarked_of_makeArray hty (.inr hlost))
          · exact .inr hlost
      · exact follows_unexpected
    · exact hsame

theorem follows_readType : Follows p Φ readType readType (Φ.plus c.TypeRead fun r => ¬ r.1.Unmarked) := by
  refine follows_readSingleType.andThen fun ⟨ty, first⟩ ⟨ty', first'⟩ => ?_
  have hpre : Follows p ((Φ.and (first' = first) False).and (c.TyLike ty ty') (¬ ty.Unmarked))
      (readArray ty >>= fun t => pure (t, first)) (readArray ty' >>= fun t => pure (t, first'))
      (Φ.plus c.TypeRead fun r => ¬ r.1.Unmarked) := by
    refine follows_readArray.andThen fun t t' => follows_pure (fun _ h => h) (fun h => ⟨⟨h.1, h.2.1⟩, h.2.2⟩) ?_
    exact Or.imp_right lost_of_and
  exact hpre.pre (fun _ h => h) (fun h => ⟨h.1.1, h.1.2, h.2⟩) (Or.imp_right .inr)

end Reading

end BitSchema
