import BitSchema.Proofs.Following
import BitSchema.Proofs.Statements

/-!
# Statements, bodies and files read twice

The second reading follows the first through all statements of a file (`follows_readStatement_readBody`), and so it
gives a file that is alike (`follows_readFile`).  By induction on the depth of imports this is true of files with all
that they import (`Reader.finishes_readPath`).

On the way the first reading is watched: a file that has been read holds only files that have been read, each by its own
path, and it imports none of them twice (`Reader.loaded_readPath`).
-/

namespace BitSchema

open List

/-! ### Members of open scopes -/

namespace Def

variable {d member d' : Def} {name : String}

theorem members_of_not_isScope (h : d.isScope = false) : d.members = [] := by
  cases d <;> first | rfl | simp [isScope, scopeKind?] at h

/-- **A scope with a marked member is marked**, and so is a marked scope with a further member. -/
theorem unmarked_of_push (hscope : d.isScope = true) (h : d.push member name = .ok d') (hd' : d'.Unmarked) :
    d.Unmarked ∧ member.Unmarked := by
  obtain ⟨-, -, -, -, rfl⟩ := push_eq_ok h
  have hall := hd'.members
  rw [members_withMembers hscope, forall_mem_append] at hall
  refine ⟨?_, hall.2 (name, member) (mem_singleton.2 rfl)⟩
  cases d with
  | enum hd o cap ms => exact membersUnmarked_iff.2 hall.1
  | message hd ext ms => exact ⟨hd'.1, membersUnmarked_iff.2 hall.1⟩
  | proto hd ms => exact membersUnmarked_iff.2 hall.1
  | _ => cases hscope

theorem direct_push (hscope : d.isScope = true) (h : d.push member name = .ok d') (k : Kind) :
    d'.direct k = d.direct k ++ if member.isA k then [(name, member)] else [] := by
  obtain ⟨-, -, -, -, rfl⟩ := push_eq_ok h
  rw [direct, direct, members_withMembers hscope, filter_append, filter_singleton]
  cases member.isA k <;> rfl

theorem Imports.push {P : Def → Prop} (hscope : d.isScope = true) (h : d.push member name = .ok d')
    (hd : d.Imports P) (hmember : member.Imports P) (hproto : member.scopeKind? = some .proto → P member) :
    d'.Imports P := by
  intro m hm hkind
  rw [within_push hscope h, mem_append, mem_append, mem_singleton] at hm
  rcases hm with (hm | hm) | rfl
  · exact hd m hm hkind
  · exact hmember m hm hkind
  · exact hproto hkind

end Def

variable {text : String}

namespace Reading

open Reader

variable {α β : Type} {files : Files} {c : Comparison files} {ctx ctx' : Context} {p : Pairing c ctx ctx'} {Φ : Facts}

/-- **A definition may be added to the innermost scope**: the imported files in it have been read, and if it is such a
file itself, it has not been imported before. -/
structure Admits (ctx : Context) (frames : List Def) (d : Def) : Prop where
  given : d.Imports (Given ctx.files ctx.traditional)
  proto : frames ≠ [] → d.scopeKind? = some .proto → Given ctx.files ctx.traditional d ∧
    ∀ f ∈ frames.getLast?, ∀ m ∈ f.direct .proto,
      ctx.files.stat m.2.header.origin.file ≠ ctx.files.stat d.header.origin.file

variable {d member d' : Def} {name : String} {n : Nat}

theorem Admits.of_not_isScope {frames : List Def} (h : d.isScope = false) : Admits ctx frames d := by
  refine ⟨fun m hm => ?_, fun _ hkind => ?_⟩
  · rw [Def.within_eq, Def.members_of_not_isScope h] at hm
    cases hm
  · rw [Def.isScope, hkind] at h
    cases h

theorem Admits.of_steady {frames : List Def} (h : Steady ctx (d :: frames)) : Admits ctx frames d := by
  refine ⟨h.given d (mem_cons_self ..), fun hne hkind => absurd hkind (h.inner d ?_)⟩
  rw [dropLast_cons_of_ne_nil hne]
  exact mem_cons_self ..

/-- **The innermost scope may be replaced** by one that stands at the same place. -/
theorem Steady.replace {rest : List Def} (h : Steady ctx (d :: rest)) (hkind : d'.scopeKind? = d.scopeKind?)
    (hfile : d'.header.origin = d.header.origin ∧ d'.header.scopes = d.header.scopes)
    (hgiven : d'.Imports (Given ctx.files ctx.traditional))
    (hapart : rest = [] → d.ImportsApart ctx.files → d'.ImportsApart ctx.files) : Steady ctx (d' :: rest) := by
  have hlast {P : Def → Prop} (hP : ∀ e ∈ (d :: rest).getLast?, P e) (hd : rest = [] → P d → P d') :
      ∀ e ∈ (d' :: rest).getLast?, P e := by
    cases rest with
    | nil => simpa using hd rfl (hP d (by simp))
    | cons e rest => simpa using hP
  refine ⟨?_, ?_, hlast h.file ?_, ?_, hlast h.apart hapart⟩
  · refine forall_mem_cons.2 ⟨?_, (forall_mem_cons.1 h.scope).2⟩
    rw [Def.isScope, hkind]
    exact (forall_mem_cons.1 h.scope).1
  · cases rest with
    | nil => simp
    | cons e rest =>
      have hinner := h.inner
      rw [dropLast_cons_of_ne_nil (cons_ne_nil _ _), forall_mem_cons] at hinner ⊢
      exact ⟨hkind ▸ hinner.1, hinner.2⟩
  · rw [hkind, hfile.1, hfile.2]
    exact fun _ => id
  · exact forall_mem_cons.2 ⟨hgiven, (forall_mem_cons.1 h.given).2⟩

/-- **A new member leaves the open scopes steady.** -/
theorem Steady.push {rest : List Def} (h : Steady ctx (d :: rest)) (hmember : Admits ctx (d :: rest) member)
    (hpush : d.push member name = .ok d') : Steady ctx (d' :: rest) := by
  have hscope := h.scope d (mem_cons_self ..)
  have hheader := header_of_push hpush
  have hproto (hk : member.scopeKind? = some .proto) := hmember.proto (cons_ne_nil _ _) hk
  refine h.replace (scopeKind?_of_push hpush) ⟨by rw [hheader], by rw [hheader]⟩
    ((h.given d (mem_cons_self ..)).push hscope hpush hmember.given fun hk => (hproto hk).1) fun hrest hapart => ?_
  subst hrest
  unfold Def.ImportsApart at hapart ⊢
  rw [Def.direct_push hscope hpush]
  cases hk : member.isA .proto with
  | false => simpa using hapart
  | true =>
    -- the new file is at none of the places of the others
    obtain ⟨-, hnew⟩ := hproto ((Def.isA_proto _).1 hk)
    rw [if_pos rfl, map_append, nodup_append_comm]
    refine nodup_cons.2 ⟨fun hmem => ?_, hapart⟩
    obtain ⟨m, hm, heq⟩ := mem_map.1 hmem
    exact hnew d (by simp) m hm heq

/-! ### Adding members -/

theorem currentScope_eq_ok : currentScope ctx s = (.ok d, t) ↔ s.frames.head? = some d ∧ t = s := by
  unfold currentScope
  rw [bind_of_ok (a := s) (u := s) rfl]
  cases s.frames with
  | nil => exact ⟨fun h => (by cases h), fun h => (by cases h.1)⟩
  | cons e rest =>
    constructor
    · intro h
      cases h
      exact ⟨rfl, rfl⟩
    · rintro ⟨⟨⟩, rfl⟩
      rfl

theorem currentScope_of_cons (h : s.frames = d :: rest) : currentScope ctx s = (.ok d, s) :=
  currentScope_eq_ok.2 ⟨by rw [h, head?_cons], rfl⟩

theorem follows_currentScope :
    Follows p Φ currentScope currentScope
      ⟨fun d frames => frames.head? = some d ∧ Φ.first frames, fun d d' => c.DefLike d d' ∧ Φ.both, fun _ => Φ.lost⟩ :=
  follows_select (fun _ _ => head?_map) currentScope_eq_ok

theorem pushMember_of_push {s : State} {rest : List Def} (hframes : s.frames = d :: rest)
    (h : d.push member name = .ok d') :
    pushMember member name ctx s = (.ok (), { s with frames := d' :: rest }) := by
  obtain ⟨frames⟩ := s
  subst hframes
  change (ofExcept (d.push member name) >>= replaceScope) ctx _ = _
  rw [h]
  rfl

theorem pushMember_eq_ok {s t : State} {u : Unit} (h : pushMember member name ctx s = (.ok u, t)) :
    ∃ d rest d', s.frames = d :: rest ∧ d.push member name = .ok d' ∧ t = { s with frames := d' :: rest } := by
  obtain ⟨d, v, hd, hrun⟩ := bind_eq_ok h
  obtain ⟨hhead, rfl⟩ := currentScope_eq_ok.1 hd
  obtain ⟨rest, hframes⟩ := head?_eq_some_iff.1 hhead
  cases hpush : d.push member name with
  | error e =>
    rw [hpush] at hrun
    cases hrun
  | ok d' =>
    rw [pushMember_of_push hframes hpush] at h
    cases h
    exact ⟨d, rest, d', hframes, hpush, rfl⟩

theorem Comparison.Match.cons {s s' : State} {rest : List Def} (h : c.Match s s') (hframes : s.frames = d :: rest) :
    ∃ d' rest', s'.frames = d' :: rest' ∧ c.DefLike d d' ∧
      rest.map (Def.relabel c.left) = rest'.map (Def.relabel c.right) := by
  have hmatch := h.frames
  rw [hframes, map_cons] at hmatch
  obtain ⟨d', rest', hframes', hd', hrest'⟩ := map_eq_cons_iff.1 hmatch.symm
  exact ⟨d', rest', hframes', hd'.symm, hrest'.symm⟩

/-- **What can be added in one reading can be added in the other.** -/
theorem follows_pushMember {member' : Def} {name' : String} :
    Follows p ⟨fun frames => frames.length = n ∧ Admits ctx frames member, c.DefLike member member' ∧ name' = name,
        ¬ member.Unmarked⟩
      (pushMember member name) (pushMember member' name')
      ⟨fun _ frames => frames.length = n, fun _ _ => c.DefLike member member', fun _ => False⟩ := by
  refine .of_run ?_ ?_ ?_
  · intro s a t hs hfirst h
    obtain ⟨d, rest, d', hframes, hpush, rfl⟩ := pushMember_eq_ok h
    rw [hframes] at hs hfirst
    exact ⟨hs.push hfirst.2 hpush, hfirst.1⟩
  · intro s s' a t _ _ hss' hboth h
    obtain ⟨hlike, rfl⟩ := hboth
    obtain ⟨d, rest, d', hframes, hpush, rfl⟩ := pushMember_eq_ok h
    obtain ⟨e, rest', hframes', he, hrest⟩ := hss'.cons hframes
    have hpush' : ∃ e', e.push member' name' = .ok e' ∧ c.DefLike d' e' := by
      refine exists_like ?_ hpush
      rw [← Def.push_relabel c.plain, ← Def.push_relabel c.plain', he, hlike]
    obtain ⟨e', hpush', he'⟩ := hpush'
    refine .inl ⟨(), _, pushMember_of_push hframes' hpush', ?_, hlike⟩
    exact { hss' with frames := congrArg₂ List.cons he' hrest }
  · intro s a t hs _ h hlost
    obtain ⟨d, rest, d', hframes, hpush, rfl⟩ := pushMember_eq_ok h
    rw [hframes] at hs hlost
    have hunmarked := Def.unmarked_of_push (hs.scope d (mem_cons_self ..)) hpush
    refine .inl (marked_cons.2 ?_)
    rcases hlost with hmarked | hmarked
    · exact (marked_cons.1 hmarked).imp_left fun hd hd' => hd (hunmarked hd').1
    · exact .inl fun hd' => hmarked (hunmarked hd').2

/-- The number of open scopes is known. -/
def level (n : Nat) : Facts := { first := fun frames => frames.length = n }

/-- **What is known of a definition that is to be added.** -/
def Pairing.made (_ : Pairing c ctx ctx') (n : Nat) : Post Def :=
  ⟨fun d frames => frames.length = n ∧ Admits ctx frames d, c.DefLike, fun d => ¬ d.Unmarked⟩

/-- **What is known after a statement**: the number of open scopes, and that its results are alike. -/
def Comparison.stated (c : Comparison files) (n : Nat) : Post (Option Def) :=
  ⟨fun _ frames => frames.length = n, fun r r' => r.map (Def.relabel c.left) = r'.map (Def.relabel c.right),
    fun _ => False⟩

/-- **A statement is read again** by the second reading. -/
abbrev Restates (p : Pairing c ctx ctx') (n : Nat) (x : Reading (Option Def)) : Prop :=
  Follows p (level n) x x (c.stated n)

theorem Comparison.DefLike.name_eq (h : c.DefLike d d') : d'.name = d.name := by
  have h := congrArg Def.name h
  rw [Def.name_relabel, Def.name_relabel] at h
  exact h.symm

theorem follows_define :
    Follows p ((p.made n).facts d d') (define d) (define d') (c.stated n) := by
  have hpush : Follows p ((p.made n).facts d d') (pushMember d d.name) (pushMember d' d'.name) _ :=
    follows_pushMember.pre (fun _ h => h) (fun h => ⟨h, Comparison.DefLike.name_eq h⟩) fun h => h
  exact hpush.bind fun _ _ => follows_pure (fun _ h => h) (fun h => congrArg some h) fun h => h

theorem follows_make {x x' : Except Fault Def} (hscope : ∀ d, x = .ok d → d.isScope = false)
    (hfirst : ∀ frames, Φ.first frames → frames.length = n)
    (hboth : Φ.both → x.toOption.map (Def.relabel c.left) = x'.toOption.map (Def.relabel c.right))
    (hlost : ∀ d, x = .ok d → Φ.lost → ¬ d.Unmarked) : Follows p Φ (ofExcept x) (ofExcept x') (p.made n) := by
  refine follows_ofExcept (fun d frames hd h => ⟨hfirst frames h, .of_not_isScope (hscope d hd)⟩)
    (fun d hd h => ?_) hlost
  obtain ⟨d', hd', hlike⟩ := exists_like (hboth h) hd
  exact ⟨d', hd', hlike⟩

/-! ### Simple statements -/

theorem repeats_newlinePos {pos : Nat} :
    Repeats p Φ (modify fun s => { s with newlinePos := pos } : Reading Unit) :=
  follows_modify (fun _ => rfl) fun _ _ h => { h with newlinePos := rfl }

theorem repeats_note : Repeats p Φ (note text) :=
  follows_modify (fun _ => rfl) fun _ _ h => { h with }

variable {n : Nat}
variable {first : Token} {h h' : Header} {name q : String} {s t s' : State} {d : Def} {rest frames : List Def}
  {y y' k k' : Reading β} {Ω : Post β}

theorem follows_none : Restates p n (pure none) :=
  follows_pure (fun _ h => h) (fun _ => rfl) fun h => h

theorem follows_readComment {source : String} : Restates p n (readComment source first) := by
  unfold readComment
  refine repeats_advance.next fun _ => repeats_expect.next fun _ => repeats_peek.next fun t => ?_
  split
  · exact follows_unexpected_bind
  · exact follows_read (follows_pushComment.next fun _ => repeats_newlinePos.next fun _ => follows_none)

theorem follows_readNewline : Restates p n (readNewline first) := by
  unfold readNewline
  refine repeats_advance.next fun _ => repeats_peek.next fun t => ?_
  split
  · exact follows_unexpected_bind
  · exact repeats_clearComments.next fun _ => repeats_newlinePos.next fun _ => follows_none

/-- **A definition without types** is alike if its header is. -/
theorem follows_define_of_header (make : Header → Def) (hscope : (make h).isScope = false)
    (hmake : ∀ h ρ, (make h).relabel ρ = make (ρ.header h)) :
    Follows p ((level n).and (c.left.header h = c.right.header h') False) (define (make h)) (define (make h'))
      (c.stated n) := by
  refine follows_define.pre (fun _ hfirst => ⟨hfirst, .of_not_isScope hscope⟩) (fun hboth => ?_) fun hlost => ?_
  · change (make h).relabel c.left = (make h').relabel c.right
    rw [hmake, hmake, hboth.1]
  · exact (lost_of_and hlost).elim

theorem follows_readOption : Restates p n (readOption first) := by
  refine repeats_advance.next fun _ => repeats_expectName.next fun _ => plain_readDotted.repeats.next fun _ =>
    repeats_expectSymbol.next fun _ => plain_readOptionValue.repeats.next fun value =>
      plain_endStatement.repeats.next fun _ =>
      follows_makeHeader.andThen fun h h' => ?_
  exact follows_define_of_header (fun h => .option h (some value.kind) value) rfl fun _ _ => rfl

theorem follows_readConst : Restates p n (readConst first) := by
  refine repeats_advance.next fun _ => repeats_expectName.next fun _ => repeats_expectSymbol.next fun _ =>
    plain_readConstantValue.repeats.next fun value => plain_endStatement.repeats.next fun _ =>
      follows_makeHeader.andThen fun h h' => ?_
  exact follows_define_of_header (fun h => .constant h (some value.kind) value) rfl fun _ _ => rfl

/-- What is known once the type and the header of a definition have been read. -/
abbrev Pairing.headed (_ : Pairing c ctx ctx') (n : Nat) (t t' : Ty) (h h' : Header) : Facts :=
  ((level n).and (c.TyLike t t') (¬ t.Unmarked)).and (c.left.header h = c.right.header h') False

theorem makeAlias_eq_ok {t : Ty} (hd : makeAlias h t = .ok d) : d = .typeAlias h t := by
  unfold makeAlias at hd
  split at hd
  · cases hd
  · exact (Except.ok.inj hd).symm

theorem makeEnumField_eq_ok {value : Int} (hd : makeEnumField h value = .ok d) : d = .enumField h value.toNat := by
  unfold makeEnumField at hd
  split at hd
  · exact (Except.ok.inj hd).symm
  · cases hd

theorem makeField_eq_ok {t : Ty} {number : Int} (hd : makeField h t number = .ok d) : d = .field h t number.toNat := by
  unfold makeField at hd
  split at hd
  · exact (Except.ok.inj hd).symm
  · cases hd

theorem follows_defineAlias {t t' : Ty} :
    Follows p (p.headed n t t' h h') (do define (← ofExcept (makeAlias h t))) (do define (← ofExcept (makeAlias h' t')))
      (c.stated n) := by
  refine (follows_make (fun d hd => ?_) (fun _ hfirst => hfirst) (fun hboth => ?_) fun d hd hlost => ?_).bind fun _ _ =>
    follows_define
  · rw [makeAlias_eq_ok hd]
    rfl
  · rw [← makeAlias_relabel, ← makeAlias_relabel, hboth.1, hboth.2.1]
  · rw [makeAlias_eq_ok hd]
    exact (lost_of_and hlost).resolve_right id

theorem follows_readAlias : Restates p n (readAlias first) := by
  refine repeats_advance.next fun _ => repeats_expectName.next fun _ => repeats_expectSymbol.next fun _ =>
    follows_readType.andThen fun r r' => plain_endStatement.repeats.next fun _ =>
      follows_makeHeader.andThen fun h h' => ?_
  exact follows_defineAlias.pre (fun _ h => h) (fun h => ⟨h.1, h.2.1.1, h.2.2⟩) fun h => h

theorem follows_readTypedef : Restates p n (readTypedef first) := by
  refine repeats_advance.next fun _ => follows_readType.andThen fun r r' => repeats_expectName.next fun _ =>
    plain_endStatement.repeats.next fun _ => repeats_note.next fun _ => follows_makeHeader.andThen fun h h' => ?_
  exact follows_defineAlias.pre (fun _ h => h) (fun h => ⟨h.1, h.2.1.1, h.2.2⟩) fun h => h

theorem follows_readEnumField {named : Token} : Restates p n (readEnumField name named) := by
  refine repeats_expectSymbol.next fun _ => repeats_expect.next fun ⟨value, _⟩ =>
    plain_endStatement.repeats.next fun _ =>
    follows_makeHeader.andThen fun h h' => ?_
  refine (follows_make (fun d hd => ?_) (fun _ hfirst => hfirst) (fun hboth => ?_) fun d hd hlost => ?_).bind fun _ _ =>
    follows_define.bind fun _ _ => follows_pure (fun _ h => h) (fun _ => rfl) fun h => h
  · rw [makeEnumField_eq_ok hd]
    rfl
  · rw [← makeEnumField_relabel, ← makeEnumField_relabel, hboth.1]
  · exact (lost_of_and hlost).elim

/-- **A message field** with a type that has been read. -/
theorem follows_readField {t t' : Ty} :
    Follows p ((level n).and (c.TyLike t t') (¬ t.Unmarked)) (readField t first) (readField t' first) (c.stated n) := by
  refine repeats_expectName.next fun _ => repeats_expectSymbol.next fun _ => repeats_expect.next fun ⟨number, _⟩ =>
    plain_endStatement.repeats.next fun _ => follows_makeHeader.andThen fun h h' => ?_
  refine (follows_make (fun d hd => ?_) (fun _ hfirst => hfirst) (fun hboth => ?_) fun d hd hlost => ?_).bind fun _ _ =>
    follows_define
  · rw [makeField_eq_ok hd]
    rfl
  · rw [← makeField_relabel, ← makeField_relabel, hboth.1, hboth.2.1]
  · rw [makeField_eq_ok hd]
    exact (lost_of_and hlost).resolve_right id

theorem follows_readTypedField : Restates p n (readType >>= fun r => readField r.1 r.2) := by
  refine follows_readType.andThen fun ⟨t, first⟩ ⟨t', first'⟩ => ?_
  have hfield : Follows p ((level n).and (c.TyLike t t) (¬ t.Unmarked)) (readField t first) (readField t first)
      (c.stated n) := follows_readField
  refine .of_both (fun hboth => ?_) (hfield.pre (fun _ h => h) (fun h => h.elim) fun h => h)
  obtain ⟨⟨_, rfl⟩, _⟩ := hboth
  exact follows_readField.pre (fun _ h => h) (fun h => ⟨h.1.1, h.2⟩) fun h => h

/-! ### The name of the file -/

theorem replaceScope_run {d' : Def} (h : s.frames = d :: rest) :
    replaceScope d' ctx s = (.ok (), { s with frames := d' :: rest }) := by
  obtain ⟨frames⟩ := s
  subst h
  rfl

theorem follows_rename {ms ms' : Members} {cs cs' : List Comment} :
    Follows p ⟨fun frames => frames.head? = some (.proto h ms) ∧ frames.length = n,
        c.left.comments cs = c.right.comments cs' ∧ c.DefLike (.proto h ms) (.proto h' ms'), False⟩
      (replaceScope (.proto { h with name, comments := cs } ms))
      (replaceScope (.proto { h' with name, comments := cs' } ms')) (level n).same := by
  have hcons {frames : List Def} (hframes : frames.head? = some (.proto h ms)) :
      ∃ rest, frames = .proto h ms :: rest := by
    obtain ⟨rest, hrest⟩ := head?_eq_some_iff.1 hframes
    exact ⟨rest, hrest⟩
  refine .of_run ?_ ?_ ?_
  · intro s u t hs hfirst hrun
    obtain ⟨rest, hframes⟩ := hcons hfirst.1
    rw [replaceScope_run hframes] at hrun
    cases hrun
    rw [hframes] at hs hfirst
    exact ⟨hs.replace rfl ⟨rfl, rfl⟩ (hs.given (.proto h ms) (mem_cons_self ..)) fun _ => id, hfirst.2⟩
  · intro s s' u t _ hfirst hss' hboth hrun
    obtain ⟨rest, hframes⟩ := hcons hfirst.1
    rw [replaceScope_run hframes] at hrun
    cases hrun
    obtain ⟨d', rest', hframes', -, hrest⟩ := hss'.cons hframes
    refine .inl ⟨(), _, replaceScope_run hframes', ?_, rfl, trivial⟩
    refine { hss' with frames := ?_ }
    obtain ⟨hcomments, hlike⟩ := hboth
    injection hlike with hheader hmembers
    injection hheader with horigin hid _ hscopes _ hindent hbound hfrozen
    simp only [map_cons, Def.relabel, Relabeling.header, horigin, hid, hscopes, hindent, hbound, hfrozen, hcomments,
      hmembers, hrest]
  · intro s u t _ hfirst hrun hlost
    obtain ⟨rest, hframes⟩ := hcons hfirst.1
    rw [replaceScope_run hframes] at hrun
    cases hrun
    rw [hframes, marked_cons] at hlost
    exact .inl (marked_cons.2 (hlost.resolve_right id))

theorem follows_readProto : Restates p n (readProto first) := by
  unfold readProto
  refine repeats_advance.next fun _ => repeats_expectName.next fun ⟨name, _⟩ => plain_endStatement.repeats.next fun _ =>
    follows_currentScope.bind fun d d' => ?_
  cases d with
  | proto h ms =>
    -- while the second reading follows, its innermost scope is a file as well
    have hname (h' : Header) (ms' : Members) : Follows p
        ⟨fun frames => frames.head? = some (.proto h ms) ∧ frames.length = n,
          c.DefLike (.proto h ms) (.proto h' ms') ∧ True,
          False⟩
        (do replaceScope (.proto { h with name, comments := ← collectComments } ms); return none)
        (do replaceScope (.proto { h' with name, comments := ← collectComments } ms'); return none) (c.stated n) := by
      refine follows_collectComments.andThen fun cs cs' => Follows.next ?_ fun _ => follows_none
      exact follows_rename.pre (fun _ h => h) (fun h => ⟨h.1, h.2.1⟩) fun h => h.elim id id
    refine .of_both (fun hboth => ?_) ((hname h ms).pre (fun _ h => h) (fun h => h.elim) fun h => h)
    cases d' with
    | proto h' ms' => exact hname h' ms'
    | _ => cases hboth.1
  | _ => exact follows_failAt

/-! ### Scopes that are opened and closed -/

theorem Steady.open (h : Steady ctx frames) (hne : frames ≠ []) (hscope : d.isScope = true)
    (hkind : d.scopeKind? ≠ some .proto) (hmembers : d.members = []) : Steady ctx (d :: frames) := by
  obtain ⟨e, rest, rfl⟩ := exists_cons_of_ne_nil hne
  refine ⟨forall_mem_cons.2 ⟨hscope, h.scope⟩, ?_, by simpa using h.file, ?_, by simpa using h.apart⟩
  · rw [dropLast_cons_of_ne_nil hne, forall_mem_cons]
    exact ⟨hkind, h.inner⟩
  · refine forall_mem_cons.2 ⟨fun m hm => ?_, h.given⟩
    rw [Def.within_eq, hmembers] at hm
    cases hm

/-- What is inside an open scope is open as well when the scopes inside it have been closed. -/
theorem Steady.tail (h : Steady ctx (d :: frames)) : Steady ctx frames := by
  cases frames with
  | nil => exact ⟨by simp, by simp, by simp, by simp, by simp⟩
  | cons e rest =>
    have hinner := h.inner
    rw [dropLast_cons_of_ne_nil (cons_ne_nil _ _), forall_mem_cons] at hinner
    exact ⟨(forall_mem_cons.1 h.scope).2, hinner.2, by simpa using h.file, (forall_mem_cons.1 h.given).2,
      by simpa using h.apart⟩

theorem follows_openScope {d' : Def}
    (hsteady : ∀ frames, Steady ctx frames → Φ.first frames → Steady ctx (d :: frames))
    (hfirst : ∀ frames, Φ.first frames → frames.length = n) (hboth : Φ.both → c.DefLike d d')
    (hlost : Φ.lost → ¬ d.Unmarked) : Follows p Φ (openScope d) (openScope d') (level (n + 1)).same := by
  refine .of_run ?_ ?_ ?_
  · intro s u t hs hf h
    cases h
    exact ⟨hsteady _ hs hf, congrArg (· + 1) (hfirst _ hf)⟩
  · intro s s' u t _ _ hss' hb h
    cases h
    refine .inl ⟨(), _, rfl, ?_, rfl, trivial⟩
    exact { hss' with frames := congrArg₂ List.cons (hboth hb) hss'.frames }
  · intro s u t _ _ h hl
    cases h
    exact .inl (marked_cons.2 (hl.symm.imp_left hlost))

theorem closeScope_of_cons (h : s.frames = d :: rest) :
    closeScope ctx s = (.ok d, { s with frames := rest }) := by
  obtain ⟨frames⟩ := s
  subst h
  rfl

theorem closeScope_eq_ok (h : closeScope ctx s = (.ok d, t)) :
    ∃ rest, s.frames = d :: rest ∧ t = { s with frames := rest } := by
  obtain ⟨e, u, he, _⟩ := bind_eq_ok h
  obtain ⟨rest, hframes⟩ := head?_eq_some_iff.1 (currentScope_eq_ok.1 he).1
  rw [closeScope_of_cons hframes] at h
  cases h
  exact ⟨rest, hframes, rfl⟩

/-- What is known of a scope that is closed. -/
abbrev Pairing.closes (_ : Pairing c ctx ctx') (n : Nat) : Post Def :=
  ⟨fun d frames => frames.length = n ∧ Steady ctx (d :: frames), c.DefLike, fun d => ¬ d.Unmarked⟩

/-- **A scope that is closed** in one reading is closed in the other. -/
theorem follows_closeScope : Follows p (level (n + 1)) closeScope closeScope (p.closes n) := by
  refine .of_run ?_ ?_ ?_
  · intro s d t hs hfirst h
    obtain ⟨rest, hframes, rfl⟩ := closeScope_eq_ok h
    rw [hframes] at hs hfirst
    exact ⟨hs.tail, Nat.succ.inj hfirst, hs⟩
  · intro s s' d t _ _ hss' _ h
    obtain ⟨rest, hframes, rfl⟩ := closeScope_eq_ok h
    obtain ⟨d', rest', hframes', hlike, hrest⟩ := hss'.cons hframes
    refine .inl ⟨d', _, closeScope_of_cons hframes', ?_, hlike⟩
    exact { hss' with frames := hrest }
  · intro s d t _ _ h hlost
    obtain ⟨rest, hframes, rfl⟩ := closeScope_eq_ok h
    rw [hframes, marked_cons] at hlost
    exact (hlost.resolve_right id).symm

theorem Steady.freeze (h : Steady ctx (d :: rest)) : Steady ctx (d.freeze :: rest) := by
  have hgiven := h.given d (mem_cons_self ..)
  refine h.replace (d.scopeKind?_withHeader _) ?_ ?_ fun _ hapart => ?_
  · rw [d.header_freeze]
    exact ⟨rfl, rfl⟩
  · cases d <;> exact hgiven
  · cases d <;> exact hapart

theorem Comparison.DefLike.freeze (h : c.DefLike d d') : c.DefLike d.freeze d'.freeze := by
  rw [DefLike, Def.freeze_relabel, Def.freeze_relabel]
  exact congrArg Def.freeze h

theorem Def.unmarked_freeze : d.freeze.Unmarked ↔ d.Unmarked := by
  cases d <;> exact Iff.rfl

/-- What is known of a scope that is closed is known of it when it is frozen. -/
theorem Follows.freeze {β : Type} {x x' : Reading β} {Ψ : Post β}
    (h : Follows p ((p.closes n).facts d.freeze d'.freeze) x x' Ψ) : Follows p ((p.closes n).facts d d') x x' Ψ :=
  h.pre (fun _ hd => ⟨hd.1, hd.2.freeze⟩) (fun hlike => Comparison.DefLike.freeze hlike)
    fun hlost => mt Def.unmarked_freeze.1 hlost

theorem follows_closeBody : Follows p (level (n + 1)) closeBody closeBody (c.stated n) := by
  unfold closeBody
  refine repeats_advance.next fun _ => repeats_peek.next fun t => ?_
  split
  · exact follows_unexpected_bind
  have hcheck (d d' : Def) : Follows p ((p.closes n).facts d d') (ofExcept d.checkClosed) (ofExcept d'.checkClosed)
      ⟨fun _ => (p.made n).first d, fun _ _ => c.DefLike d d', fun _ => ¬ d.Unmarked⟩ := by
    refine follows_ofExcept (fun _ frames _ h => ⟨h.1, .of_steady h.2⟩) (fun u hclosed hlike => ?_) fun _ _ h => h
    have hoption := congrArg (fun d => d.checkClosed.toOption) hlike
    rw [Def.checkClosed_relabel c.plain, Def.checkClosed_relabel c.plain', hclosed] at hoption
    cases hclosed' : d'.checkClosed with
    | error e => simp [hclosed', Except.toOption] at hoption
    | ok u' => exact ⟨u', rfl, hlike⟩
  exact follows_closeScope.bind fun d d' => ((hcheck d.freeze d'.freeze).bind fun _ _ => follows_define).freeze

theorem header_open (hheader : c.left.header h = c.right.header h') :
    c.left.header { h with frozen := false } = c.right.header { h' with frozen := false } :=
  congrArg (fun h : Header => { h with frozen := false }) hheader

theorem follows_openEnum (hn : 0 < n) :
    Follows p (level n) (openEnum first) (openEnum first) (level (n + 1)).same := by
  unfold openEnum
  refine repeats_advance.next fun _ => repeats_expectName.next fun _ => repeats_expectSymbol.next fun _ =>
    repeats_expect.next fun ⟨⟨source, cap⟩, tok⟩ => repeats_expectSymbol.next fun _ => repeats_peek.next fun t => ?_
  split
  · exact follows_unexpected_bind
  refine follows_makeHeader.andThen fun h h' => follows_read (follows_openScope (fun frames hs hf => ?_) (fun _ hf => hf)
    (fun hboth => ?_) fun hlost => (lost_of_and hlost).elim)
  · exact hs.open (ne_nil_of_length_pos (hf ▸ hn)) rfl (by simp [Def.scopeKind?]) rfl
  · simp only [Comparison.DefLike, Def.relabel, header_open hboth.1, c.origin _ _ p.near, membersRelabel]

theorem follows_openMessage (hn : 0 < n) :
    Follows p (level n) (openMessage first) (openMessage first) (level (n + 1)).same := by
  unfold openMessage
  refine repeats_advance.next fun _ => repeats_expectName.next fun _ => follows_readMark.andThen fun ext ext' =>
    repeats_expectSymbol.next fun _ => repeats_peek.next fun t => ?_
  split
  · exact follows_unexpected_bind
  refine follows_makeHeader.andThen fun h h' => follows_openScope (fun frames hs hf => ?_) (fun _ hf => hf)
    (fun hboth => ?_) fun hlost hunmarked => ?_
  · exact hs.open (ne_nil_of_length_pos (hf ▸ hn)) rfl (by simp [Def.scopeKind?]) rfl
  · obtain ⟨hheader, rfl, -⟩ := hboth
    simp only [Comparison.DefLike, Def.relabel, header_open hheader, membersRelabel, c.plain _, c.plain' _]
  · have hext : ext = true := (lost_of_and hlost).resolve_right id
    rw [hext] at hunmarked
    cases hunmarked.1

/-- **The same definitions may stand in a body.** -/
theorem follows_checkPlace {body : Body} {r r' : Option Def} :
    Follows p ((c.stated n).facts r r') (checkPlace body r) (checkPlace body r') (level n).same := by
  unfold checkPlace
  cases hr : r.bind body.refuses with
  | some fault =>
    refine follows_never fun s u t h => ?_
    obtain ⟨tok?, s', _, h⟩ := bind_eq_ok h
    split at h
    · cases h
    · exact unexpected_ne_ok _ _ _ h
  | none =>
    refine follows_pure_of (fun _ h => h) (fun hboth => ⟨(), ?_, rfl, trivial⟩) fun h => h
    have hnone (r : Option Def) (ρ : Relabeling) :
        ((r.map (Def.relabel ρ)).bind body.refuses).isNone = (r.bind body.refuses).isNone := by
      cases r with
      | none => rfl
      | some d => exact refuses_relabel body d
    have hr' : (r'.bind body.refuses).isNone = true := by
      rw [← hnone r' c.right, ← hboth, hnone r c.left, hr]
      rfl
    rw [Option.isNone_iff_eq_none.1 hr']

theorem follows_misplaced : Restates p n (readNamedItem.misplaced name first) :=
  follows_lookupType.andThen fun _ _ => follows_readArray.andThen fun _ _ => follows_readField

theorem follows_readNamedItem : Restates p n (readNamedItem name first) := by
  unfold readNamedItem
  refine repeats_advance.next fun _ => repeats_peek.next fun t => ?_
  split
  · exact follows_readEnumField
  · split
    · exact follows_readTypeReference.andThen fun _ _ => follows_readArray.andThen fun _ _ => follows_readField
    · split
      · exact follows_unexpected
      · split
        · exact follows_misplaced
        · exact follows_misplaced
        · exact follows_unexpected

/-! ### Imports -/

/-- **A question that must be answered with no**, before the reading goes on. -/
theorem follows_unless {x x' : Except Fault Bool} (hy : ∀ s b t, y ctx s ≠ (.ok b, t))
    (hy' : ∀ s b t, y' ctx' s ≠ (.ok b, t)) (hboth : x = .ok false → Φ.both → x' = .ok false ∨ c.Lax)
    (hk : x = .ok false → Follows p Φ k k' Ω) :
    Follows p Φ (ofExcept x >>= fun b => if b then y else k) (ofExcept x' >>= fun b => if b then y' else k') Ω := by
  have hrun {x : Except Fault Bool} {y k : Reading β} {ctx : Context} {s t : State} {b : β}
      (hy : ∀ s b t, y ctx s ≠ (.ok b, t)) (h : (ofExcept x >>= fun b => if b then y else k) ctx s = (.ok b, t)) :
      x = .ok false := by
    rcases x with e | (_ | _)
    · cases h
    · rfl
    · exact absurd h (hy s b t)
  by_cases hx : x = .ok false
  · subst hx
    refine Follows.mk fun hside hrun' => ?_
    by_cases hx' : x' = .ok false
    · subst hx'
      exact (hk rfl).run hside hrun'
    · refine (Follows.drop (hk rfl) (fun h => (hboth rfl h).resolve_left hx') ?_).run hside hrun'
      exact fun s b t h => hx' (hrun hy' h)
  · exact follows_never fun s b t h => hx (hrun hy h)

theorem failAt_bind_ne_ok {problem : Problem} {note token : String} {line : Nat} {f : α → Reading β} (s : State) (b : β)
    (t : State) : (failAt problem note token line >>= f) ctx s ≠ (.ok b, t) := by
  intro h
  obtain ⟨_, _, h, _⟩ := bind_eq_ok h
  cases h

theorem Pairing.importPath_eq (p : Pairing c ctx ctx') (q : String) :
    c.Lax ∨ files.importPath ctx'.path q = files.importPath ctx.path q := by
  refine c.strict.imp_right fun h => ?_
  rw [h.1 _ _ p.near]

/-- **A file is not being read**, before it is imported. -/
theorem follows_isBeingRead (hy : ∀ s b t, y ctx s ≠ (.ok b, t)) (hy' : ∀ s b t, y' ctx' s ≠ (.ok b, t))
    (hk : Follows p Φ k k' Ω) :
    Follows p Φ (do if ← isBeingRead (files.importPath ctx.path q) then y else k)
      (do if ← isBeingRead (files.importPath ctx'.path q) then y' else k') Ω := by
  simp only [isBeingRead, bind_assoc]
  refine follows_read (follows_unless hy hy' (fun hx _ => ?_) fun _ => hk)
  rcases p.paths with hlax | hpaths
  · exact .inr hlax
  rcases p.importPath_eq q with hlax | heq
  · exact .inr hlax
  refine .inl (anyM_eq_false.2 fun path hpath => ?_)
  have hsame := anyM_eq_false.1 hx path (hpaths path hpath)
  rw [p.files_eq] at hsame
  rw [heq, p.files_eq', hsame]

/-- **No imported file** is the one with a path. -/
def NoneAt (files : Files) (path : String) (frames : List Def) : Prop :=
  ∀ f ∈ frames.getLast?, ∀ m ∈ f.direct .proto, files.same m.2.header.origin.file path = .ok false

/-- **A file has not been imported before.** -/
theorem follows_isImported (hy : ∀ s b t, y ctx s ≠ (.ok b, t)) (hy' : ∀ s b t, y' ctx' s ≠ (.ok b, t))
    (hk : Follows p ⟨fun frames => NoneAt files (files.importPath ctx.path q) frames ∧ Φ.first frames, Φ.both, Φ.lost⟩
      k k' Ω) :
    Follows p Φ (do if ← isImported (files.importPath ctx.path q) then y else k)
      (do if ← isImported (files.importPath ctx'.path q) then y' else k') Ω := by
  simp only [isImported, bind_assoc]
  refine follows_read (follows_currentFile.bind fun f f' => follows_unless hy hy' (fun hx hboth => ?_) fun hx => ?_)
  · rcases p.importPath_eq q with hlax | heq
    · exact .inr hlax
    rcases c.strict with hlax | ⟨-, hfile⟩
    · exact .inr hlax
    refine .inl (anyM_eq_false.2 fun m hm => ?_)
    -- whatever the second reading has imported, the first one has imported by the same path
    have hdirect := congrArg (fun d => d.direct .proto) hboth.1
    simp only [Def.direct_relabel c.plain, Def.direct_relabel c.plain'] at hdirect
    have hmem : c.right.member m ∈ (f.direct .proto).map c.left.member := by
      rw [hdirect]
      exact mem_map_of_mem hm
    obtain ⟨e, he, hlike⟩ := mem_map.1 hmem
    have horigin := congrArg (fun m => m.2.header.origin) hlike
    simp only [Relabeling.member, Def.header_relabel, Relabeling.header] at horigin
    have hsame := anyM_eq_false.1 hx e he
    rw [p.files_eq] at hsame
    rw [heq, hfile _ _ horigin, p.files_eq', hsame]
  · refine hk.pre (fun frames h => ⟨fun g hg m hm => ?_, h.2⟩) (fun h => h.2) fun h => h
    obtain rfl : f = g := Option.some.inj (h.1.symm.trans hg)
    have hsame := anyM_eq_false.1 hx m hm
    rwa [p.files_eq] at hsame

theorem fresh_childStart (s : State) : s.childStart.Fresh := ⟨rfl, rfl, rfl, rfl, rfl⟩

theorem readChild_run {path : String} {child : State} {r : Except Fault Def}
    (h : ctx.readImport path (ctx.outer ++ s.frames.reverse.map frameRef) s.childStart = (r, child)) :
    readChild path ctx s = (r, s.afterChild child) := by
  have hscopes : scopes ctx s = (.ok (ctx.outer ++ s.frames.reverse.map frameRef), s) := rfl
  unfold readChild
  rw [bind_of_ok (a := ctx) (u := s) rfl, bind_of_ok (a := s) (u := s) rfl, bind_of_ok hscopes]
  rw [h]
  cases r <;> rfl

theorem Comparison.Match.childStart (h : c.Match s s') : c.Match s.childStart s'.childStart := by
  refine ⟨rfl, h.next, rfl, rfl, rfl, fun hc => ?_⟩
  obtain ⟨hcomments, -, -⟩ := h.comments hc
  simp only [State.childStart, hcomments, and_self]

theorem Comparison.Match.afterChild {child child' : State} (h : c.Match s s')
    (hnext : ∀ j, c.left.id (child.nextId + j) = c.right.id (child'.nextId + j))
    (hlent : c.Comments → child'.lent = child.lent) : c.Match (s.afterChild child) (s'.afterChild child') := by
  refine { h with next := hnext, comments := fun hc => ?_ }
  obtain ⟨hcomments, hattached, hlent'⟩ := h.comments hc
  simp only [State.afterChild, hcomments, hattached, hlent', hlent hc, and_self]

theorem readChild_eq_ok {path : String} (h : readChild path ctx s = (.ok d, t)) :
    ∃ child, ctx.readImport path (ctx.outer ++ s.frames.reverse.map frameRef) s.childStart = (.ok d, child) ∧
      t = s.afterChild child := by
  cases hrun : ctx.readImport path (ctx.outer ++ s.frames.reverse.map frameRef) s.childStart with
  | mk r child =>
    rw [readChild_run hrun] at h
    cases h
    exact ⟨child, rfl, rfl⟩

/-- **An imported file is read in both readings.** -/
theorem follows_readChild :
    Follows p Φ (readChild (files.importPath ctx.path q)) (readChild (files.importPath ctx'.path q))
      ⟨fun d frames => (∃ outer, Loaded files ctx.traditional (files.importPath ctx.path q) outer d ∧
          Given files ctx.traditional d) ∧ Φ.first frames,
        fun d d' => c.DefLike d d' ∧ Φ.both, fun d => ¬ d.Unmarked ∨ Φ.lost⟩ := by
  refine .of_run ?_ ?_ ?_
  · intro s d t hs hfirst h
    obtain ⟨child, hrun, rfl⟩ := readChild_eq_ok h
    exact ⟨hs, ⟨_, p.loaded _ _ _ _ _ (fresh_childStart s) hrun⟩, hfirst⟩
  · intro s s' d t _ _ hss' hboth h
    obtain ⟨child, hrun, rfl⟩ := readChild_eq_ok h
    have hfinishes := p.finishes q _ _ _ _ d child (p.outer.append hss'.refs) (fresh_childStart s) (fresh_childStart s')
      hss'.childStart hrun
    cases hrun' : ctx'.readImport (files.importPath ctx'.path q) (ctx'.outer ++ s'.frames.reverse.map frameRef)
        s'.childStart with
    | mk r' child' =>
      rw [hrun'] at hfinishes
      cases r' with
      | ok d' =>
        obtain ⟨hlike, hnext, hlent⟩ := hfinishes
        exact .inl ⟨d', _, readChild_run hrun', hss'.afterChild hnext hlent, hlike, hboth⟩
      | error e =>
        refine .inr ⟨⟨e, _, readChild_run hrun'⟩, hfinishes.imp_right fun h => ?_⟩
        exact ⟨h.1, .inr (.inl h.2)⟩
  · intro s d t _ _ h hlost
    obtain ⟨child, hrun, rfl⟩ := readChild_eq_ok h
    exact hlost.imp_right .inr

theorem importPath_run (q : String) (s : State) : importPath q ctx s = (.ok (ctx.files.importPath ctx.path q), s) := by
  unfold importPath Files.importPath
  rw [bind_of_ok (a := ctx) (u := s) rfl]
  split <;> rfl

theorem follows_importPath {f f' : String → Reading β}
    (h : Follows p Φ (f (files.importPath ctx.path q)) (f' (files.importPath ctx'.path q)) Ω) :
    Follows p Φ (importPath q >>= f) (importPath q >>= f') Ω := by
  refine ⟨fun {s o b t} hside hrun => ?_⟩
  rw [bind_of_ok (importPath_run q s), p.files_eq] at hrun
  have hend := h.run hside hrun
  cases o with
  | none => exact hend
  | some s' =>
    have hfollow : follow ctx' (importPath q >>= f') (some s') =
      follow ctx' (f' (files.importPath ctx'.path q)) (some s') := by
      simp only [follow, Option.bind_some, bind_of_ok (importPath_run q s'), p.files_eq']
    rw [hfollow]
    exact hend

theorem stat_ne_of_same {a b : String} (h : files.same a b = .ok false) : files.stat a ≠ files.stat b := by
  intro heq
  unfold Files.same at h
  rw [heq] at h
  cases hb : files.stat b with
  | error e => simp [hb, bind, Except.bind] at h
  | ok rb => simp [hb, bind, Except.bind, pure, Except.pure] at h

theorem Admits.of_loaded (p : Pairing c ctx ctx') {outer : List ScopeRef}
    (hloaded : Loaded files ctx.traditional (files.importPath ctx.path q) outer d)
    (hgiven : Given files ctx.traditional d)
    (hnew : NoneAt files (files.importPath ctx.path q) frames) : Admits ctx frames d := by
  refine ⟨?_, fun _ _ => ⟨?_, fun f hf m hm => ?_⟩⟩
  · rw [p.files_eq]
    exact hloaded.given
  · rw [p.files_eq]
    exact hgiven
  · rw [p.files_eq, hloaded.file]
    exact stat_ne_of_same (hnew f hf m hm)

theorem has_like {f f' : Def} (h : c.DefLike f f') (name : String) :
    Members.has f'.members name = Members.has f.members name := by
  have hmembers := congrArg (fun d => Members.has d.members name) h
  simp only [Def.members_relabel c.plain, Def.members_relabel c.plain', Def.has_relabel] at hmembers
  exact hmembers.symm

/-- **An import** adds the file that is read. -/
theorem follows_readImport : Restates p n (readImport first) := by
  unfold readImport
  refine repeats_advance.next fun _ => plain_readTarget.repeats.next fun ⟨alias?, q, second⟩ =>
    plain_endStatement.repeats.next fun _ =>
    follows_importPath (follows_isBeingRead failAt_bind_ne_ok failAt_bind_ne_ok
      (follows_isImported failAt_bind_ne_ok failAt_bind_ne_ok (follows_readChild.bind fun d d' =>
        follows_currentFile.bind fun f f' => ?_)))
  have hadd (name name' : String) : Follows p
      ⟨fun frames => frames.length = n ∧ Admits ctx frames d, c.DefLike d d' ∧ name' = name, ¬ d.Unmarked⟩
      (do pushMember d name; return some d) (do pushMember d' name'; return some d') (c.stated n) :=
    follows_pushMember.bind fun _ _ => follows_pure (fun _ h => h) (fun h => congrArg some h) fun h => h
  cases hhas : Members.has f.members (alias?.getD d.name) with
  | true => exact follows_never failAt_bind_ne_ok
  | false =>
    have hfirst (frames : List Def) (h : frames.getLast? = some f ∧
        (∃ outer, Loaded files ctx.traditional (files.importPath ctx.path q) outer d ∧ Given files ctx.traditional d) ∧
          NoneAt files (files.importPath ctx.path q) frames ∧ frames.length = n) :
        frames.length = n ∧ Admits ctx frames d := by
      obtain ⟨-, ⟨outer, hloaded, hgiven⟩, hnew, hlength⟩ := h
      exact ⟨hlength, .of_loaded p hloaded hgiven hnew⟩
    refine .of_both (fun hboth => ?_) ((hadd _ (alias?.getD d.name)).pre hfirst (fun h => h.elim) fun h =>
      h.resolve_right id)
    have hname : alias?.getD d'.name = alias?.getD d.name := by rw [hboth.2.1.name_eq]
    have hhas' : Members.has f'.members (alias?.getD d'.name) = false := by
      rw [hname, has_like hboth.1, hhas]
    rw [hhas']
    exact (hadd _ _).pre hfirst (fun h => ⟨h.2.1, hname⟩) fun h => h.resolve_right id

/-! ### Bodies -/

/-- **Statements and bodies**, which are read by turns. -/
theorem follows_readStatement_readBody (fuel : Nat) :
    (∀ n body, 0 < n → Restates p n (readStatement fuel body)) ∧
      ∀ n body, 0 < n → Follows p (level (n + 1)) (readBody fuel body) (readBody fuel body) (c.stated n) := by
  induction fuel with
  | zero => exact ⟨fun _ _ _ => follows_throw, fun _ _ _ => follows_throw⟩
  | succ fuel ih =>
    obtain ⟨hstatement, hbody⟩ := ih
    refine ⟨fun n body hn => ?_, fun n body hn => ?_⟩
    · unfold readStatement
      refine repeats_peek.next fun tok? => ?_
      cases tok? with
      | none => exact follows_unexpected
      | some tok =>
      dsimp only
      split
      · exact follows_readComment
      · exact follows_readNewline
      · split
        · exact follows_readProto
        · exact follows_readImport
        · exact follows_readOption
        · exact follows_readAlias
        · exact follows_readTypedef
        · exact follows_readConst
        · exact (follows_openEnum hn).next fun _ => hbody n .enum hn
        · exact (follows_openMessage hn).next fun _ => hbody n .message hn
      · split
        · exact follows_unexpected
        · exact follows_readNamedItem
        · exact follows_readTypedField
      -- the four built-in types, with which a field begins
      iterate 4
        · split
          · exact follows_unexpected
          · exact follows_readTypedField
      · exact follows_unexpected
    · unfold readBody
      refine repeats_peek.next fun tok? => ?_
      split
      · exact follows_closeBody
      · exact (hstatement (n + 1) body (Nat.succ_pos n)).bind fun r r' => follows_checkPlace.next fun _ =>
          hbody n body hn

theorem repeats_readStatements (fuel : Nat) : Repeats p (level 1) (readStatements fuel) := by
  induction fuel with
  | zero => exact follows_throw
  | succ fuel ih =>
    unfold readStatements
    refine repeats_peek.next fun tok? => ?_
    split
    · exact repeats_pure
    · refine ((follows_readStatement_readBody fuel).1 1 .file Nat.one_pos).bind fun _ _ => ?_
      exact ih.pre (fun _ h => h) (fun _ => trivial) fun h => h

/-! ### Files -/

theorem Steady.begin (hfile : h.origin.file = ctx.path) (hscopes : h.scopes = ctx.outer) :
    Steady ctx [.proto h []] := by
  refine ⟨by simp [Def.isScope, Def.scopeKind?], by simp, ?_, ?_, ?_⟩
  · intro d hd
    obtain rfl : Def.proto h [] = d := by simpa using hd
    exact ⟨rfl, hfile, hscopes⟩
  · intro d hd
    obtain rfl := mem_singleton.1 hd
    intro m hm
    cases hm
  · intro d hd
    obtain rfl : Def.proto h [] = d := by simpa using hd
    exact nodup_nil

theorem Steady.loaded (h : Steady ctx [d]) : Loaded ctx.files ctx.traditional ctx.path ctx.outer d := by
  obtain ⟨hkind, hfile, hscopes⟩ := h.file d (by simp)
  exact ⟨hkind, hfile, hscopes, h.given d (by simp), h.apart d (by simp)⟩

def closeFile (fault : Fault) : Reading Def := do
  let d ← closeScope
  if d.name.isEmpty then throw fault
  return d.freeze

/-- **What is known after a file**: its scope is closed again, and what is known of files is known of it. -/
def Comparison.closed (c : Comparison files) (ctx : Context) : Post Def :=
  ⟨fun d frames => frames = [] ∧ Loaded ctx.files ctx.traditional ctx.path ctx.outer d, c.DefLike, fun d => ¬ d.Unmarked⟩

theorem follows_closeFile {fault fault' : Fault} :
    Follows p (level 1) (closeFile fault) (closeFile fault') (c.closed ctx) := by
  refine follows_closeScope.bind fun d d' => ?_
  cases hname : d.name.isEmpty with
  | true =>
    refine follows_never fun s b t h => ?_
    obtain ⟨_, _, h, _⟩ := bind_eq_ok h
    cases h
  | false =>
    refine follows_pure_of (fun frames h => ?_) (fun hlike => ⟨d'.freeze, ?_, hlike.freeze⟩) (mt Def.unmarked_freeze.1)
    · obtain ⟨hlength, hsteady⟩ := h
      obtain rfl := length_eq_zero_iff.1 hlength
      exact ⟨rfl, hsteady.freeze.loaded⟩
    · rw [hlike.name_eq, hname]
      rfl

theorem follows_openFile {id id' : Nat} {sc sc' : List ScopeRef} :
    Follows p ⟨fun frames => sc = ctx.outer ++ frames.reverse.map frameRef ∧ frames = [],
        c.Outer sc sc' ∧ c.left.id id = c.right.id id' ∧ True, False ∨ False⟩
      (openScope (.proto { origin := { file := ctx.path }, id, scopes := sc, frozen := false } []))
      (openScope (.proto { origin := { file := ctx'.path }, id := id', scopes := sc', frozen := false } []))
        (level 1).same := by
  refine follows_openScope (fun frames _ hf => ?_) (fun frames hf => ?_) (fun hboth => ?_) fun hlost => ?_
  · obtain ⟨hsc, rfl⟩ := hf
    exact .begin rfl (hsc.trans (append_nil _))
  · obtain ⟨-, rfl⟩ := hf
    rfl
  · obtain ⟨hscopes, hid, -⟩ := hboth
    have hsc := hscopes [] [] rfl
    rw [append_nil, append_nil] at hsc
    simp only [Comparison.DefLike, Def.relabel, Relabeling.header, c.origin _ _ p.near, hid, hsc,
      c.comments [] [] fun _ => rfl, c.indent, Option.map_none, membersRelabel]
  · exact (or_self_iff.1 hlost).elim

/-- **A file is read in both readings.** -/
theorem follows_readFile :
    Follows p { first := fun frames => frames = [] } readFile readFile (c.closed ctx) := by
  unfold readFile
  refine repeats_peek.next fun tok? => ?_
  split
  · exact follows_unexpected_bind
  refine follows_read (follows_freshId.andThen fun id id' => follows_scopes.bind fun sc sc' => ?_)
  refine follows_openFile.next fun _ => ?_
  exact follows_rest
    (fun k => readStatements (2 * k + 2) >>= fun _ =>
      closeFile (.report { problem := .schemaNameMissing, file := ctx.path }))
    (fun k => readStatements (2 * k + 2) >>= fun _ =>
      closeFile (.report { problem := .schemaNameMissing, file := ctx'.path }))
    fun k => (repeats_readStatements _).next fun _ => follows_closeFile

theorem scanFrom_file (file file' : String) (before : Option Char) (line pos : Nat) (cs : List Char) :
    (Token.scanFrom file' before line pos cs).tokens = (Token.scanFrom file before line pos cs).tokens ∧
      (Token.scanFrom file' before line pos cs).failure.isNone =
        (Token.scanFrom file before line pos cs).failure.isNone := by
  fun_induction Token.scanFrom file before line pos cs with
  | case1 => simp [Token.scanFrom]
  | case2 before line pos c r hskip ih =>
    rw [Token.scanFrom, if_pos hskip]
    exact ih
  | case3 before line pos c r hskip problem note source hstep =>
    rw [Token.scanFrom, if_neg hskip, hstep]
    exact ⟨rfl, rfl⟩
  | case4 before line pos c r hskip fault hstep =>
    rw [Token.scanFrom, if_neg hskip, hstep]
    exact ⟨rfl, rfl⟩
  | case5 before line pos c r hskip lexeme more hstep source next ih =>
    rw [Token.scanFrom, if_neg hskip, hstep]
    simp only [dite_eq_ite] at ih
    exact ⟨congrArg (List.cons _) ih.1, ih.2⟩

theorem readText_of_ok (h : readFile ctx (s.begun ctx.path text) = (.ok d, t)) :
    readText text ctx s = (.ok d, t.ended) := by
  rw [readText, h]

theorem readText_of_error {f : Fault} (h : readFile ctx (s.begun ctx.path text) = (.error f, t)) :
    readText text ctx s = (.error f, { t.ended with frames := t.left ++ t.frames }) := by
  rw [readText, h]

/-- **A text is read** if its file is. -/
theorem readText_eq_ok (h : readText text ctx s = (.ok d, t)) :
    ∃ u, readFile ctx (s.begun ctx.path text) = (.ok d, u) ∧ t = u.ended := by
  cases hrun : readFile ctx (s.begun ctx.path text) with
  | mk r u =>
    cases r with
    | ok e =>
      rw [readText_of_ok hrun] at h
      cases h
      exact ⟨u, rfl, rfl⟩
    | error f =>
      rw [readText_of_error hrun] at h
      cases h

theorem Comparison.Match.begun (h : c.Match s s') (hline : s'.line = s.line) (text : String) :
    c.Match (s.begun ctx.path text) (s'.begun ctx'.path text) := by
  have hscan := scanFrom_file ctx.path ctx'.path none s.line 0 text.toList
  rw [← hline] at hscan
  refine { h with rest := ?_, ending := ?_ }
  · rw [State.begun, State.begun, ← hline]
    exact hscan.1
  · rw [State.begun, State.begun, ← hline]
    exact hscan.2

theorem Steady.nil : Steady ctx [] := ⟨by simp, by simp, by simp, by simp, by simp⟩

theorem loaded_readText (p : Pairing c ctx ctx') (hlax : c.Lax) (hs : s.Fresh)
    (h : readText text ctx s = (.ok d, t)) : Loaded ctx.files ctx.traditional ctx.path ctx.outer d := by
  have hframes : (s.begun ctx.path text).frames = [] := hs.frames
  have hside : p.Side { first := fun frames => frames = [] } (s.begun ctx.path text) none :=
    ⟨hframes ▸ Steady.nil, hframes, .inl hlax⟩
  obtain ⟨u, hrun, -⟩ := readText_eq_ok h
  exact (follows_readFile.run hside hrun).2.1.2

/-- **A text is read in both readings.** -/
theorem finishes_readText (p : Pairing c ctx ctx') (hs : s.Fresh) (hs' : s'.Fresh)
    (hss' : c.Match s s') (h : readText text ctx s = (.ok d, t)) :
    c.Finishes (Refuses ctx ctx' ∧ ¬ d.Unmarked) d t (readText text ctx' s') := by
  have hframes : (s.begun ctx.path text).frames = [] := hs.frames
  have hside : p.Side { first := fun frames => frames = [] } (s.begun ctx.path text) (some (s'.begun ctx'.path text)) :=
    ⟨hframes ▸ Steady.nil, hframes, hss'.begun (hs'.line.trans hs.line.symm) text, trivial⟩
  obtain ⟨u, hrun, rfl⟩ := readText_eq_ok h
  have hend := follows_readFile.run hside hrun
  cases hrun' : readFile ctx' (s'.begun ctx'.path text) with
  | mk r t' =>
    cases r with
    | ok d' =>
      rw [readText_of_ok hrun']
      rw [follow_of_ok hrun'] at hend
      obtain ⟨-, -, htt', hlike⟩ := hend
      exact ⟨hlike, htt'.next, fun hc => (htt'.comments hc).2.2⟩
    | error e =>
      rw [readText_of_error hrun']
      rw [follow_of_error hrun'] at hend
      obtain ⟨-, ⟨hclosed, -⟩, hexcused⟩ := hend
      refine hexcused.imp_right fun h => ⟨h.1, h.2.resolve_left ?_⟩
      rintro ⟨e, he, -⟩
      rw [hclosed] at he
      cases he

end Reading

/-! ### Files with all that they import -/

/-- **Files are compared as they are.** -/
def Reading.Comparison.exact (files : Files) (lax : Prop) : Reading.Comparison files where
  left := .same
  right := .same
  Lax := lax
  Comments := True
  Near p p' := p' = p
  plain _ := rfl
  plain' _ := rfl
  indent _ := rfl
  comments _ _ h := (h trivial).symm
  origin := by
    rintro p _ rfl token line
    rfl
  path _ _ h _ := h
  text := by
    rintro p _ text text' rfl h h'
    exact Except.ok.inj (h'.symm.trans h)
  child := by
    rintro p _ q _ _ rfl _ _
    rfl
  strict := .inr ⟨fun _ _ h => h, fun _ _ h => congrArg Origin.file h.symm⟩

theorem Reading.outer_exact {files : Files} {lax : Prop} (outer : List ScopeRef) :
    (Reading.Comparison.exact files lax).Outer outer outer := by
  intro refs refs' hrefs
  change refs.map Relabeling.same.ref = refs'.map Relabeling.same.ref at hrefs
  rw [Relabeling.map_same_ref, Relabeling.map_same_ref] at hrefs
  rw [hrefs]
  rfl

namespace Reader

open Reading

variable {files : Files} {traditional traditional' : Bool}

def contextAt (files : Files) (traditional : Bool) (depth : Nat) (paths : List String) (path : String)
    (outer : List ScopeRef) : Context :=
  { files, traditional, path, paths := paths ++ [path], outer
    readImport := readPath files traditional depth (paths ++ [path]) }

variable {depth : Nat} {paths : List String} {path : String} {outer : List ScopeRef} {s t : State} {d : Def}

theorem readPath_of_read (h : files.read path = .ok text) :
    readPath files traditional (depth + 1) paths path outer s =
      Reading.readText text (contextAt files traditional depth paths path outer) s := by
  rw [readPath, h]
  rfl

theorem readPath_of_error {f : Fault} (h : files.read path = .error f) :
    ∃ e, readPath files traditional depth paths path outer s = (.error e, s) := by
  cases depth with
  | zero => exact ⟨_, rfl⟩
  | succ depth =>
    refine ⟨f, ?_⟩
    rw [readPath, h]

theorem read_of_readPath (h : readPath files traditional depth paths path outer s = (.ok d, t)) :
    ∃ k text, depth = k + 1 ∧ files.read path = .ok text := by
  cases depth with
  | zero => cases h
  | succ k =>
    cases hread : files.read path with
    | error f =>
      obtain ⟨e, he⟩ := readPath_of_error hread
      rw [he] at h
      cases h
    | ok text => exact ⟨k, text, rfl, rfl⟩

/-- **What is known of files that have been read.** -/
theorem loaded_readPath (hdepth : depth ≤ files.reals.length + 1) (hs : s.Fresh)
    (h : readPath files traditional depth paths path outer s = (.ok d, t)) :
    Loaded files traditional path outer d := by
  induction depth generalizing paths path outer s t d with
  | zero => cases h
  | succ depth ih =>
    obtain ⟨_, text, -, hread⟩ := read_of_readPath h
    rw [readPath_of_read hread] at h
    -- the second reading gives up at the first import, for which it is excused
    let ctx := contextAt files traditional depth paths path outer
    let ctx' : Context := { ctx with readImport := fun _ _ s => (.error .noFile, s) }
    have p : Pairing (.exact files True) ctx ctx' :=
      { files_eq := rfl
        files_eq' := rfl
        near := rfl
        outer := outer_exact outer
        paths := .inl trivial
        loaded := fun path outer s d t hs hrun => by
          have hloaded := ih (Nat.le_of_succ_le hdepth) hs hrun
          refine ⟨hloaded, depth, paths ++ [ctx.path], s, t, Nat.le_of_succ_le hdepth, hs, ?_⟩
          rw [hloaded.file, hloaded.scopes]
          exact hrun
        finishes := fun _ _ _ _ _ _ _ _ _ _ _ _ => .inl trivial }
    exact loaded_readText p trivial hs h

theorem given_of_readPath (hdepth : depth ≤ files.reals.length + 1) (hs : s.Fresh)
    (h : readPath files traditional depth paths path outer s = (.ok d, t)) : Given files traditional d := by
  have hloaded := loaded_readPath hdepth hs h
  refine ⟨depth, paths, s, t, hdepth, hs, ?_⟩
  rw [hloaded.file, hloaded.scopes]
  exact h

/-- **Reading a file twice.**  If the first reading gives a file, then the second one gives a file that is alike, or
has an excuse. -/
theorem finishes_readPath (c : Comparison files) {depth' : Nat} {paths' : List String} {path' : String}
    {outer' : List ScopeRef} {s' : State} (hnear : c.Near path path') (houter : c.Outer outer outer')
    (hpaths : c.Lax ∨ (∀ p ∈ paths', p ∈ paths) ∧ depth ≤ depth') (hdepth : depth ≤ files.reals.length + 1)
    (hs : s.Fresh) (hs' : s'.Fresh) (hss' : c.Match s s')
    (h : readPath files traditional depth paths path outer s = (.ok d, t)) :
    c.Finishes ((traditional = false ∧ traditional' = true) ∧ ¬ d.Unmarked) d t
      (readPath files traditional' depth' paths' path' outer' s') := by
  induction depth generalizing depth' paths paths' path path' outer outer' s s' t d with
  | zero => cases h
  | succ depth ih =>
    obtain ⟨_, text, -, hread⟩ := read_of_readPath h
    rw [readPath_of_read hread] at h
    cases depth' with
    | zero => exact .inl (hpaths.resolve_right fun h => Nat.not_succ_le_zero _ h.2)
    | succ depth' =>
    cases hread' : files.read path' with
    | error f =>
      obtain ⟨e, he⟩ := readPath_of_error hread'
      rw [he]
      refine .inl (c.strict.resolve_right fun hstrict => ?_)
      rw [hstrict.1 _ _ hnear, hread] at hread'
      cases hread'
    | ok text' =>
    obtain rfl := c.text _ _ _ _ hnear hread hread'
    rw [readPath_of_read hread']
    have hpaths' : c.Lax ∨ (∀ p ∈ paths' ++ [path'], p ∈ paths ++ [path]) ∧ depth ≤ depth' := by
      rcases c.strict with hlax | hstrict
      · exact .inl hlax
      refine hpaths.imp_right fun h => ⟨fun p hp => ?_, Nat.le_of_succ_le_succ h.2⟩
      rw [hstrict.1 _ _ hnear] at hp
      rw [mem_append] at hp ⊢
      exact hp.imp_left (h.1 p)
    have p : Pairing c (contextAt files traditional depth paths path outer)
        (contextAt files traditional' depth' paths' path' outer') :=
      { files_eq := rfl
        files_eq' := rfl
        near := hnear
        outer := houter
        paths := hpaths'.imp_right And.left
        loaded := fun _ _ _ _ _ hs hrun =>
          ⟨loaded_readPath (Nat.le_of_succ_le hdepth) hs hrun, given_of_readPath (Nat.le_of_succ_le hdepth) hs hrun⟩
        finishes := by
          intro q outer outer' s s' d t houter hs hs' hss' hrun
          -- the imported files are near if both can be read
          obtain ⟨_, childText, -, hchild⟩ := read_of_readPath hrun
          cases hchild' : files.read (files.importPath path' q) with
          | ok childText' =>
            exact ih (c.child _ _ _ _ _ hnear hchild hchild') houter hpaths' (Nat.le_of_succ_le hdepth) hs hs' hss' hrun
          | error f =>
            change c.Finishes _ d t (readPath files traditional' depth' _ (files.importPath path' q) outer' s')
            obtain ⟨e, he⟩ := readPath_of_error hchild'
            rw [he]
            refine .inl (c.strict.resolve_right fun hstrict => ?_)
            have heq := hstrict.1 _ _ hnear
            rw [heq] at hchild'
            cases hchild.symm.trans hchild' }
    exact finishes_readText p hs hs' hss' h

end Reader

end BitSchema
