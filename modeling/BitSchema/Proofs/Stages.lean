import BitSchema.Proofs.Listing
import BitSchema.Reader

/-!
# Stages of reading

While a file is read, scopes are opened, get members and are closed.  `Reading.Reached` says which open scopes can be
reached, and with which next serial number, by doing so one step after another: a file is opened and gets its name, a
definition or an imported file becomes a member of the innermost scope, a scope is opened inside it or becomes a member
of the scope around it.

All that is true of files that are read is derived from these steps, each time by one induction:

* the outermost open scope is the file, and the others belong to it (`Reached.framed`),
* all open scopes are open in the sense of `Def.OpenIn`, so that complete ones are well-formed (`Reached.openIn`),
* what is listed so far is complete, and belongs to the file that it stands in (`Reached.complete`),
* serial numbers differ (`Reached.ids`),
* everything is defined before it is mentioned (`Reached.definedFirst`).
-/

namespace BitSchema

open List

/-! ### What can be read -/

/-- **Types that can be read** while scopes are open: built-in types of widths that exist, what a path of names leads
to from one of the open scopes, and arrays of these. -/
inductive Ty.Readable (mode : Bool) (frames : List Def) : Ty → Prop where
  | bool (o : Origin) : Readable mode frames (.bool o)
  | byte (o : Origin) : Readable mode frames (.byte o)
  | uint (o : Origin) {cap : Nat} (hcap : 0 < cap ∧ cap ≤ 64) : Readable mode frames (.uint o cap)
  | int (o : Origin) {cap : Nat} (hcap : cap = 8 ∨ cap = 16 ∨ cap = 32 ∨ cap = 64) : Readable mode frames (.int o cap)
  | array (o : Origin) {element : Ty} {cap : Nat} {ext : Bool} (he : Readable mode frames element)
      (hcap : 0 < cap ∧ cap < 65536) (helement : element.isElement = true) (hext : mode = true → ext = false) :
      Readable mode frames (.array o element cap ext)
  | named {frame d : Def} {names : List String} (hframe : frame ∈ frames) (hd : frame.member? names = some d)
      (htype : d.isType = true) : Readable mode frames (.named d)

/-- **Definitions that can be read** in one go while scopes are open: all but scopes. -/
inductive Def.Readable (mode : Bool) (frames : List Def) : Def → Prop where
  | option (h : Header) (value : Literal) : Readable mode frames (.option h (some value.kind) value)
  | constant (h : Header) (value : Literal) : Readable mode frames (.constant h (some value.kind) value)
  | typeAlias (h : Header) {target : Ty} (ht : target.Readable mode frames) (hnamed : target.isNamed = false) :
      Readable mode frames (.typeAlias h target)
  | enumField (h : Header) (value : Nat) : Readable mode frames (.enumField h value)
  | field (h : Header) {ty : Ty} {number : Nat} (ht : ty.Readable mode frames) (hnumber : 0 < number ∧ number < 256) :
      Readable mode frames (.field h ty number)

/-- **Scopes that are opened** inside a file: enums of widths that exist and messages, without members. -/
inductive Def.Opens (mode : Bool) : Def → Prop where
  | enum (h : Header) (o : Origin) {cap : Nat} (hcap : 0 < cap ∧ cap ≤ 64) : Opens mode (.enum h o cap [])
  | message (h : Header) {ext : Bool} (hext : mode = true → ext = false) : Opens mode (.message h ext [])

def Def.body : Def → Reading.Body
  | .enum _ _ _ _ => .enum
  | .message _ _ _ => .message
  | _ => .file

/-- The kind of an option or constant is the kind of its value. -/
def Def.Typed : Def → Prop
  | .option _ k v => k = some v.kind
  | .constant _ k v => k = some v.kind
  | _ => True

/-- The file that a definition belongs to; for a file, the file itself. -/
def Def.home (d : Def) : Nat := d.header.bound.getD d.id

/-- Nothing stands in a scope that may not stand there. -/
def Def.Admits (d : Def) : Prop := ∀ m ∈ d.members, d.body.refuses m.2 = none

theorem Def.Admits.freeze {d : Def} (h : d.Admits) : d.freeze.Admits := by
  cases d <;> exact h

namespace Reading

/-- **The header of something new** inside open scopes: it has the next serial number, belongs to the file, and lists
the scopes. -/
structure IsNext (outer : List ScopeRef) (file : Nat) (frames : List Def) (next : Nat) (h : Header) : Prop where
  id : h.id = next
  bound : h.bound = some file
  scopes : h.scopes = outer ++ frames.reverse.map frameRef

/-- **The header of something complete** from the start. -/
structure IsMade (outer : List ScopeRef) (file : Nat) (frames : List Def) (next : Nat) (h : Header) : Prop
    extends IsNext outer file frames next h where
  frozen : h.frozen = true

/-- **Stages of reading** the file with serial number `file` inside the scopes `outer`: the scopes that are open,
innermost first, and the next serial number. -/
inductive Reached (mode : Bool) : List ScopeRef → Nat → List Def → Nat → Prop where
  /-- A file is opened. -/
  | start {outer : List ScopeRef} {h : Header} (hbound : h.bound = none) (hscopes : h.scopes = outer) :
      Reached mode outer h.id [.proto h []] (h.id + 1)
  /-- The innermost scope gets another header: the file gets its name, or the scope is frozen. -/
  | rehead {outer : List ScopeRef} {file next : Nat} {d : Def} {h : Header} {frames : List Def}
      (before : Reached mode outer file (d :: frames) next) (hid : h.id = d.id) (hbound : h.bound = d.header.bound)
      (hscopes : h.scopes = d.header.scopes) : Reached mode outer file (d.withHeader h :: frames) next
  /-- A definition becomes a member of the innermost scope. -/
  | define {outer : List ScopeRef} {file next : Nat} {d d' member : Def} {frames : List Def}
      (before : Reached mode outer file (d :: frames) next) (hread : member.Readable mode (d :: frames))
      (hnext : IsMade outer file (d :: frames) next member.header) (hpush : d.push member member.name = .ok d') :
      Reached mode outer file (d' :: frames) (next + 1)
  /-- An imported file that is frozen becomes a member of the innermost scope. -/
  | importFile {outer : List ScopeRef} {file next next' : Nat} {d d' child : Def} {frames : List Def} {name : String}
      (before : Reached mode outer file (d :: frames) next)
      (himport : Reached mode (outer ++ (d :: frames).reverse.map frameRef) next [child] next') (hname : name ≠ "")
      (hfrozen : child.header.frozen = true) (hpush : d.push child name = .ok d') :
      Reached mode outer file (d' :: frames) next'
  /-- A scope is opened inside the innermost one. -/
  | openScope {outer : List ScopeRef} {file next : Nat} {d : Def} {frames : List Def}
      (before : Reached mode outer file frames next) (hopens : d.Opens mode)
      (hnext : IsNext outer file frames next d.header) :
      Reached mode outer file (d :: frames) (next + 1)
  /-- The innermost scope is complete and frozen and becomes a member of the one around it. -/
  | closeScope {outer : List ScopeRef} {file next : Nat} {d e e' : Def} {frames : List Def}
      (before : Reached mode outer file (d :: e :: frames) next) (hadmits : d.Admits)
      (hfrozen : d.header.frozen = true) (hclosed : d.checkClosed = .ok ())
      (hpush : e.push d d.name = .ok e') : Reached mode outer file (e' :: frames) next

variable {mode : Bool} {outer : List ScopeRef} {file next : Nat} {frames : List Def}

theorem Reached.freeze {d : Def} (h : Reached mode outer file (d :: frames) next) :
    Reached mode outer file (d.freeze :: frames) next :=
  h.rehead rfl rfl rfl

/-- **A file has been read** to its end: it has a name and is frozen. -/
structure IsRead (mode : Bool) (outer : List ScopeRef) (file : Nat) (d : Def) (next : Nat) : Prop where
  reached : Reached mode outer file [d] next
  name : d.name ≠ ""
  frozen : d.header.frozen = true

/-! ### The open scopes -/

structure IsFile (file : Nat) (d : Def) : Prop where
  kind : d.scopeKind? = some .proto
  id_eq : d.id = file
  bound : d.header.bound = none

/-- A scope inside a file belongs to it. -/
structure IsInner (file : Nat) (d : Def) : Prop where
  scope : d.isScope = true
  kind : d.scopeKind? ≠ some .proto
  bound : d.header.bound = some file

/-- **The outermost open scope is the file**, and the others stand inside it. -/
def Framed (file : Nat) : List Def → Prop
  | [] => False
  | [d] => IsFile file d
  | d :: e :: frames => IsInner file d ∧ Framed file (e :: frames)

variable {d d' member : Def} {name : String}

theorem Framed.cons (h : Framed file frames) (hd : IsInner file d) : Framed file (d :: frames) := by
  cases frames with
  | nil => exact h.elim
  | cons e frames => exact ⟨hd, h⟩

/-- Only the kinds and headers of open scopes matter, and not all that headers say. -/
theorem Framed.replace (h : Framed file (d :: frames)) (hkind : d'.scopeKind? = d.scopeKind?) (hid : d'.id = d.id)
    (hbound : d'.header.bound = d.header.bound) : Framed file (d' :: frames) := by
  cases frames with
  | nil => exact ⟨hkind.trans h.kind, hid.trans h.id_eq, hbound.trans h.bound⟩
  | cons e frames =>
    refine ⟨⟨?_, hkind ▸ h.1.kind, hbound.trans h.1.bound⟩, h.2⟩
    rw [Def.isScope, hkind]
    exact h.1.scope

theorem Framed.isScope (h : Framed file frames) : ∀ d ∈ frames, d.isScope = true := by
  induction frames with
  | nil => exact h.elim
  | cons d frames ih =>
    intro e he
    cases frames with
    | nil =>
      rw [mem_singleton.1 he, Def.isScope, h.kind]
      rfl
    | cons d' frames =>
      rcases mem_cons.1 he with rfl | he
      · exact h.1.scope
      · exact ih h.2 e he

theorem Framed.getLast? (h : Framed file frames) : ∃ d, frames.getLast? = some d ∧ IsFile file d := by
  induction frames with
  | nil => exact h.elim
  | cons d frames ih =>
    cases frames with
    | nil => exact ⟨d, rfl, h⟩
    | cons e frames =>
      rw [getLast?_cons_cons]
      exact ih h.2

/-- Adding a member changes neither the kind of a scope nor its header. -/
theorem scopeKind?_of_push (h : d.push member name = .ok d') :
    d'.scopeKind? = d.scopeKind? := by
  obtain ⟨-, -, -, -, rfl⟩ := Def.push_eq_ok h
  cases d <;> rfl

theorem header_of_push (h : d.push member name = .ok d') :
    d'.header = d.header := by
  obtain ⟨-, -, -, -, rfl⟩ := Def.push_eq_ok h
  exact d.header_withMembers _

theorem id_of_push (h : d.push member name = .ok d') : d'.id = d.id :=
  congrArg Header.id (header_of_push h)

theorem Framed.push (h : Framed file (d :: frames)) (hpush : d.push member name = .ok d') :
    Framed file (d' :: frames) := by
  exact h.replace (scopeKind?_of_push hpush) (id_of_push hpush) (congrArg Header.bound (header_of_push hpush))

theorem Reached.framed (h : Reached mode outer file frames next) : Framed file frames := by
  induction h with
  | start hbound _ => exact ⟨rfl, rfl, hbound⟩
  | @rehead _ _ _ d h _ _ hid hbound _ ih =>
    exact ih.replace (d.scopeKind?_withHeader h) ((d.id_withHeader h).trans hid) (by rw [d.header_withHeader, hbound])
  | define _ _ _ hpush ih => exact ih.push hpush
  | importFile _ _ _ _ hpush ih _ => exact ih.push hpush
  | openScope _ hopens hnext ih =>
    refine ih.cons ⟨?_, ?_, hnext.bound⟩
    all_goals cases hopens <;> simp [Def.isScope, Def.scopeKind?]
  | closeScope _ _ _ _ hpush ih => exact ih.2.push hpush

theorem Reached.isScope (h : Reached mode outer file (d :: frames) next) : d.isScope = true :=
  h.framed.isScope d (mem_cons_self ..)

theorem forall_members_push {P : String × Def → Prop} (hscope : d.isScope = true)
    (hpush : d.push member name = .ok d') (hd : ∀ m ∈ d.members, P m) (hmember : P (name, member)) :
    ∀ m ∈ d'.members, P m := by
  obtain ⟨-, -, -, -, rfl⟩ := Def.push_eq_ok hpush
  rw [Def.members_withMembers hscope]
  exact forall_mem_append.2 ⟨hd, fun m hm => mem_singleton.1 hm ▸ hmember⟩

/-! ### Well-formed definitions -/

end Reading

variable {mode : Bool} {frames : List Def}

variable {d : Def}

theorem Ty.Readable.wellFormedIn {t : Ty} (hframes : ∀ d ∈ frames, d.OpenIn mode) (h : t.Readable mode frames) :
    t.WellFormedIn mode := by
  induction h with
  | bool o => exact ⟨trivial, fun _ => trivial⟩
  | byte o => exact ⟨trivial, fun _ => trivial⟩
  | uint o hcap => exact ⟨hcap, fun _ => trivial⟩
  | int o hcap => exact ⟨hcap, fun _ => trivial⟩
  | array o _ hcap helement hext ih => exact ⟨⟨hcap.1, hcap.2, helement, ih.1⟩, fun hmode => ⟨hext hmode, ih.2 hmode⟩⟩
  | named hframe hd htype =>
    have hwf := Def.of_member? (fun _ => Def.WellFormedIn.members) (hframes _ hframe).members_wellFormedIn hd
    exact ⟨⟨htype, hwf.1⟩, hwf.2⟩

theorem Def.Readable.wellFormedIn (hframes : ∀ d ∈ frames, d.OpenIn mode) (h : d.Readable mode frames) :
    d.WellFormedIn mode := by
  cases h with
  | option h value => exact ⟨trivial, fun _ => trivial⟩
  | constant h value => exact ⟨trivial, fun _ => trivial⟩
  | typeAlias h ht hnamed => exact ⟨⟨hnamed, (ht.wellFormedIn hframes).1⟩, (ht.wellFormedIn hframes).2⟩
  | enumField h value => exact ⟨trivial, fun _ => trivial⟩
  | field h ht hnumber => exact ⟨⟨hnumber.1, hnumber.2, (ht.wellFormedIn hframes).1⟩, (ht.wellFormedIn hframes).2⟩

theorem Def.Readable.within_eq (h : d.Readable mode frames) : d.within .definition = [] := by
  cases h <;> rfl

theorem Def.Readable.typed (h : d.Readable mode frames) : d.Typed := by
  cases h <;> first | rfl | trivial

theorem Def.Readable.scopeKind?_ne (h : d.Readable mode frames) : d.scopeKind? ≠ some .proto := by
  cases h <;> simp [scopeKind?]

theorem Def.typed_of_isScope (h : d.isScope = true) : d.Typed := by
  cases d <;> trivial

theorem Def.Opens.openIn (h : d.Opens mode) : d.OpenIn mode := by
  cases h with
  | enum h o hcap => exact ⟨.empty rfl (fun _ _ _ _ heq => by cases heq; exact hcap) rfl, fun _ => trivial⟩
  | message h hext => exact ⟨.empty rfl (fun _ _ _ _ heq => by cases heq) rfl, fun hmode => ⟨hext hmode, trivial⟩⟩

theorem Def.Sound.withHeader (hsound : d.Sound) (h : Header) : (d.withHeader h).Sound := by
  cases d <;> refine ⟨hsound.names, hsound.options, ?_, ?_⟩
  case enum.refine_1 =>
    rintro _ _ _ _ ⟨⟩
    exact hsound.values _ _ _ _ rfl
  case message.refine_2 =>
    rintro _ _ _ ⟨⟩
    exact hsound.numbers _ _ _ rfl
  all_goals
    intros
    contradiction

theorem Def.OpenIn.withHeader (hopen : d.OpenIn mode) (h : Header) : (d.withHeader h).OpenIn mode := by
  have hwidth : ∀ h' o cap ms, d.withHeader h = .enum h' o cap ms → 0 < cap ∧ cap ≤ 64 := by
    cases d <;> rintro _ _ _ _ ⟨⟩
    exact hopen.width _ _ _ _ rfl
  have hsound := hopen.sound.withHeader h
  cases d <;> exact ⟨⟨hopen.scope, hwidth, hsound, hopen.members⟩, hopen.unmarked⟩

theorem Reading.IsFile.checkClosed {file : Nat} (h : IsFile file d) : d.checkClosed = .ok () := by
  have hkind := h.kind
  cases d <;> first | rfl | simp [Def.scopeKind?] at hkind

namespace Reading

variable {file next : Nat}

variable {d : Def}

/-- **All open scopes are open**, so complete ones are well-formed. -/
theorem Reached.openIn (h : Reached mode outer file frames next) : ∀ d ∈ frames, d.OpenIn mode := by
  induction h with
  | start hbound _ =>
    intro d hd
    rw [mem_singleton.1 hd]
    exact ⟨.empty rfl (by intros; contradiction) rfl, fun _ => trivial⟩
  | rehead _ _ _ _ ih => exact forall_mem_cons.2 ⟨(ih _ (mem_cons_self ..)).withHeader _, (forall_mem_cons.1 ih).2⟩
  | define _ hread _ hpush ih =>
    obtain ⟨hd, hframes⟩ := forall_mem_cons.1 ih
    exact forall_mem_cons.2 ⟨(hd.push (hread.wellFormedIn ih) hpush).1, hframes⟩
  | importFile _ himport _ _ hpush ih ihchild =>
    obtain ⟨hd, hframes⟩ := forall_mem_cons.1 ih
    have hchild := (ihchild _ (mem_cons_self ..)).close (IsFile.checkClosed himport.framed)
    exact forall_mem_cons.2 ⟨(hd.push hchild hpush).1, hframes⟩
  | openScope _ hopens _ ih => exact forall_mem_cons.2 ⟨hopens.openIn, ih⟩
  | closeScope _ _ _ hclosed hpush ih =>
    obtain ⟨hd, ih⟩ := forall_mem_cons.1 ih
    obtain ⟨he, hframes⟩ := forall_mem_cons.1 ih
    exact forall_mem_cons.2 ⟨(he.push (hd.close hclosed) hpush).1, hframes⟩

/-! ### What is listed so far -/

/-- **What is listed so far**: everything inside the open scopes, in the order in which it was completed. -/
def soFar (frames : List Def) : List (String × Def) := frames.reverse.flatMap (Def.within .definition)

theorem soFar_cons (d : Def) (frames : List Def) : soFar (d :: frames) = soFar frames ++ d.within .definition := by
  simp [soFar, flatMap_append]

theorem soFar_singleton (d : Def) : soFar [d] = d.within .definition := by
  simp [soFar]

/-- **A new member is listed at the end**, after what is inside it. -/
theorem Reached.soFar_push {d' member : Def} {name : String} (h : Reached mode outer file (d :: frames) next)
    (hpush : d.push member name = .ok d') :
    soFar (d' :: frames) = soFar (d :: frames) ++ (member.within .definition ++ [(name, member)]) := by
  rw [soFar_cons, soFar_cons, Def.within_push h.isScope hpush]
  simp

theorem soFar_rehead (d : Def) (h : Header) : soFar (d.withHeader h :: frames) = soFar (d :: frames) := by
  simp only [soFar_cons, Def.within_eq, Def.members_withHeader]

theorem soFar_opens (h : d.Opens mode) : soFar (d :: frames) = soFar frames := by
  rw [soFar_cons]
  cases h <;> simp [Def.within, membersWithin]

/-- **A scope that becomes complete is listed at the end.** -/
theorem Reached.soFar_close {e e' : Def} {name : String} (h : Reached mode outer file (d :: e :: frames) next)
    (hpush : e.push d name = .ok e') : soFar (e' :: frames) = soFar (d :: e :: frames) ++ [(name, d)] := by
  have hscope := h.framed.isScope e (by simp)
  rw [soFar_cons, soFar_cons, soFar_cons, Def.within_push hscope hpush]
  simp

theorem mem_soFar {frame : Def} {names : List String} (hframe : frame ∈ frames) (hd : frame.member? names = some d) :
    ∃ n, (n, d) ∈ soFar frames := by
  obtain ⟨n, hn⟩ := Def.mem_within_of_member? hd
  exact ⟨n, mem_flatMap.2 ⟨frame, mem_reverse.2 hframe, hn⟩⟩

theorem Reached.lt (h : Reached mode outer file frames next) : file < next := by
  induction h with
  | start _ _ => exact Nat.lt_succ_self _
  | rehead _ _ _ _ ih => exact ih
  | define _ _ _ _ ih => exact Nat.lt_succ_of_lt ih
  | importFile _ _ _ _ _ ih ihchild => exact Nat.lt_trans ih ihchild
  | openScope _ _ _ ih => exact Nat.lt_succ_of_lt ih
  | closeScope _ _ _ _ _ ih => exact ih

/-- **What is listed so far belongs to this file** or to one that is read later, or is a file. -/
theorem Reached.bound_ge (h : Reached mode outer file frames next) :
    ∀ m ∈ soFar frames, ∀ b ∈ m.2.header.bound, file ≤ b := by
  induction h with
  | start hbound _ => simp [soFar, Def.within, membersWithin]
  | rehead _ _ _ _ ih =>
    rw [soFar_rehead]
    exact ih
  | define before hread hnext hpush ih =>
    rw [before.soFar_push hpush, hread.within_eq]
    refine forall_mem_append.2 ⟨ih, ?_⟩
    simp [hnext.bound]
  | importFile before himport _ _ hpush ih ihchild =>
    have hfile : IsFile _ _ := himport.framed
    rw [before.soFar_push hpush, ← soFar_singleton]
    refine forall_mem_append.2 ⟨ih, forall_mem_append.2 ⟨fun m hm b hb => ?_, by simp [hfile.bound]⟩⟩
    exact before.lt.le.trans (ihchild m hm b hb)
  | openScope _ hopens _ ih =>
    rw [soFar_opens hopens]
    exact ih
  | closeScope before _ _ _ hpush ih =>
    rw [before.soFar_close hpush]
    refine forall_mem_append.2 ⟨ih, ?_⟩
    simp [before.framed.1.bound]

/-! ### Complete definitions -/

/-- **Definitions of a file** itself, not of one that it imports. -/
structure Own (file : Nat) (d : Def) : Prop where
  kind : d.scopeKind? ≠ some .proto
  bound : d.header.bound = some file

/-- **Members of a scope of a file**: a definition of the file under its own name, or an imported file. -/
inductive Proper (file : Nat) : String × Def → Prop where
  | own {d : Def} (hown : Own file d) (htyped : d.Typed) (hinside : ∀ m ∈ d.within .definition, Own file m.2) :
      Proper file (d.name, d)
  | imported {d : Def} (name : String) (hkind : d.scopeKind? = some .proto) (hbound : d.header.bound = none)
      (hinside : ∀ m ∈ d.within .definition, m.2.header.bound ≠ some file) : Proper file (name, d)

theorem Proper.own_of_admitted {m : String × Def} (h : Proper file m) (hscope : d.isScope = true)
    (hkind : d.scopeKind? ≠ some .proto) (hadmits : d.body.refuses m.2 = none) :
    Own file m.2 ∧ ∀ e ∈ m.2.within .definition, Own file e.2 := by
  cases h with
  | own hown _ hinside => exact ⟨hown, hinside⟩
  | @imported c name hproto _ _ =>
    cases c <;> simp [Def.scopeKind?] at hproto
    cases d <;> simp_all [Def.isScope, Def.scopeKind?, Def.body, Body.refuses]

theorem own_of_within (hscope : d.isScope = true) (hkind : d.scopeKind? ≠ some .proto) (hadmits : d.Admits)
    (hmembers : ∀ m ∈ d.members, Proper file m) : ∀ m ∈ d.within .definition, Own file m.2 := by
  intro e he
  rw [Def.within_eq, Def.membersWithin_eq_flatMap, mem_flatMap] at he
  obtain ⟨m, hm, he⟩ := he
  obtain ⟨hown, hinside⟩ := (hmembers m hm).own_of_admitted hscope hkind (hadmits m hm)
  rcases mem_append.1 he with he | he
  · exact hinside e he
  · exact mem_singleton.1 he ▸ hown

/-- **All members of open scopes are proper.** -/
theorem Reached.proper (h : Reached mode outer file frames next) : ∀ d ∈ frames, ∀ m ∈ d.members, Proper file m := by
  induction h with
  | start hbound _ =>
    intro d hd
    rw [mem_singleton.1 hd]
    simp [Def.members]
  | rehead _ _ _ _ ih =>
    obtain ⟨hd, hframes⟩ := forall_mem_cons.1 ih
    exact forall_mem_cons.2 ⟨by rwa [Def.members_withHeader], hframes⟩
  | define before hread hnext hpush ih =>
    obtain ⟨hd, hframes⟩ := forall_mem_cons.1 ih
    have hmember := Proper.own ⟨hread.scopeKind?_ne, hnext.bound⟩ hread.typed (by simp [hread.within_eq])
    exact forall_mem_cons.2 ⟨forall_members_push before.isScope hpush hd hmember, hframes⟩
  | importFile before himport _ _ hpush ih _ =>
    obtain ⟨hd, hframes⟩ := forall_mem_cons.1 ih
    have hfile : IsFile _ _ := himport.framed
    -- everything inside belongs to files that are read later
    have hinside (m : String × Def) (hm : m ∈ Def.within .definition _) (hb : m.2.header.bound = some _) : False :=
      Nat.not_le.2 before.lt (himport.bound_ge m (soFar_singleton _ ▸ hm) _ hb)
    exact forall_mem_cons.2
      ⟨forall_members_push before.isScope hpush hd (.imported _ hfile.kind hfile.bound hinside), hframes⟩
  | openScope _ hopens _ ih =>
    refine forall_mem_cons.2 ⟨?_, ih⟩
    cases hopens <;> simp [Def.members]
  | closeScope before hadmits _ _ hpush ih =>
    obtain ⟨hd, ih⟩ := forall_mem_cons.1 ih
    obtain ⟨he, hframes⟩ := forall_mem_cons.1 ih
    have hscope := before.framed.isScope _ (mem_cons_of_mem _ (mem_cons_self ..))
    have hinner := before.framed.1
    have hmember := Proper.own ⟨hinner.kind, hinner.bound⟩ (Def.typed_of_isScope hinner.scope)
      (own_of_within hinner.scope hinner.kind hadmits hd)
    exact forall_mem_cons.2 ⟨forall_members_push hscope hpush he hmember, hframes⟩

/-- **Complete definitions.**  They passed the last check and are frozen, and their members may stand where they
stand. -/
structure Complete (d : Def) : Prop where
  admits : d.Admits
  closed : d.checkClosed = .ok ()
  frozen : d.header.frozen = true
  members : ∀ m ∈ d.members, Proper d.home m

theorem Reached.complete_file (h : Reached mode outer file [d] next) (hfrozen : d.header.frozen = true) :
    Complete d := by
  have hfile : IsFile file d := h.framed
  have hhome : d.home = file := by rw [Def.home, hfile.bound, Option.getD_none, hfile.id_eq]
  refine ⟨fun m _ => ?_, hfile.checkClosed, hfrozen, fun m hm => ?_⟩
  · have hkind := hfile.kind
    cases d <;> first | rfl | simp [Def.scopeKind?] at hkind
  · rw [hhome]
    exact h.proper d (mem_cons_self ..) m hm

/-- **All that is listed so far is complete.** -/
theorem Reached.complete (h : Reached mode outer file frames next) : ∀ m ∈ soFar frames, Complete m.2 := by
  induction h with
  | start hbound _ => simp [soFar, Def.within, membersWithin]
  | rehead _ _ _ _ ih =>
    rw [soFar_rehead]
    exact ih
  | define before hread hnext hpush ih =>
    rw [before.soFar_push hpush, hread.within_eq]
    refine forall_mem_append.2 ⟨ih, ?_⟩
    intro m hm
    obtain rfl := mem_singleton.1 hm
    have hfrozen := hnext.frozen
    cases hread <;> exact ⟨by simp [Def.Admits, Def.members], rfl, hfrozen, by simp [Def.members]⟩
  | importFile before himport _ hfrozen hpush ih ihchild =>
    rw [before.soFar_push hpush]
    refine forall_mem_append.2 ⟨ih, forall_mem_append.2 ⟨?_, ?_⟩⟩
    · rw [← soFar_singleton]
      exact ihchild
    · intro m hm
      obtain rfl := mem_singleton.1 hm
      exact himport.complete_file hfrozen
  | openScope _ hopens _ ih =>
    rw [soFar_opens hopens]
    exact ih
  | closeScope before hadmits hfrozen hclosed hpush ih =>
    rw [before.soFar_close hpush]
    refine forall_mem_append.2 ⟨ih, ?_⟩
    intro m hm
    obtain rfl := mem_singleton.1 hm
    refine ⟨hadmits, hclosed, hfrozen, fun m hm => ?_⟩
    rw [Def.home, before.framed.1.bound, Option.getD_some]
    exact before.proper _ (mem_cons_self ..) m hm

/-! ### Serial numbers -/

/-- The serial numbers given out: those of the open scopes and of what is listed so far. -/
def serials (frames : List Def) : List Nat := frames.map Def.id ++ (soFar frames).map (·.2.id)

/-- **Serial numbers differ.**  They are given out one after another, from that of the file on. -/
structure Numbering (file next : Nat) (serials : List Nat) : Prop where
  nodup : serials.Nodup
  range : ∀ i ∈ serials, file ≤ i ∧ i < next

theorem Numbering.perm {is js : List Nat} (h : Numbering file next is) (hperm : is.Perm js) : Numbering file next js :=
  ⟨hperm.nodup_iff.1 h.nodup, fun i hi => h.range i (hperm.mem_iff.2 hi)⟩

theorem Numbering.append {is js : List Nat} {next' : Nat} (h : Numbering file next is) (hle : file ≤ next)
    (hle' : next ≤ next') (h' : Numbering next next' js) : Numbering file next' (is ++ js) := by
  refine ⟨nodup_append.2 ⟨h.nodup, h'.nodup, ?_⟩, ?_⟩
  · intro i hi j hj
    have := (h.range i hi).2
    have := (h'.range j hj).1
    omega
  · intro i hi
    rcases mem_append.1 hi with hi | hi
    · have := h.range i hi
      omega
    · have := h'.range i hi
      omega

theorem Numbering.singleton (next : Nat) : Numbering next (next + 1) [next] :=
  ⟨nodup_singleton next, fun i hi => by
    rw [mem_singleton.1 hi]
    exact ⟨Nat.le_refl _, Nat.lt_succ_self _⟩⟩

/-- **Serial numbers differ** at every stage of reading. -/
theorem Reached.ids (h : Reached mode outer file frames next) : Numbering file next (serials frames) := by
  induction h with
  | start hbound _ => exact .singleton _
  | rehead _ hid _ _ ih =>
    rw [serials, map_cons] at ih ⊢
    rw [soFar_rehead, Def.id_withHeader, hid]
    exact ih
  | define before hread hnext hpush ih =>
    have hid : Def.id _ = _ := hnext.id
    refine (ih.append before.lt.le (Nat.le_succ _) (.singleton _)).perm ?_
    simp only [serials, before.soFar_push hpush, hread.within_eq, map_cons, map_append, map_nil, hid,
      id_of_push hpush, nil_append, append_assoc]
    exact .refl _
  | importFile before himport _ _ hpush ih ihchild =>
    refine (ih.append before.lt.le himport.lt.le ihchild).perm ?_
    simp only [serials, before.soFar_push hpush, soFar_singleton, map_cons, map_append, map_nil,
      id_of_push hpush, append_assoc]
    exact .append_left _ (.append_left _ perm_append_comm)
  | openScope before hopens hnext ih =>
    refine (ih.append before.lt.le (Nat.le_succ _) (.singleton _)).perm ?_
    rw [serials, serials, soFar_opens hopens, map_cons, Def.id, hnext.id]
    exact perm_append_singleton _ _
  | closeScope before _ _ _ hpush ih =>
    refine ih.perm ?_
    simp only [serials, before.soFar_close hpush, map_cons, map_append, map_nil, id_of_push hpush]
    rw [← append_assoc]
    exact (perm_append_singleton _ _).symm

/-! ### Definition before use -/

def defined (frames : List Def) : List Def := (soFar frames).map (·.2)

/-- **A type that can be read mentions what is defined.** -/
theorem mem_defined_of_mentions {t : Ty} (ht : t.Readable mode frames) (hfirst : DefinedFirst (defined frames)) {e : Def}
    (he : e ∈ t.mentions) : e ∈ defined frames := by
  induction ht with
  | array o _ _ _ _ ih => exact ih he
  | @named frame d names hframe hd htype =>
    obtain ⟨n, hn⟩ := mem_soFar hframe hd
    have hmem : d ∈ defined frames := mem_map.2 ⟨(n, d), hn, rfl⟩
    rcases mem_cons.1 he with rfl | he
    · exact hmem
    · exact hfirst.mem hmem he
  | _ => simp [Ty.mentions] at he

theorem mem_of_scope_mentions {ds : List Def} (hscope : d.isScope = true) (hmembers : ∀ m ∈ d.members, m.2 ∈ ds)
    (hfirst : DefinedFirst ds) : ∀ e ∈ d.mentions, e ∈ ds := by
  intro e he
  rw [Def.mentions_of_isScope hscope, mem_membersMentions] at he
  obtain ⟨m, hm, he⟩ := he
  exact hfirst.mem (hmembers m hm) he

/-- **Everything is defined before it is mentioned.** -/
theorem Reached.definedFirst (h : Reached mode outer file frames next) : DefinedFirst (defined frames) := by
  have hmembers {d : Def} {frames : List Def} (hd : d ∈ frames) (m : String × Def) (hm : m ∈ d.members) :
      m.2 ∈ defined frames :=
    mem_map.2 ⟨m, mem_flatMap.2 ⟨d, mem_reverse.2 hd, Def.mem_within_of_mem hm⟩, rfl⟩
  induction h with
  | start hbound _ => exact .nil
  | rehead _ _ _ _ ih =>
    rw [defined, soFar_rehead]
    exact ih
  | define before hread _ hpush ih =>
    rw [defined, before.soFar_push hpush, hread.within_eq, map_append]
    refine ih.concat fun e he => ?_
    cases hread with
    | typeAlias h ht hnamed => exact mem_defined_of_mentions ht ih he
    | field h ht hnumber => exact mem_defined_of_mentions ht ih he
    | _ => simp [Def.mentions] at he
  | importFile before himport _ _ hpush ih ihchild =>
    have hchild := mem_of_scope_mentions himport.isScope (hmembers (mem_cons_self ..)) ihchild
    rw [defined, before.soFar_push hpush, map_append, map_append, ← soFar_singleton]
    exact ih.append (ihchild.concat hchild)
  | openScope _ hopens _ ih =>
    rw [defined, soFar_opens hopens]
    exact ih
  | closeScope before _ _ _ hpush ih =>
    have hclosed := mem_of_scope_mentions before.isScope (hmembers (mem_cons_self ..)) ih
    rw [defined, before.soFar_close hpush, map_append]
    exact ih.concat hclosed

end Reading

end BitSchema
