import BitSchema.Command
import BitSchema.Proofs.Accepted

/-!
# What is reported

Reading the files of a tree ends with a file or with a fault.  Most faults are reported: reports about tokens and
about how they are put together, and failures with files (`Reported`).  The others escape, and each of them has a
cause in the texts or in a path (`Escapes`): a division by zero, an import inside a message, a number with too many
digits, the character number zero in a path.  There are no other faults (`parse_reported_or_escapes`); in particular
neither the bound on statements nor the bound on imports is ever met, and no assumption of the compiler is broken.
The depth of the calls of a running program is not part of reading here: a chain of imports that is too deep for it is
not among the causes.

The command turns reported faults into a line for the user and the exit code 1; it has no answer to the others.
-/

namespace BitSchema

open Reading

/-! ### Faults and their causes -/

def Files.HasToken (files : Files) (t : Token) : Prop :=
  ∃ path line text, files.read path = .ok text ∧ t ∈ (Token.scan path line text).tokens

def Files.HasLexeme (files : Files) (l : Lexeme) : Prop := ∃ t, files.HasToken t ∧ t.lexeme = l

/-- **Faults that are reported**: mistakes in the texts and failures with files. -/
inductive Reported (files : Files) : Fault → Prop where
  | report (r : Report) (h : r.problem.family = .token ∨ r.problem.family = .grammar) : Reported files (.report r)
  | missing {path : String} (h : files.look path = .missing) : Reported files (.fileMissing path)
  | directory {path real : String} (h : files.look path = .directory real) : Reported files (.isDirectory path)
  | notDirectory {path : String} (h : files.look path = .notDirectory) : Reported files (.notDirectory path)
  | tooLong {path : String} (h : files.look path = .tooLong) : Reported files (.pathTooLong path)

/-- **Faults that escape**, each with its cause. -/
inductive Escapes (files : Files) : Fault → Prop where
  /-- Something is divided. -/
  | division (h : files.HasLexeme .divide) : Escapes files .divisionByZero
  | importInMessage (himport : files.HasLexeme (.keyword .importFile)) (hmessage : files.HasLexeme (.keyword .message)) :
      Escapes files .noFile
  /-- A numeral has too many digits to be read. -/
  | numeral {path text : String} {line : Nat} {f : Token.Failure} {count : Option Nat}
      (hread : files.read path = .ok text)
      (hscan : (Token.scan path line text).failure = some f) (hfault : f.fault = .tooManyDigits count) :
      Escapes files (.tooManyDigits count)
  /-- A numeral that cannot stand where it stands has too many digits to be written. -/
  | token {t : Token} (ht : files.HasToken t) (h : t.lexeme.shown = .error (.tooManyDigits none)) :
      Escapes files (.tooManyDigits none)
  /-- The capacity of an array has too many digits to be written. -/
  | capacity {cap : Int} (harray : files.HasLexeme (.symbol '['))
      (h : Numeral.ofInt cap = .error (.tooManyDigits none)) : Escapes files (.tooManyDigits none)
  /-- A path holds the character number zero. -/
  | path {path : String} (h : '\x00' ∈ path.toList) : Escapes files .pathInvalid

variable {f : Fault}

theorem ofInt_eq_error {v : Int} (h : Numeral.ofInt v = .error f) : f = .tooManyDigits none := by
  unfold Numeral.ofInt at h
  split at h
  · cases h
  · cases h
    rfl

theorem Lexeme.shown_eq_error {l : Lexeme} (h : l.shown = .error f) : f = .tooManyDigits none := by
  unfold Lexeme.shown at h
  split at h <;> try simp only [reduceCtorEq] at h
  all_goals exact ofInt_eq_error h

variable {path : String}

theorem Tree.mem_of_look_invalid {t : Tree} (h : t.look path = .invalid) : '\x00' ∈ path.toList := by
  unfold look at h
  split at h
  · next hcontains => simpa using hcontains
  · split at h
    · cases h
    · split at h
      · split at h <;> cases h
      all_goals cases h

theorem Tree.look_ne_unread (t : Tree) (path : String) : t.look path ≠ .unread := by
  intro h
  unfold look at h
  split at h
  · cases h
  · split at h
    · cases h
    · split at h
      · split at h <;> cases h
      all_goals cases h

/-- **Why a file of a tree cannot be read.** -/
theorem reported_or_escapes_of_read {t : Tree} (h : (Files.ofTree t).read path = .error f) :
    Reported (.ofTree t) f ∨ Escapes (.ofTree t) f := by
  unfold Files.read at h
  cases hlook : (Files.ofTree t).look path with
  | file real content => simp [hlook] at h
  | directory real =>
    simp only [hlook, Except.error.injEq] at h
    exact .inl (h ▸ .directory hlook)
  | missing =>
    simp only [hlook, Except.error.injEq] at h
    exact .inl (h ▸ .missing hlook)
  | notDirectory =>
    simp only [hlook, Except.error.injEq] at h
    exact .inl (h ▸ .notDirectory hlook)
  | tooLong =>
    simp only [hlook, Except.error.injEq] at h
    exact .inl (h ▸ .tooLong hlook)
  | invalid =>
    simp only [hlook, Except.error.injEq] at h
    exact .inr (h ▸ .path (Tree.mem_of_look_invalid hlook))
  | unread => exact absurd hlook (t.look_ne_unread path)

/-- **What reading the files of a tree may meet.** -/
def Tree.limits (t : Tree) : Limits (.ofTree t) where
  Occurs tok := tok.Sound ∧ (Files.ofTree t).HasToken tok
  Fails f := Reported (.ofTree t) f ∨ Escapes (.ofTree t) f
  sound _ h := h.1
  scan path line text hread _ h := ⟨Token.sound_of_mem_scan h, path, line, text, hread, h⟩
  failure path line text hread f hf := by
    rcases Token.fault_of_scanFrom hf with ⟨r, hr, hfamily⟩ | ⟨count, hcount⟩
    · exact .inl (hr ▸ .report r (.inl hfamily))
    · exact .inr (hcount ▸ .numeral hread hf hcount)
  report r h := .inl (.report r h)
  shown tok f htok h := by
    obtain rfl := Lexeme.shown_eq_error h
    exact .inr (.token htok.2 h)
  capacity tok cap f htok hlexeme h := by
    obtain rfl := ofInt_eq_error h
    exact .inr (.capacity ⟨tok, htok.2, hlexeme⟩ h)
  division tok htok hlexeme := .inr (.division ⟨tok, htok.2, hlexeme⟩)
  place tok tok' htok htok' himport hmessage :=
    .inr (.importInMessage ⟨tok, htok.2, himport⟩ ⟨tok', htok'.2, hmessage⟩)
  file _ _ h := reported_or_escapes_of_read h

/-- **Every fault of reading is reported or escapes.** -/
theorem reported_or_escapes_of_parse {t : Tree} {mode : Bool}
    (h : (Reader.parse (.ofTree t) path mode).result = .error f) : Reported (.ofTree t) f ∨ Escapes (.ofTree t) f := by
  have hdeep : (Files.ofTree t).Distinct [] ∧
      (Files.ofTree t).reals.length < ([] : List String).length + ((Files.ofTree t).reals.length + 1) :=
    ⟨⟨List.nodup_nil, by simp⟩, by simp⟩
  have hending : Ending t.limits.Fails (fun d s => IsRead mode [] 0 d s.nextId)
      (Reader.readPath (.ofTree t) mode ((Files.ofTree t).reals.length + 1) [] path [] {}) :=
    Reader.ending_readPath t.limits (.inr hdeep) (by simp) rfl
  have hread : Reader.readPath (.ofTree t) mode ((Files.ofTree t).reals.length + 1) [] path [] {} = (.error f, _) :=
    Prod.ext h rfl
  rw [hread] at hending
  exact hending

/-! ### The command -/

/-- The line that tells the user about a fault. -/
def Fault.line : Fault → String
  | .report r => r.painted
  | f => f.message

namespace Command

variable {files : Files} {s : Settings} {path : String} {f : Fault}

theorem work_eq_faulting (h : (Reader.parse files path (s.optimize && !s.check)).result = .error f) :
    work files s path =
      Result.faulting { exit := .ok 0, stderr := (Reader.parse files path (s.optimize && !s.check)).notes }
        [.source, .token, .grammar] f := by
  simp only [work, h]

/-- **Reported faults are told to the user.** -/
theorem faulting_of_reported (h : Reported files f) (r : Result) :
    r.faulting [.source, .token, .grammar] f = { r with stderr := r.stderr ++ [f.line], exit := .ok 1 } := by
  cases h with
  | report report hfamily =>
    have hmem : [Family.source, .token, .grammar].contains report.problem.family = true := by
      rcases hfamily with h | h <;> rw [h] <;> rfl
    simp only [Result.faulting, hmem, if_true]
    rfl
  | _ => rfl

/-- **Faults that escape end the command** without an answer. -/
theorem exit_faulting_of_escapes (h : Escapes files f) (r : Result) :
    (r.faulting [.source, .token, .grammar] f).exit = .error f := by
  cases h <;> rfl

end Command

/-- **Every fault is reported, but for four kinds.**  Reading the files of a tree gives a file, or ends with a fault
that is reported or escapes.  The command turns a fault that is reported into one more line for the user and the exit
code 1, and has no exit code for the others. -/
theorem parse_reported_or_escapes (t : Tree) (path : String) :
    (∀ mode, (∃ file, (Reader.parse (.ofTree t) path mode).result = .ok file) ∨
      ∃ f, (Reader.parse (.ofTree t) path mode).result = .error f ∧ (Reported (.ofTree t) f ∨ Escapes (.ofTree t) f)) ∧
    ∀ (s : Command.Settings) (f : Fault),
      (Reader.parse (.ofTree t) path (s.optimize && !s.check)).result = .error f →
        Reported (.ofTree t) f ∧ Command.work (.ofTree t) s path =
            { exit := .ok 1
              stderr := (Reader.parse (.ofTree t) path (s.optimize && !s.check)).notes ++ [f.line] } ∨
          Escapes (.ofTree t) f ∧ (Command.work (.ofTree t) s path).exit = .error f := by
  refine ⟨fun mode => ?_, fun s f h => ?_⟩
  · cases h : (Reader.parse (.ofTree t) path mode).result with
    | ok file => exact .inl ⟨file, rfl⟩
    | error f => exact .inr ⟨f, rfl, reported_or_escapes_of_parse h⟩
  · rw [Command.work_eq_faulting h]
    rcases reported_or_escapes_of_parse h with hreported | hescapes
    · exact .inl ⟨hreported, Command.faulting_of_reported hreported _⟩
    · exact .inr ⟨hescapes, Command.exit_faulting_of_escapes hescapes _⟩

namespace Sample

def divides : Tree := { cwd := "/", files := [(["a"], "proto a const A=1/0")] }

def importsInside : Tree :=
  { cwd := "/", files := [(["a"], "proto a message M\x7bimport \"b\"\x7d"), (["b"], "proto b")] }

end Sample

theorem parse_escapes_divides :
    (Reader.parse (.ofTree Sample.divides) "a" false).result = .error .divisionByZero ∧
      Escapes (.ofTree Sample.divides) .divisionByZero ∧
      (Command.work (.ofTree Sample.divides) {} "a").exit = .error .divisionByZero := by
  have hparse : (Reader.parse (.ofTree Sample.divides) "a" false).result = .error .divisionByZero := by decide +kernel
  refine ⟨hparse, ?_⟩
  rcases (parse_reported_or_escapes Sample.divides "a").2 {} _ hparse with ⟨hreported, -⟩ | hescapes
  · cases hreported
  · exact hescapes

example : (Reader.parse (.ofTree Sample.importsInside) "a" false).result = .error .noFile := by decide +kernel

end BitSchema
