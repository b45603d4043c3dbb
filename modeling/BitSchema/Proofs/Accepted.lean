import BitSchema.Proofs.Statements
import Mathlib.Data.List.Perm.Subperm

/-!
# Schemas that are accepted

A schema is accepted if reading it gives a file.  Files are read inside each other, but none while it is being read, so
the bound on the depth of imports is never met (`Reader.ending_readPath`).  Whatever is read is reached step by step
(`Reader.AcceptsIn.reached`).  So an accepted file is well-formed (`Reader.Accepts.wellFormed`), and with it every
definition inside it, at any depth.  If it is accepted in traditional mode, nothing inside it is extensible
(`Def.AcceptedTraditional.accepted`).
-/

namespace BitSchema

open List

/-! ### Files inside each other -/

/-- **Paths that lead to different files.** -/
structure Files.Distinct (files : Files) (paths : List String) : Prop where
  nodup : (paths.map files.stat).Nodup
  known : ∀ p ∈ paths, ∃ real ∈ files.reals, files.stat p = .ok real

namespace Files

variable {files : Files} {paths : List String} {path : String}

theorem Distinct.length_le (h : files.Distinct paths) : paths.length ≤ files.reals.length := by
  have hsubset : paths.map files.stat ⊆ files.reals.map .ok := by
    intro r hr
    obtain ⟨p, hp, rfl⟩ := mem_map.1 hr
    obtain ⟨real, hreal, hstat⟩ := h.known p hp
    exact mem_map.2 ⟨real, hreal, hstat.symm⟩
  simpa using (List.Nodup.subperm h.nodup hsubset).length_le

/-- **A file that can be read and is none of those being read** is a further one. -/
theorem Distinct.concat (h : files.Distinct paths) {text : String} (hread : files.read path = .ok text)
    (hfresh : ∀ p ∈ paths, files.same path p = .ok false) : files.Distinct (paths ++ [path]) := by
  obtain ⟨real, hreal, hstat⟩ : ∃ real ∈ files.reals, files.stat path = .ok real := by
    unfold read at hread
    cases hlook : files.look path <;> rw [hlook] at hread <;> cases hread
    next real content => exact ⟨real, files.real_mem hlook, by rw [stat, hlook]⟩
  refine ⟨?_, forall_mem_append.2 ⟨h.known, by simpa using ⟨real, hreal, hstat⟩⟩⟩
  rw [map_append, nodup_append]
  refine ⟨h.nodup, nodup_singleton _, fun a ha b hb hab => ?_⟩
  obtain ⟨p, hp, rfl⟩ := mem_map.1 ha
  obtain ⟨real', -, hstat'⟩ := h.known p hp
  -- the same real name would have been noticed
  have hsame := hfresh p hp
  rw [map_singleton, mem_singleton] at hb
  rw [hab, hb, hstat] at hstat'
  cases hstat'
  simp [same, hstat, hab, hb, bind, Except.bind, pure, Except.pure] at hsame

end Files

namespace Reader

open Reading

variable {files : Files} {mode : Bool}

/-- **Files are read inside each other** up to any depth that there can be. -/
theorem ending_readPath (l : Limits files) {depth : Nat} {paths : List String} {path : String} {outer : List ScopeRef}
    {s : State} (hdeep : l.Fails (.internal "too many files") ∨
      files.Distinct paths ∧ files.reals.length < paths.length + depth)
    (hfresh : ∀ p ∈ paths, files.same path p = .ok false) (hs : s.frames = []) :
    Ending l.Fails (fun d s' => IsRead mode outer s.nextId d s'.nextId)
      (readPath files mode depth paths path outer s) := by
  induction depth generalizing paths path outer s with
  | zero =>
    rcases hdeep with hdeep | ⟨hdistinct, hlength⟩
    · exact hdeep
    · exact absurd hdistinct.length_le (by omega)
  | succ depth ih =>
    unfold readPath
    cases hread : files.read path with
    | error f => exact l.file path f hread
    | ok text =>
      have hdeep' : l.Fails (.internal "too many files") ∨
          files.Distinct (paths ++ [path]) ∧ files.reals.length < (paths ++ [path]).length + depth := by
        refine hdeep.imp_right fun ⟨hdistinct, hlength⟩ => ⟨hdistinct.concat hread hfresh, ?_⟩
        rw [length_append, length_singleton]
        omega
      let ctx : Context :=
        { files, traditional := mode, path, paths := paths ++ [path], outer
          readImport := readPath files mode depth (paths ++ [path]) }
      let g : Setting ctx := { l with imports := fun _ _ _ hfresh hs => ih hdeep' hfresh hs }
      exact (ends_readText (g := g) (fun line => l.scan path line text hread) fun line =>
        l.failure path line text hread).run s ⟨hs, rfl⟩

/-- **Schemas that are accepted in a mode**: files that are given by reading a path or a text. -/
def AcceptsIn (mode : Bool) (file : Def) : Prop :=
  ∃ files source, (parse files source mode).result = .ok file ∨ (parseText files source mode).result = .ok file

/-- No limits: all sound tokens may occur, and any fault may end reading. -/
def unlimited (files : Files) : Limits files where
  Occurs := Token.Sound
  Fails _ := True
  sound _ h := h
  scan _ _ _ _ _ h := Token.sound_of_mem_scan h
  failure _ _ _ _ _ _ := trivial
  report _ _ := trivial
  shown _ _ _ _ := trivial
  capacity _ _ _ _ _ _ := trivial
  division _ _ _ := trivial
  place _ _ _ _ _ _ := trivial
  file _ _ _ := trivial

/-- **Schemas that are accepted are read** step by step. -/
theorem AcceptsIn.isRead {file : Def} (h : AcceptsIn mode file) : ∃ next, IsRead mode [] 0 file next := by
  obtain ⟨files, source, h | h⟩ := h
  · have hread : readPath files mode (files.reals.length + 1) [] source [] {} = (.ok file, _) := Prod.ext h rfl
    have hending : Ending (unlimited files).Fails (fun d s => IsRead mode [] 0 d s.nextId)
        (readPath files mode (files.reals.length + 1) [] source [] {}) :=
      ending_readPath (unlimited files) (.inl trivial) (by simp) rfl
    rw [hread] at hending
    exact ⟨_, hending⟩
  · let ctx : Context :=
      { files, traditional := mode, path := "", paths := [""], outer := []
        readImport := readPath files mode files.reals.length [""] }
    let g : Setting ctx :=
      { unlimited files with
        imports := fun _ _ _ hfresh hs => ending_readPath (unlimited files) (.inl trivial) hfresh hs }
    have hread : readText files mode source {} = (.ok file, _) := Prod.ext h rfl
    have hending : Ending g.Fails (fun d s => IsRead mode [] 0 d s.nextId) (readText files mode source {}) :=
      (ends_readText (fun line t ht => Token.sound_of_mem_scan ht) fun _ _ _ => trivial).run {} ⟨rfl, rfl⟩
    rw [hread] at hending
    exact ⟨_, hending⟩

theorem AcceptsIn.reached {file : Def} (h : AcceptsIn mode file) : ∃ next, Reached mode [] 0 [file] next :=
  h.isRead.imp fun _ hread => hread.reached

/-- **Schemas that are accepted in a mode are well-formed**, and in traditional mode they are unmarked. -/
theorem AcceptsIn.wellFormedIn {mode : Bool} {file : Def} (h : AcceptsIn mode file) : file.WellFormedIn mode := by
  obtain ⟨next, hreached⟩ := h.reached
  exact (hreached.openIn file (mem_cons_self ..)).close (IsFile.checkClosed hreached.framed)

/-- **Accepted schemas**: files that are given by reading a path or a text. -/
def Accepts (file : Def) : Prop :=
  ∃ files traditional source, (parse files source traditional).result = .ok file ∨
    (parseText files source traditional).result = .ok file

/-- **Accepted schemas are well-formed.** -/
theorem Accepts.wellFormed {file : Def} (h : Accepts file) : file.WellFormed := by
  obtain ⟨files, traditional, source, h⟩ := h
  exact (AcceptsIn.wellFormedIn ⟨files, source, h⟩).1

/-- **The members of an accepted file** are its own definitions and the files that it imports. -/
theorem Accepts.proper {file : Def} (h : Accepts file) : ∀ m ∈ file.members, Proper file.id m := by
  obtain ⟨files, traditional, source, h⟩ := h
  obtain ⟨next, hreached⟩ := AcceptsIn.reached ⟨files, source, h⟩
  rw [hreached.framed.id_eq]
  exact hreached.proper file (mem_cons_self ..)

end Reader

/-- **Accepted messages**: those of accepted schemas and of everything they import, at any depth. -/
def Def.Accepted (d : Def) : Prop :=
  ∃ file name, Reader.Accepts file ∧ (name, d) ∈ file.within .message

/-- **Accepted messages are well-formed.** -/
theorem Def.Accepted.wellFormed {d : Def} (h : d.Accepted) : d.WellFormed ∧ ∃ hd ext ms, d = .message hd ext ms := by
  obtain ⟨file, name, hfile, hmem⟩ := h
  obtain ⟨hkind, hwf⟩ := Def.of_mem_within (fun _ => Def.WellFormed.members) hfile.wellFormed hmem
  exact ⟨hwf, Def.eq_message_of_isA hkind⟩

/-- **Messages that are accepted in traditional mode.** -/
def Def.AcceptedTraditional (d : Def) : Prop :=
  ∃ file name, Reader.AcceptsIn true file ∧ (name, d) ∈ file.within .message

/-- **Messages that are accepted in traditional mode** are accepted, and nothing inside them is extensible. -/
theorem Def.AcceptedTraditional.accepted {d : Def} (h : d.AcceptedTraditional) : d.Accepted ∧ d.Traditional := by
  obtain ⟨file, name, hfile, hmem⟩ := h
  have hunmarked := Def.of_mem_within (fun _ => Def.Unmarked.members) (hfile.wellFormedIn.2 rfl) hmem
  obtain ⟨files, source, hread⟩ := hfile
  exact ⟨⟨file, name, ⟨files, true, source, hread⟩, hmem⟩, hunmarked.2.traditional⟩

/-! ### Two versions of a schema

In the second version fields were appended to an extensible message and to one that is not extensible.
-/

namespace Sample

/-- No files: schemas without imports need none. -/
def noFiles : Files := ⟨"", fun _ => .missing, [], fun h => by cases h⟩

def text : String :=
  "proto s message P'\x7buint3 a=1\x7d message M\x7bP[2] x=2 int8 y=1\x7d message F\x7bbool[5]' a=1 uint7 b=2\x7d"

def header (name : String) (id : Nat) (scopes : List ScopeRef) (indent : Int) : Header :=
  { origin := ⟨name, 1, ""⟩, id, name, scopes, indent, bound := some 0 }

def message (name : String) (id : Nat) (indent : Int) (ext : Bool) (fields : Members) : Def :=
  .message (header name id [⟨0, .proto⟩] indent) ext fields

/-- A field of the message with serial number `parent`. -/
def field (parent : Nat) (name : String) (id : Nat) (indent : Int) (ty : Ty) (number : Nat) : String × Def :=
  (name, .field (header name id [⟨0, .proto⟩, ⟨parent, .message⟩] indent) ty number)

def part : Def := message "P" 1 7 true [field 1 "a" 2 18 (.uint ⟨"uint3", 1, ""⟩ 3) 1]

def whole : Def :=
  message "M" 3 29 false [
    field 3 "x" 4 39 (.array ⟨"<message P'>[2]", 1, ""⟩ (.named part) 2 false) 2,
    field 3 "y" 5 48 (.int ⟨"int8", 1, ""⟩ 8) 1]

/-- A message in which a field follows an extensible array. -/
def arrayFirst : Def :=
  message "F" 6 58 false [
    field 6 "a" 7 68 (.array ⟨"<type bool>[5]", 1, ""⟩ (.bool ⟨"bool", 1, ""⟩) 5 true) 1,
    field 6 "b" 8 81 (.uint ⟨"uint7", 1, ""⟩ 7) 2]

theorem accepts : Reader.Accepts (.proto { name := "s" } [("P", part), ("M", whole), ("F", arrayFirst)]) :=
  ⟨noFiles, false, text, .inr (by decide +kernel)⟩

theorem arrayFirst_accepted : arrayFirst.Accepted := ⟨_, "F", accepts, by decide +kernel⟩

end Sample

/-! ### A schema in traditional mode

Its fields are numbered in another order than they are written, and an alias stands for an array.
-/

namespace Sample

def traditionalText : String :=
  "proto s type L=int16[2] message Q\x7bL a=2 uint3 b=1\x7d message T\x7bQ[2] q=1 byte[2] r=3 bool z=2\x7d"

def span : Def :=
  .typeAlias (header "L" 1 [⟨0, .proto⟩] 7) (.array ⟨"<type int16>[2]", 1, ""⟩ (.int ⟨"int16", 1, ""⟩ 16) 2 false)

def entry : Def :=
  message "Q" 2 23 false [
    field 2 "a" 3 33 (.named span) 2,
    field 2 "b" 4 39 (.uint ⟨"uint3", 1, ""⟩ 3) 1]

def table : Def :=
  message "T" 5 50 false [
    field 5 "q" 6 60 (.array ⟨"<message Q>[2]", 1, ""⟩ (.named entry) 2 false) 1,
    field 5 "r" 7 69 (.array ⟨"<byte>[2]", 1, ""⟩ (.byte ⟨"byte", 1, ""⟩) 2 false) 3,
    field 5 "z" 8 81 (.bool ⟨"bool", 1, ""⟩) 2]

theorem accepts_traditional :
    Reader.AcceptsIn true (.proto { name := "s" } [("L", span), ("Q", entry), ("T", table)]) :=
  ⟨noFiles, traditionalText, .inr (by decide +kernel)⟩

theorem table_accepted : table.AcceptedTraditional := ⟨_, "T", accepts_traditional, by decide +kernel⟩

end Sample

end BitSchema
