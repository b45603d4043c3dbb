import BitSchema.Proofs.ScopesAround
import BitSchema.Target.CHeader
import BitSchema.Target.GoPackage
import BitSchema.Target.PythonModule

/-!
# Names across files

Code that is written for a schema mentions definitions of imported files.  In Go and in Python such a definition is
reached through a name of its file, and the code starts with import statements that give names to files.

The name in front of a definition is the one under which its file was imported by the file that imports it, whichever
that is (`Def.LaidOut.reached_imported`).  The code itself only imports the files that the schema imports directly.  So
the name is one that the code has imported if and only if the schema imports the file directly; a definition that is
reached through two imports is mentioned by a name that the code does not know.

Import statements name a file by the name of the schema, but the file that is written for the schema has its name from
the path of the schema.  The two are the same if and only if the schema is named like its file.
-/

namespace BitSchema

open Reading List

/-! ### The way to a definition -/

namespace Def.LaidOut

variable {p : Def} (hp : p.LaidOut) (hroot : p.header.scopes = []) {m : String × Def} (hm : m ∈ p.within .definition)
  {l : Dialect}
include hp

theorem knownScopeName_eq {i : String × Def} (hi : i ∈ p.within .definition) (hkind : i.2.scopeKind? = some .proto) :
    Env.knownScopeName ⟨[p]⟩ ⟨i.2.id, .proto⟩ = i.1 := by
  have hscope : i.2.isScope = true := by
    rw [Def.isScope, hkind]
    rfl
  rw [Env.knownScopeName, Env.scope?_singleton, scope?_of_contains hp.numbered (.inr ⟨i.1, hi⟩) hscope]
  simp only [hp.knownName_eq hi]
  exact if_neg (by simpa using hp.named i hi hkind)

include hroot hm

/-- **The files around a definition**: the one that was read first, and files that it imports. -/
theorem files_eq : ∃ fs, files m.2.header.scopes = ⟨p.id, .proto⟩ :: fs ∧
    ∀ r ∈ fs, ∃ i ∈ p.within .definition, i.2.scopeKind? = some .proto ∧ r = ⟨i.2.id, .proto⟩ := by
  obtain ⟨refs, hscopes, hrefs⟩ := hp.scopes_eq hm
  refine ⟨files refs, ?_, fun r hr => ?_⟩
  · rw [hscopes, hroot, nil_append, frameRef_of_kind hp.kind]
    rfl
  · obtain ⟨hr, hproto⟩ := mem_filter.1 hr
    obtain ⟨i, hi, hscope, rfl⟩ := hrefs r hr
    obtain ⟨k, hk⟩ := Option.isSome_iff_exists.1 hscope
    rw [frameRef_of_kind hk] at hproto ⊢
    obtain rfl : k = .proto := by simpa using hproto
    exact ⟨i, hi, hk, rfl⟩

/-- **Definitions of the file itself** are mentioned by their names alone. -/
theorem reached_own (hb : m.2.header.bound = some p.id) (name : String) :
    l.reached ⟨[p]⟩ m.2 name = .ok name := by
  obtain ⟨fs, hfiles, hfs⟩ := hp.files_eq hroot hm
  have hlast := (hp.placed m hm).home p.id hb
  -- another file would be the last one, with another number
  have hnil : fs = [] := by
    by_contra hne
    rw [hfiles, getLast?_cons_of_ne_nil hne] at hlast
    obtain ⟨i, hi, -, heq⟩ := hfs _ (mem_of_getLast? hlast)
    refine (nodup_cons.1 hp.numbered).1 (mem_map.2 ⟨i, hi, ?_⟩)
    exact (congrArg ScopeRef.id heq).symm
  rw [hnil] at hfiles
  unfold files at hfiles
  simp only [Dialect.reached, hfiles, getLast?_singleton]
  rfl

/-- **Definitions of imported files** are mentioned by the name under which the file around them was imported. -/
theorem reached_imported {b : Nat} (hb : m.2.header.bound = some b) (hne : b ≠ p.id) (hl : l.importsMembers = .ok true) :
    ∃ i ∈ p.within .proto, i.2.id = b ∧ i.1 ≠ "" ∧
      ∀ name, l.reached ⟨[p]⟩ m.2 name = .ok (i.1 ++ "." ++ name) := by
  obtain ⟨fs, hfiles, hfs⟩ := hp.files_eq hroot hm
  have hlast := (hp.placed m hm).home b hb
  have hcons : fs ≠ [] := by
    rintro rfl
    rw [hfiles, getLast?_singleton, Option.some_inj, ScopeRef.mk.injEq] at hlast
    exact hne hlast.1.symm
  rw [hfiles, getLast?_cons_of_ne_nil hcons] at hlast
  obtain ⟨i, hi, hkind, heq⟩ := hfs _ (mem_of_getLast? hlast)
  obtain rfl : b = i.2.id := congrArg ScopeRef.id heq
  refine ⟨i, ?_, rfl, hp.named i hi hkind, fun name => ?_⟩
  · rw [within_eq_filter]
    exact mem_filter.2 ⟨hi, (isA_proto _).2 hkind⟩
  · have hlength : ¬ (⟨p.id, .proto⟩ :: fs : List ScopeRef).length ≤ 1 := by
      have := length_pos_iff.2 hcons
      rw [length_cons]
      omega
    unfold files at hfiles
    simp only [Dialect.reached, hfiles, getLast?_cons_of_ne_nil hcons, hlast, if_neg hlength, hl,
      hp.knownScopeName_eq hi hkind]
    rfl

end Def.LaidOut

/-! ### Import statements -/

namespace Dialect

/-- The option by which a schema chooses the name of its package. -/
def packageOption : Dialect → String
  | .go => "go.package_path"
  | .python => "py.module_name"
  | _ => ""

/-- **The import statement** for a schema that chooses no name for its package. -/
def importLine (i : String × Def) (l : Dialect) : String :=
  let package := i.2.name ++ "_bp"
  match l with
  | .go => s!"import {i.1} \"{package}\""
  | .python => s!"import {package} as {i.1}"
  | _ => "#include \"" ++ i.2.name ++ "_bp.h\""

/-- Import statements one below the other. -/
def importBlock (p : Def) (l : Dialect) : Block := .stacked (p.imports.map fun i => .ofLines [.of (l.importLine i)])

theorem importStatement_eq {i : String × Def} (hname : i.1 ≠ "") {l : Dialect} (hl : l = .go ∨ l = .python)
    (hoption : i.2.strOption l.packageOption = .ok "") : l.importStatement i.2 (some i.1) = .ok (l.importLine i) := by
  rcases hl with rfl | rfl
  all_goals
    simp only [packageOption] at hoption
    simp only [importStatement, pythonModule, hoption, bind, Except.bind, pure, Except.pure, orElse]
    simp [hname, importLine]

end Dialect

theorem append_bp_eq_outputName (file : Def) (extension : String) :
    file.name ++ "_bp" ++ extension = file.outputName extension ↔
      file.header.origin.file = "" ∨ file.name = Path.stem (Path.baseName file.header.origin.file) := by
  have hinj {a b : String} : a ++ "_bp" ++ extension = b ++ "_bp" ++ extension ↔ a = b := by
    rw [String.append_left_inj, String.append_left_inj]
  unfold Def.outputName
  by_cases hpath : file.header.origin.file = ""
  · simp [hpath]
  · have hempty : file.header.origin.file.isEmpty = false := by simpa using hpath
    simp only [hempty, Bool.false_eq_true, if_false, hinj, hpath, false_or]

/-- **Definitions of other files are mentioned by a name that was imported if and only if the schema imports their file
directly.**  In Go and in Python, what stands in front of the name of a definition is nothing for the definitions of the
schema itself, and otherwise the name under which its file was imported by the file that imports it.  Import statements
are written for the direct imports, under their names, and they call a file by the name of its schema; that is the name
of the file that is written for it if and only if the schema is named like its own file. -/
theorem reached_iff_direct {p : Def} (h : Reader.Accepts p) :
    (∀ m ∈ p.within .definition, ∀ b, m.2.header.bound = some b → ∀ l, l = .go ∨ l = .python →
      b = p.id ∧ (∀ name, Dialect.reached l ⟨[p]⟩ m.2 name = .ok name) ∨
      b ≠ p.id ∧ ∃ i ∈ p.within .proto, i.2.id = b ∧
        (∀ name, Dialect.reached l ⟨[p]⟩ m.2 name = .ok (i.1 ++ "." ++ name)) ∧
        (i ∈ p.imports ↔ ∃ j ∈ p.imports, j.2.id = b)) ∧
    (CHeader.imports p = .ok (Dialect.c.importBlock p) ∧
      ((∀ i ∈ p.imports, i.2.strOption Dialect.go.packageOption = .ok "") →
        GoPackage.imports p = .ok (Dialect.go.importBlock p)) ∧
      ((∀ i ∈ p.imports, i.2.strOption Dialect.python.packageOption = .ok "") →
        PythonModule.imports p = .ok (Dialect.python.importBlock p))) ∧
    ∀ i ∈ p.within .proto, ∀ extension, i.2.name ++ "_bp" ++ extension = i.2.outputName extension ↔
      i.2.header.origin.file = "" ∨ i.2.name = Path.stem (Path.baseName i.2.header.origin.file) := by
  obtain ⟨hp, hroot⟩ := h.laidOut
  have hwithin {i : String × Def} (hi : i ∈ p.imports) : i ∈ p.within .definition :=
    Def.mem_within_of_mem (List.mem_filter.1 hi).1
  have hnamed (i : String × Def) (hi : i ∈ p.imports) : i.1 ≠ "" :=
    hp.named i (hwithin hi) ((Def.isA_proto _).1 (List.mem_filter.1 hi).2)
  refine ⟨fun m hm b hb l hl => ?_, ⟨?_, fun hoption => ?_, fun hoption => ?_⟩, fun i _ => append_bp_eq_outputName i.2⟩
  · by_cases hown : b = p.id
    · subst hown
      exact .inl ⟨rfl, hp.reached_own hroot hm hb⟩
    · have hmembers : l.importsMembers = .ok true := by rcases hl with rfl | rfl <;> rfl
      obtain ⟨i, hi, hid, -, heq⟩ := hp.reached_imported hroot hm hb hown hmembers
      refine .inr ⟨hown, i, hi, hid, heq, fun hi => ⟨i, hi, hid⟩, fun ⟨j, hj, hjid⟩ => ?_⟩
      -- serial numbers tell files apart
      rw [Def.within_eq_filter, List.mem_filter] at hi
      rw [List.inj_on_of_nodup_map (List.nodup_cons.1 hp.numbered).2 hi.1 (hwithin hj) (hid.trans hjid.symm)]
      exact hj
  · exact congrArg (· >>= fun bs => pure (Block.stacked bs)) (Def.mapM_eq_ok fun _ _ => rfl)
  · refine congrArg (· >>= fun bs => pure (Block.stacked bs)) (Def.mapM_eq_ok fun i hi => ?_)
    rw [Dialect.importStatement_eq (hnamed i hi) (.inl rfl) (hoption i hi)]
    rfl
  · refine congrArg (· >>= fun bs => pure (Block.stacked bs)) (Def.mapM_eq_ok fun i hi => ?_)
    rw [Dialect.importStatement_eq (hnamed i hi) (.inr rfl) (hoption i hi)]
    rfl

namespace Sample

/-- Three files, each of which imports the next, with schemas that are not named like their files. -/
def renamed : Files := .ofTree {
  cwd := "/"
  files := [
    (["a"], "proto a\nimport \"b\"\nmessage M\x7bx.y.T t=1\x7d"),
    (["b"], "proto x\nimport \"c\""),
    (["c"], "proto y\nmessage T\x7bbool b=1\x7d")] }

/-- The names of messages in Python code, and for each direct import its name, its import statement and the file that is
written for it. -/
def mentioned (p : Def) : List (Except Fault String) × List (String × Except Fault String × String) :=
  ((p.within .message).map fun m => Dialect.python.name ⟨[p]⟩ m.2 none,
    p.imports.map fun i => (i.1, Dialect.python.importStatement i.2 (some i.1), i.2.outputName ".py"))

end Sample

theorem reached_iff_direct_renamed : ∃ p, Reader.Accepts p ∧
    Sample.mentioned p = ([.ok "y.T", .ok "M"], [("x", .ok "import x_bp as x", "b_bp.py")]) ∧
    (∀ m ∈ p.within .definition, ∀ b, m.2.header.bound = some b →
      b = p.id ∧ (∀ name, Dialect.python.reached ⟨[p]⟩ m.2 name = .ok name) ∨
      b ≠ p.id ∧ ∃ i ∈ p.within .proto, i.2.id = b ∧
        (∀ name, Dialect.python.reached ⟨[p]⟩ m.2 name = .ok (i.1 ++ "." ++ name)) ∧
        (i ∈ p.imports ↔ ∃ j ∈ p.imports, j.2.id = b)) := by
  have hmentioned : (Reader.parse Sample.renamed "a" false).result.map Sample.mentioned =
      .ok ([.ok "y.T", .ok "M"], [("x", .ok "import x_bp as x", "b_bp.py")]) := by
    decide +kernel
  cases hparse : (Reader.parse Sample.renamed "a" false).result with
  | error f =>
    rw [hparse] at hmentioned
    cases hmentioned
  | ok p =>
    rw [hparse] at hmentioned
    have haccepts : Reader.Accepts p := ⟨_, _, _, .inl hparse⟩
    exact ⟨p, haccepts, Except.ok.inj hmentioned, fun m hm b hb => (reached_iff_direct haccepts).1 m hm b hb
      _ (.inr rfl)⟩

end BitSchema
