import BitSchema.Fault
import BitSchema.Files.Path

/-!
# Files

The reader meets files only through `Files.look`, which says what stands at a path.  Two paths lead to
the same file exactly when their entries have the same real name; the real names of all files are
listed in `Files.reals`.

* `Files.ofTree` is a directory tree held in memory.  Paths are walked component by component, so
  `a/../b` needs a directory `a`.
* `Files.ofList` knows the answers for a list of paths and calls every other path unread.
-/

namespace BitSchema

inductive Entry where
  /-- A file with its real name and its content. -/
  | file (real : String) (content : String)
  | directory (real : String)
  | missing
  /-- A component before the last one is a file. -/
  | notDirectory
  /-- The path or one of its components is longer than paths can be. -/
  | tooLong
  /-- The path holds the character number zero. -/
  | invalid
  /-- Nobody has looked yet. -/
  | unread
deriving DecidableEq, Repr

/-- **Files.** -/
structure Files where
  /-- The working directory. -/
  cwd : String
  /-- What stands at a path. -/
  look : String → Entry
  /-- The real names of all files. -/
  reals : List String
  real_mem : ∀ {path real content}, look path = .file real content → real ∈ reals

namespace Files

def stat (fs : Files) (path : String) : Except Fault String :=
  match fs.look path with
  | .file real _ => .ok real
  | .directory real => .ok real
  | .missing => .error (.fileMissing path)
  | .notDirectory => .error (.notDirectory path)
  | .tooLong => .error (.pathTooLong path)
  | .invalid => .error .pathInvalid
  | .unread => .error (.fileUnread path)

/-- **Same file.** Looks at both paths, the first one first. -/
def same (fs : Files) (a b : String) : Except Fault Bool := do
  let ra ← fs.stat a
  let rb ← fs.stat b
  return ra == rb

/-- **Reading.** The content of a file with unified line ends. -/
def read (fs : Files) (path : String) : Except Fault String :=
  match fs.look path with
  | .file _ content => .ok (Text.unifyNewlines content)
  | .directory _ => .error (.isDirectory path)
  | .missing => .error (.fileMissing path)
  | .notDirectory => .error (.notDirectory path)
  | .tooLong => .error (.pathTooLong path)
  | .invalid => .error .pathInvalid
  | .unread => .error (.fileUnread path)

def checkHome (fs : Files) (path : String) : Except Fault Unit :=
  let dir := Path.directory (Path.withoutSlashes path)
  match fs.look (if dir.isEmpty then fs.cwd else dir) with
  | .directory _ => if path.isEmpty then .error (.fileMissing path) else .ok ()
  | .notDirectory => .error (.notDirectory path)
  | .file _ _ => .error (.notDirectory path)
  | .missing => .error (.fileMissing path)
  | .tooLong => .error (.pathTooLong path)
  | .invalid => .error .pathInvalid
  | .unread => .error (.fileUnread dir)

/-- **Writing** is possible where a file stands, or where nothing stands in a directory.  A slash at the end
asks for a directory. -/
def checkWritable (fs : Files) (path : String) : Except Fault Unit :=
  if Path.withoutSlashes path != path then do
    fs.checkHome path
    .error (.isDirectory path)
  else
    match fs.look path with
    | .file _ _ => .ok ()
    | .directory _ => .error (.isDirectory path)
    | .notDirectory => .error (.notDirectory path)
    | .tooLong => .error (.pathTooLong path)
    | .invalid => .error .pathInvalid
    | .unread => .error (.fileUnread path)
    | .missing => fs.checkHome path

def ofList (cwd : String) (entries : List (String × Entry)) : Files where
  cwd
  look path := (entries.lookup path).getD .unread
  reals := entries.filterMap fun e =>
    match e.2 with
    | .file real _ => some real
    | _ => none
  real_mem := by
    intro path real content h
    cases hl : entries.lookup path with
    | none => simp [hl] at h
    | some e =>
      rw [hl, Option.getD_some] at h
      subst h
      rw [List.mem_filterMap]
      obtain ⟨l₁, l₂, hs, -⟩ := List.lookup_eq_some_iff.mp hl
      exact ⟨(path, .file real content), by simp [hs], rfl⟩

end Files

/-! ### Trees in memory -/

/-- A directory tree: its files and further directories by their components, seen from the working
directory. -/
structure Tree where
  cwd : String
  files : List (List String × String)
  dirs : List (List String) := []

namespace Tree

inductive Place where
  /-- Something below the working directory, or that directory itself. -/
  | inside (path : List String)
  /-- A directory above the working directory. -/
  | above
  | missing
  | notDirectory
  | tooLong
deriving DecidableEq, Repr

def file? (t : Tree) (path : List String) : Option (List String × String) :=
  t.files.find? fun f => f.1 == path

def isDirectory (t : Tree) (path : List String) : Bool :=
  path.isEmpty || (t.dirs ++ t.files.map (·.1)).any fun p =>
    path.isPrefixOf p && (path.length < p.length || t.dirs.contains path)

def step (t : Tree) (place : Place) (name : String) : Place :=
  match place with
  | .inside path =>
    if !t.isDirectory path then .notDirectory
    else if name.isEmpty || name == "." then .inside path
    else if name == ".." then if path.isEmpty then .above else .inside path.dropLast
    else
      let path := path ++ [name]
      if name.utf8ByteSize > Path.maxComponent then .tooLong
      else if (t.file? path).isSome || t.isDirectory path then .inside path else .missing
  | .above =>
    if name.isEmpty || name == "." || name == ".." then .above
    else if name.utf8ByteSize > Path.maxComponent then .tooLong
    else .missing
  | place => place

def local? (t : Tree) (path : String) : Option (List String) :=
  if path == t.cwd then some []
  else
    let lead := t.cwd.toList ++ ['/']
    if lead.isPrefixOf path.toList then
      some (Path.parts (String.ofList (path.toList.drop lead.length)))
    else none

def walk (t : Tree) (path : String) : Place :=
  if path.isEmpty then .missing
  else
    match t.local? path with
    | some parts => parts.foldl t.step (.inside [])
    | none =>
      if Path.isAbsolute path then (Path.parts path).foldl t.step .above
      else (Path.parts path).foldl t.step (.inside [])

def look (t : Tree) (path : String) : Entry :=
  if path.toList.contains '\x00' then .invalid
  else if path.utf8ByteSize > Path.maxLength then .tooLong
  else match t.walk path with
  | .inside p =>
    match t.file? p with
    | some f => .file ("/".intercalate f.1) f.2
    | none => .directory ("/".intercalate p)
  | .above => .directory "/"
  | .missing => .missing
  | .notDirectory => .notDirectory
  | .tooLong => .tooLong

def ofPaths (cwd : String) (files : List (String × String)) (dirs : List String) : Tree where
  cwd
  files := files.map fun f => (clean f.1, f.2)
  dirs := dirs.map clean
where
  /-- The components that matter. -/
  clean (path : String) : List String :=
    (Path.parts path).filter fun p => !(p.isEmpty || p == ".")

def write (t : Tree) (path content : String) : Tree :=
  match t.walk (if (Path.directory path).isEmpty then "." else Path.directory path) with
  | .inside dir =>
    let place := dir ++ [Path.baseName path]
    { t with files := (place, content) :: t.files.filter fun f => f.1 != place }
  | _ => t

theorem real_mem (t : Tree) {path real content : String} (h : t.look path = .file real content) :
    real ∈ t.files.map fun f => "/".intercalate f.1 := by
  unfold look at h
  split at h <;> try contradiction
  split at h <;> try contradiction
  split at h <;> try contradiction
  split at h <;> try contradiction
  rename_i hf
  injection h with h1 _
  exact List.mem_map.2 ⟨_, List.mem_of_find?_eq_some hf, h1⟩

end Tree

def Files.ofTree (t : Tree) : Files where
  cwd := t.cwd
  look := t.look
  reals := t.files.map fun f => "/".intercalate f.1
  real_mem := t.real_mem

end BitSchema
