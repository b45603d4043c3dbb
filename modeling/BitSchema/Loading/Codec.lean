import BitSchema.Loading.Object
import BitSchema.Loading.Ordinary
import BitSchema.Script.Session

/-!
# Codecs

A codec makes objects of the classes of the modules that are written for schema files, keeps them under names,
changes them, packs and unpacks them.  If all modules are ordinary, objects of messages are `Object`s.  What else
modules offer, and what is in modules that are not ordinary, is found by carrying out the modules
(`Script.Session`).  A step that fails leaves what it had done.
-/

namespace BitSchema.Loading

open Wire

/-! ### Plain data -/

mutual

/-- **A value as plain data.** -/
def valueSketch : Value → Sketch
  | .bool b => .bool b
  | .int n => .int n
  | .bytes bs => .record [("bytes", .text (Hex.write bs))]
  | .list ⟨items⟩ => .list (itemSketches items)
  | .record _ slots => .record (slotSketches slots)

def itemSketches : List Value → List Sketch
  | [] => []
  | v :: r => valueSketch v :: itemSketches r

def slotSketches : List (Slot × Value) → List (String × Sketch)
  | [] => []
  | (s, v) :: r => if s.isField then (s.name, valueSketch v) :: slotSketches r else slotSketches r

end

def literalSketch : Literal → Sketch
  | .bool b => .bool b
  | .int n => .int n
  | .str s => .text s

/-! ### Codecs -/

/-- **Codecs.** -/
structure Codec where
  /-- The modules, if they are all ordinary. -/
  modules : List Written
  objects : List (String × Object) := []
  /-- All else. -/
  scripts : Script.Session
  /-- What was packed last, by the names of the objects. -/
  packed : List (String × Array UInt8) := []

namespace Codec

/-- **The codec of schema files.**  Of several modules with one name the last one counts. -/
def ofFiles (files : List Def) : Except Fault Codec := do
  let written ← files.mapM Written.ofFile
  let modules := (keyed (written.map fun w => (w.name, w))).map (·.2)
  let ordinary := allDifferent (written.map (·.name)) && modules.all Written.isOrdinary
  return { modules := if ordinary then modules else []
           scripts := { sources := modules.map fun w => (w.name, w.text) } }

def moduleOf (file : String) : String := Path.stem (Path.baseName file) ++ "_bp"

def meaning? (c : Codec) (file name : String) : Option (Written × Meaning) := do
  let w ← c.modules.find? fun w => w.name == moduleOf file
  return (w, ← w.meaning? name)

def keep (c : Codec) (name : String) (o : Object) : Codec :=
  { c with objects := (name, o) :: c.objects, scripts := c.scripts.without name }

def played {α : Type} (c : Codec) (r : Script.Session × Except Fault α) (show' : α → Sketch) :
    Codec × Except Fault Sketch :=
  ({ c with scripts := r.1 }, r.2.map show')

def withObject (c : Codec) (name : String) (step : Object → Codec × Except Fault Sketch)
    (other : Script.Session → Script.Session × Except Fault Sketch) : Codec × Except Fault Sketch :=
  match c.objects.lookup name with
  | some o => step o
  | none => c.played (other c.scripts) id

/-- **A new object** of a class of the module of a schema file. -/
def create (c : Codec) (file name className : String) : Codec × Except Fault Sketch :=
  match c.meaning? file className with
  | some (w, .message d) =>
    match d.initialBy w.title with
    | .record title slots => (c.keep name ⟨d, title, slots⟩, .ok (valueSketch (.record title slots)))
    | v => (c, .ok (valueSketch v))
  | _ =>
    let (scripts, r) := c.scripts.create (moduleOf file) name className
    let objects := if r.isOk then c.objects.filter fun o => o.1 != name else c.objects
    ({ c with scripts, objects }, r)

/-- **Puts a value** into an object. -/
def put (c : Codec) (name : String) (path : List Step) (x : Value) : Codec × Except Fault Sketch :=
  c.withObject name
    (fun o =>
      match o.put path x with
      | .ok o => (c.keep name o, .ok (.bool true))
      | .error f => (c, .error f))
    fun s => s.put name path x

/-- **Looks at a part** of an object. -/
def get (c : Codec) (name : String) (path : List Step) : Codec × Except Fault Sketch :=
  c.withObject name (fun o => (c, (o.get path).map valueSketch)) fun s => s.get name path

/-- **The fields** of an object. -/
def fields (c : Codec) (name : String) : Codec × Except Fault Sketch :=
  c.withObject name (fun o => (c, o.fields.map valueSketch)) fun s => s.fields name

/-- **Packs** an object. -/
def encode (c : Codec) (name : String) : Codec × Except Fault Sketch :=
  let (c, r) := match c.objects.lookup name with
    | some o => (c, o.encode)
    | none =>
      let (scripts, r) := c.scripts.encode name
      ({ c with scripts }, r)
  match r with
  | .ok bytes => ({ c with packed := (name, bytes) :: c.packed }, .ok (.text (Hex.write bytes)))
  | .error f => (c, .error f)

def kept {α : Type} (entries : List (String × α)) (name : String) : Except Fault α :=
  match entries.lookup name with
  | some a => .ok a
  | none => .error (.unknownKey name)

def lastPacked (c : Codec) (name : String) : Except Fault (Array UInt8) := kept c.packed name

/-- **Unpacks** bytes into an object, which must be there before they are looked for. -/
def decode (c : Codec) (name : String) (bytes : Codec → Except Fault (Array UInt8)) : Codec × Except Fault Sketch :=
  match c.objects.lookup name, c.scripts.has name, bytes c with
  | none, false, _ => (c, .error (.unknownKey name))
  | _, _, .error f => (c, .error f)
  | some o, _, .ok bytes =>
    let (o, r) := o.decode bytes
    (c.keep name o, r.map fun _ => valueSketch o.value)
  | none, true, .ok bytes => c.played (c.scripts.decode name bytes) id

/-- **The JSON text** of an object, with an indentation and separators. -/
def json (c : Codec) (name : String) (indent : Option String) (separators : List String) :
    Codec × Except Fault Sketch :=
  c.withObject name (fun o => (c, (o.json (JsonLayout.of indent separators)).map .text))
    fun s => s.json name indent separators

/-- **The size** of an object. -/
def size (c : Codec) (name : String) : Codec × Except Fault Sketch := c.get name [.field sizeName]

/-- **A constant** of the module of a schema file. -/
def constant (c : Codec) (file name : String) : Codec × Except Fault Sketch :=
  match c.meaning? file name with
  | some (_, .value v) => (c, .ok (literalSketch v))
  | _ => c.played (c.scripts.constant (moduleOf file) name) id

/-- **The names of the fields of an enum** by value, from the map with the given name. -/
def names (c : Codec) (file name : String) : Codec × Except Fault Sketch :=
  match c.meaning? file name with
  | some (_, .nameMap entries) => (c, .ok (.list (entries.map fun (v, n) => .pair (.int v) (.text n))))
  | _ => c.played (c.scripts.entries (moduleOf file) name) id

end Codec

end BitSchema.Loading
