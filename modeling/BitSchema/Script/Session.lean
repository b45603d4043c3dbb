import BitSchema.Script.Machine
import BitSchema.Sketch

/-!
# Sessions with scripts

A session brings in scripts by name, makes things of their classes, keeps them under names, and works with
them.  A step that fails leaves what it had done.
-/

namespace BitSchema.Script

open Run

/-- **Sessions.** -/
structure Session where
  sources : Sources
  store : Store := {}
  things : List (String × Val) := []

namespace Session

/-! ### Faults -/

def machine (s : Session) : Machine := Script.machine s.sources fuel

def words (p : Val) : Run String := do
  match p with
  | .problem (.tool "KeyError") [.text key] => return key
  | .problem (.tool "AssertionError") [.problem kind args] =>
    return (← typeName kind) ++ ": " ++ (← plain (.problem kind args))
  | p => plain p

def faultOf (store : Store) (p : Val) : Fault :=
  let told : Run (String × String) := do return (← kindWord p, ← words p)
  match told.run.run store with
  | (.ok (kind, text), _) => .raised kind text
  | (.error _, _) => .tooDeep

def run {α : Type} (s : Session) (c : Machine → Run α) : Session × Except Fault α :=
  let m := s.machine
  match (c m).run.run { s.store with depth := 0 } with
  | (.ok a, store) => ({ s with store }, .ok a)
  | (.error (.raised p), store) => ({ s with store }, .error (faultOf store p))
  | (.error (.refused f), store) => ({ s with store }, .error f)

/-! ### Values -/

def bytesSketch (bs : List UInt8) : Sketch :=
  .record [("bytes", .text (Wire.Hex.write bs.toArray))]

def sketchAt (call : Caller) : Nat → Val → Run Sketch
  | 0, _ => return .none
  | fuel + 1, v => do
    let inner := sketchAt call fuel
    match v with
    | .bool b => return .bool b
    | .int n => return .int n
    | .float x =>
      match FloatText.decimal? x with
      | some (n, places) => return .decimal n places
      | none => return .none
    | .text s => return .text s
    | .bytes bs => return bytesSketch bs
    | .tuple items => return .list (← items.mapM inner)
    | v =>
      match ← recordItems? v, ← object? v with
      | some (_, fields), _ =>
        return .record (← fields.mapM fun (n, _) => do return (n, ← inner (← getAttr call v n)))
      | none, some (.list items) => return .list (← items.toList.mapM inner)
      | none, some (.bytearray bs) => return bytesSketch bs.toList
      | none, some (.dict entries) =>
        return .record (← entries.toList.mapM fun (k, v) => do return (← plain k, ← inner v))
      | none, _ => return .none

/-- **A value as plain data.** -/
def sketch (call : Caller) (v : Val) : Run Sketch := sketchAt call showDepth v

def ofValue : Nat → Wire.Value → Run Val
  | 0, _ => beyond
  | fuel + 1, v => do
    match v with
    | .bool b => return .bool b
    | .int n => return .int n
    | .bytes bs => alloc (.bytearray bs)
    | .list items => do list (← items.toList.mapM (ofValue fuel))
    | _ => return .none

/-! ### Units -/

def unit (m : Machine) (name : String) : Run Val := do
  match name.splitOn "." with
  | [_] => m.bring name
  | first :: _ =>
    let _ ← m.bring first
    fail "ModuleNotFoundError" (notInside first name)
  | [] => beyond

def member (m : Machine) (home name : String) : Run Val := do getAttr m.call (← unit m home) name

/-! ### Steps -/

def kept {α : Type} (entries : List (String × α)) (name : String) : Run α :=
  match entries.lookup name with
  | some a => return a
  | none => throw (.refused (.unknownKey name))

def follow (call : Caller) (v : Val) : Wire.Step → Run Val
  | .field name => getAttr call v name
  | .index k => item v (.int k)

/-- **A new thing** of a class. -/
def create (s : Session) (home name className : String) : Session × Except Fault Sketch :=
  let (s, r) := s.run fun m => do
    let v ← m.call (← member m home className) [] []
    return v
  match r with
  | .error f => (s, .error f)
  | .ok v =>
    let s := { s with things := (name, v) :: s.things }
    s.run fun m => sketch m.call v

def has (s : Session) (name : String) : Bool := (s.things.lookup name).isSome

def without (s : Session) (name : String) : Session := { s with things := s.things.filter fun t => t.1 != name }

/-- **Puts a value** into a thing. -/
def put (s : Session) (name : String) (path : List Wire.Step) (x : Wire.Value) : Session × Except Fault Sketch :=
  s.run fun m => do
    let v ← kept s.things name
    let x ← ofValue 100 x
    let owner ← path.dropLast.foldlM (follow m.call) v
    match path.getLast? with
    | some (.field n) => setAttr m.call owner n x
    | some (.index k) => putItemAt owner (.int k) x
    | none => fail "IndexError" "list index out of range"
    return .bool true

/-- **Looks at a part** of a thing. -/
def get (s : Session) (name : String) (path : List Wire.Step) : Session × Except Fault Sketch :=
  s.run fun m => do
    let v ← kept s.things name
    sketch m.call (← path.foldlM (follow m.call) v)

/-- **The fields** of a thing. -/
def fields (s : Session) (name : String) : Session × Except Fault Sketch :=
  s.run fun m => do
    let v ← kept s.things name
    sketch m.call (← ask m.call v "to_dict" [])

/-- **Packs** a thing. -/
def encode (s : Session) (name : String) : Session × Except Fault (Array UInt8) :=
  s.run fun m => do
    let v ← kept s.things name
    let bytes ← ask m.call v "encode" []
    match ← ask m.call bytes "hex" [], ← bytes? bytes with
    | _, some bs => return bs.toArray
    | _, none => beyond

/-- **Unpacks** bytes into a thing. -/
def decode (s : Session) (name : String) (bytes : Array UInt8) : Session × Except Fault Sketch :=
  s.run fun m => do
    let v ← kept s.things name
    let bytes ← alloc (.bytearray bytes)
    let _ ← ask m.call v "decode" [bytes]
    sketch m.call v

/-- **The JSON text** of a thing. -/
def json (s : Session) (name : String) (indent : Option String) (separators : List String) :
    Session × Except Fault Sketch :=
  s.run fun m => do
    let v ← kept s.things name
    let unit : Names := match indent with
      | some s => [("indent", .text s)]
      | none => []
    let marks : Names := if separators.isEmpty then [] else [("separators", .tuple (separators.map .text))]
    let f ← getAttr m.call v "to_json"
    sketch m.call (← m.call f [] (unit ++ marks))

/-- **What a name means** in a unit. -/
def constant (s : Session) (home name : String) : Session × Except Fault Sketch :=
  s.run fun m => do sketch m.call (← member m home name)

/-- **The entries of a table** of a unit. -/
def entries (s : Session) (home name : String) : Session × Except Fault Sketch :=
  s.run fun m => do
    let items ← ask m.call (← member m home name) "items" []
    return .list (← (← iterate items).mapM (sketch m.call))

end Session

end BitSchema.Script
