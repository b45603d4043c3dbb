import BitSchema.Script.Code

/-!
# Values of scripts

Values that cannot change stand for themselves; lists, tables, classes and the like live in a `Store` and are
referred to by number.  What the language and its library offer is a `Val.tool` with a name.

`Script.Run` is a computation on a store that may stop: because something was raised, or because it asks for
more than is carried out here.
-/

namespace BitSchema.Script

/-- **Values.** -/
inductive Val where
  | none
  | ellipsis
  | notImplemented
  | bool (b : Bool)
  | int (n : Int)
  | float (x : Float)
  | text (s : String)
  | bytes (bs : List UInt8)
  | tuple (items : List Val)
  | slice (start stop step : Val)
  /-- Numbers from a start up to an end. -/
  | span (start stop step : Int)
  /-- Something of the language or its library. -/
  | tool (name : String)
  /-- A tool that is told these values first and then, as a member of a class, whose it is. -/
  | method (name : String) (known : List Val)
  /-- A function with its first argument. -/
  | bound (f self : Val)
  /-- A type with parameters. -/
  | generic (origin : Val) (params : List Val)
  /-- Something that can be raised. -/
  | problem (kind : Val) (args : List Val)
  /-- An object of the store. -/
  | ref (k : Nat)

instance : Inhabited Val := ⟨.none⟩

abbrev Names := List (String × Val)

def Names.put (ns : Names) (name : String) (v : Val) : Names :=
  match ns with
  | [] => [(name, v)]
  | (n, w) :: r => if n == name then (n, v) :: r else (n, w) :: Names.put r name v

def Names.without (ns : Names) (name : String) : Names := ns.filter fun e => e.1 != name

structure Frame where
  names : Nat
  locals : List String
  /-- Whether it belongs to something that goes through other things. -/
  gathering : Bool := false

/-- **Functions.** -/
structure Function where
  name : String
  /-- The name with the way to it. -/
  title : String
  params : List (Parameter Expr)
  fallbacks : Names
  body : List Stmt
  /-- The script in which it stands. -/
  unit : Nat
  /-- The frames around it, from the inside out. -/
  frames : List Frame
  locals : List String
  globals : List String
  outers : List String
  doc : Val := .none

/-- **Classes.** -/
structure Class where
  name : String
  title : String
  home : String
  bases : List Val
  /-- The classes above it, in the order in which names are looked up. -/
  line : List Val
  names : Names

/-- **Objects** of the store. -/
inductive Obj where
  | list (items : Array Val)
  | bytearray (bytes : Array UInt8)
  | dict (entries : Array (Val × Val))
  | set (items : Array Val) (frozen : Bool)
  | function (f : Function)
  | classOf (c : Class)
  | thing (kind : Val) (names : Names)
  /-- A script or a library by name. -/
  | unit (name : String) (names : Names)
  | frame (names : Names)
  | iterator (items : List Val)

instance : Inhabited Obj := ⟨.frame []⟩

/-- **Stores.** -/
structure Store where
  objects : Array Obj := #[]
  /-- The scripts that have been brought in. -/
  units : List (String × Nat) := []
  /-- The scripts that are still being brought in. -/
  busy : List Nat := []
  /-- How many functions are being carried out. -/
  depth : Nat := 0

inductive Halt where
  | raised (v : Val)
  | refused (f : Fault)

/-- **Computations.** -/
abbrev Run := ExceptT Halt (StateM Store)

abbrev Caller := Val → List Val → Names → Run Val

namespace Run

def fail {α : Type} (kind text : String) : Run α := throw (.raised (.problem (.tool kind) [.text text]))

def mismatch {α : Type} (text : String) : Run α := fail "TypeError" text

def badValue {α : Type} (text : String) : Run α := fail "ValueError" text

def beyond {α : Type} : Run α := throw (.refused .tooDeep)

def alloc (o : Obj) : Run Val :=
  modifyGet fun st => (.ref st.objects.size, { st with objects := st.objects.push o })

def read (k : Nat) : Run Obj := do return (← get).objects.getD k default

def write (k : Nat) (o : Obj) : Run Unit :=
  modify fun st => { st with objects := st.objects.setIfInBounds k o }

def object? (v : Val) : Run (Option Obj) :=
  match v with
  | .ref k => some <$> read k
  | _ => return none

def list (items : List Val) : Run Val := alloc (.list items.toArray)

def namesOf (k : Nat) : Run Names := do
  match ← read k with
  | .unit _ names | .frame names | .thing _ names => return names
  | .classOf c => return c.names
  | _ => return []

def changeNames (k : Nat) (f : Names → Names) : Run Unit := do
  match ← read k with
  | .unit name names => write k (.unit name (f names))
  | .frame names => write k (.frame (f names))
  | .thing kind names => write k (.thing kind (f names))
  | .classOf c => write k (.classOf { c with names := f c.names })
  | _ => pure ()

end Run

end BitSchema.Script
