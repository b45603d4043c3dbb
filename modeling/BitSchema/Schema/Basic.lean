/-!
# Schemas

A schema file defines constants, aliases, enums and messages, sets options and imports other schema
files.  Its definitions form a tree: the file itself (`Def.proto`) is a scope, and so are its enums
and messages.

* `Ty` is a type of values: a base type, an array, or a defined type (an alias, enum or message).
  A defined type is held by value; it is complete before anything can refer to it.
* `Def` is a definition.  Every definition has a `Header`, which says where it stands.
* The members of a scope are kept in the order of their declaration, under the names by which the
  scope knows them.  Only an imported file may be known under a name that is not its own.

Every definition has a serial number, `Header.id`, given out when the definition is read.  Scopes are
referred to by these numbers, because a file may declare its name after its definitions.
-/

namespace BitSchema

/-- Where a piece of a schema was read. -/
structure Origin where
  /-- The source text that stands for the piece. -/
  token : String := ""
  line : Int := 0
  file : String := ""
deriving DecidableEq, Repr

structure Comment where
  /-- The comment with its two slashes. -/
  source : String
  line : Int := 0
  file : String := ""
deriving DecidableEq, Repr

inductive ScopeKind where
  | proto | enum | message
deriving DecidableEq, Repr

structure ScopeRef where
  id : Nat
  kind : ScopeKind
deriving DecidableEq, Repr

/-- **Headers.** What all definitions have in common. -/
structure Header where
  origin : Origin := {}
  /-- The serial number of the definition. -/
  id : Nat := 0
  name : String := ""
  /-- The scopes around the definition, outermost first.  The scopes of the importing files come
  before those of the definition's own file. -/
  scopes : List ScopeRef := []
  /-- The comment lines directly above. -/
  comments : List Comment := []
  /-- How far the definition is indented; `-1` if it does not start its line. -/
  indent : Int := 0
  /-- The file the definition belongs to; none for a file itself. -/
  bound : Option Nat := none
  /-- The definition takes no more changes.  Scopes are frozen when they are closed, all other definitions at
  once. -/
  frozen : Bool := true
deriving DecidableEq, Repr

/-- Values of options and constants. -/
inductive Literal where
  | bool (b : Bool)
  | int (n : Int)
  | str (s : String)
deriving DecidableEq, Repr

/-- The kinds of values of options and constants. -/
inductive LiteralKind where
  | boolean | integer | string
deriving DecidableEq, Repr

namespace Literal

def kind : Literal → LiteralKind
  | .bool _ => .boolean
  | .int _ => .integer
  | .str _ => .string

/-- The value as it is written in descriptions. -/
def shown : Literal → String
  | .bool b => if b then "True" else "False"
  | .int n => toString n
  | .str s => s

end Literal

mutual

/-- **Types.** -/
inductive Ty where
  /-- A type that has not been determined; `missing` if none was given at all. -/
  | unknown (origin : Origin) (missing : Bool)
  | bool (origin : Origin)
  | byte (origin : Origin)
  /-- Unsigned integers of `cap` bits. -/
  | uint (origin : Origin) (cap : Nat)
  /-- Signed integers of `cap` bits. -/
  | int (origin : Origin) (cap : Nat)
  /-- Arrays of `cap` elements; an extensible array is preceded by its capacity on the wire. -/
  | array (origin : Origin) (element : Ty) (cap : Nat) (ext : Bool)
  /-- A defined type. -/
  | named (d : Def)

/-- **Definitions.** -/
inductive Def where
  /-- An option; `kind` is empty for an option whose kind of value is left open. -/
  | option (h : Header) (kind : Option LiteralKind) (value : Literal)
  /-- A constant; `kind` is empty for a constant whose kind of value is left open. -/
  | constant (h : Header) (kind : Option LiteralKind) (value : Literal)
  | typeAlias (h : Header) (target : Ty)
  /-- An enum whose values are unsigned integers of `cap` bits; `origin` is that of the type. -/
  | enum (h : Header) (origin : Origin) (cap : Nat) (members : List (String × Def))
  | enumField (h : Header) (value : Nat)
  /-- A message; an extensible message is preceded by its size on the wire. -/
  | message (h : Header) (ext : Bool) (members : List (String × Def))
  | field (h : Header) (ty : Ty) (number : Nat)
  /-- A schema file. -/
  | proto (h : Header) (members : List (String × Def))

end

deriving instance Repr for Ty, Def

instance : Inhabited Ty := ⟨.unknown {} true⟩

instance : Inhabited Def := ⟨.proto {} []⟩

abbrev Members := List (String × Def)

namespace Def

def header : Def → Header
  | .option h _ _ => h
  | .constant h _ _ => h
  | .typeAlias h _ => h
  | .enum h _ _ _ => h
  | .enumField h _ => h
  | .message h _ _ => h
  | .field h _ _ => h
  | .proto h _ => h

/-- The members of a scope; none for other definitions. -/
def members : Def → Members
  | .enum _ _ _ ms => ms
  | .message _ _ ms => ms
  | .proto _ ms => ms
  | _ => []

def withMembers (ms : Members) : Def → Def
  | .enum h o c _ => .enum h o c ms
  | .message h e _ => .message h e ms
  | .proto h _ => .proto h ms
  | d => d

def withHeader (h : Header) : Def → Def
  | .option _ k v => .option h k v
  | .constant _ k v => .constant h k v
  | .typeAlias _ t => .typeAlias h t
  | .enum _ o c ms => .enum h o c ms
  | .enumField _ v => .enumField h v
  | .message _ e ms => .message h e ms
  | .field _ t n => .field h t n
  | .proto _ ms => .proto h ms

/-- The definition, which from now on takes no more changes. -/
def freeze (d : Def) : Def := d.withHeader { d.header with frozen := true }

def scopeKind? : Def → Option ScopeKind
  | .enum _ _ _ _ => some .enum
  | .message _ _ _ => some .message
  | .proto _ _ => some .proto
  | _ => none

/-- Scopes are enums, messages and files. -/
def isScope (d : Def) : Bool := d.scopeKind?.isSome

/-- Defined types are aliases, enums and messages. -/
def isType : Def → Bool
  | .typeAlias _ _ => true
  | .enum _ _ _ _ => true
  | .message _ _ _ => true
  | _ => false

def name (d : Def) : String := d.header.name

/-- The serial number of a definition. -/
def id (d : Def) : Nat := d.header.id

def scopeRef? (d : Def) : Option ScopeRef :=
  d.scopeKind?.map fun k => ⟨d.id, k⟩

@[simp] theorem members_withMembers {d : Def} {ms : Members} (h : d.isScope = true) :
    (d.withMembers ms).members = ms := by
  cases d <;> first | rfl | simp [isScope, scopeKind?] at h

@[simp] theorem header_withMembers (d : Def) (ms : Members) :
    (d.withMembers ms).header = d.header := by
  cases d <;> rfl

@[simp] theorem header_withHeader (d : Def) (h : Header) : (d.withHeader h).header = h := by
  cases d <;> rfl

theorem header_freeze (d : Def) : d.freeze.header = { d.header with frozen := true } :=
  d.header_withHeader _

theorem frozen_freeze (d : Def) : d.freeze.header.frozen = true :=
  congrArg Header.frozen d.header_freeze

@[simp] theorem name_freeze (d : Def) : d.freeze.name = d.name := by
  rw [name, header_freeze, name]

theorem id_withHeader (d : Def) (h : Header) : (d.withHeader h).id = h.id :=
  congrArg Header.id (d.header_withHeader h)

@[simp] theorem members_withHeader (d : Def) (h : Header) : (d.withHeader h).members = d.members := by
  cases d <;> rfl

@[simp] theorem scopeKind?_withHeader (d : Def) (h : Header) :
    (d.withHeader h).scopeKind? = d.scopeKind? := by
  cases d <;> rfl

end Def

namespace Ty

/-- Where a type was read; for a defined type, where it was defined. -/
def origin : Ty → Origin
  | .unknown o _ => o
  | .bool o => o
  | .byte o => o
  | .uint o _ => o
  | .int o _ => o
  | .array o _ _ _ => o
  | .named d => d.header.origin

/-- Built-in types and arrays are frozen from the start. -/
def frozen : Ty → Bool
  | .named d => d.header.frozen
  | _ => true

end Ty

end BitSchema
