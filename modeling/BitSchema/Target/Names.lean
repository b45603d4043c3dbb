import BitSchema.Schema.Describe
import BitSchema.Target.Dialect

/-!
# Names of definitions in a dialect

Languages differ in what can be nested.  A definition inside messages is named by the names of those
messages and its own, joined by underscores; enums open no name space.  A definition of an imported file
is reached through the name under which the file was imported, where the language has such names.  The
case of a name follows from the kind of the definition.

* `Env.knownName` is the name by which a definition is known in the scope around it.
* `Dialect.innerName` is the name inside the file the definition belongs to.
* `Dialect.name` adds the way to that file.
-/

namespace BitSchema

namespace Env

/-- The name by which the innermost scope around a definition knows it, or else its own. -/
def knownName (env : Env) (d : Def) : String :=
  match d.header.scopes.getLast? with
  | none => d.name
  | some s =>
    match (env.scope? s.id).bind fun scope => Members.nameOf? scope.members d.id with
    | some n => if n.isEmpty then d.name else n
    | none => d.name

def knownScopeName (env : Env) (s : ScopeRef) : String :=
  match env.scope? s.id with
  | some d => env.knownName d
  | none => ""

def boundOrFail (env : Env) (d : Def) : Except Fault Def :=
  match env.bound? d with
  | some b => .ok b
  | none => .error (.internal "BoundDefinition got bound None")

def messageOf (env : Env) (d : Def) : Except Fault Def :=
  match d.header.scopes.getLast? with
  | none => .error (.indexRange .scopes)
  | some s =>
    match env.scope? s.id with
    | some (.message h e ms) => .ok (.message h e ms)
    | _ => .error (.internal "message_field's last scope not message")

def enumOf (env : Env) (d : Def) : Except Fault Def :=
  match d.header.scopes.getLast? with
  | none => .error (.indexRange .scopes)
  | some s =>
    match env.scope? s.id with
    | some (.enum h o cap ms) => .ok (.enum h o cap ms)
    | _ => .error (.internal "enum_field's last scope not enum")

end Env

def ScopeRef.isNamespace (s : ScopeRef) : Bool := s.kind != .enum

namespace Dialect

def nameStart (l : Dialect) (env : Env) (d : Def) : Except Fault String :=
  if d.isA .boundDefinition then do
    let file ← env.boundOrFail d
    if l.namePrefixOption.isEmpty then return "" else file.strOption l.namePrefixOption
  else .ok ""

/-- The names of the messages around a definition inside its file, outermost first. -/
def nestNames (env : Env) (d : Def) : List String :=
  let inner := (d.header.scopes.filter ScopeRef.isNamespace).reverse
  ((inner.takeWhile fun s => s.kind == .message).map env.knownScopeName).reverse

/-- The name of a definition inside its file, before its case is chosen. -/
def plainName (l : Dialect) (env : Env) (d : Def) : Except Fault String := do
  let start ← l.nameStart env d
  if (d.header.scopes.filter ScopeRef.isNamespace).length ≤ 1 then return start ++ env.knownName d
  else return start ++ nestSeparator.intercalate (nestNames env d ++ [env.knownName d])

/-- **The name of a definition inside its file**, in the case for a kind; the kind is that of the
definition if none is given. -/
def innerName (l : Dialect) (env : Env) (d : Def) (kind : Option Kind) : Except Fault String := do
  l.cased (← l.plainName env d) (kind.getD d.kind)

def reached (l : Dialect) (env : Env) (d : Def) (name : String) : Except Fault String := do
  let files := d.header.scopes.filter fun s => s.kind == .proto
  match files.getLast? with
  | none => return name
  | some file =>
    if files.length ≤ 1 then return name
    else if ← l.importsMembers then
      return memberSeparator.intercalate [env.knownScopeName file, name]
    else return name

/-- **The name of a definition.** -/
def name (l : Dialect) (env : Env) (d : Def) (kind : Option Kind) : Except Fault String := do
  l.reached env d (← l.innerName env d kind)

def derivedName (l : Dialect) (env : Env) (d : Def) (make : String → Except Fault String)
    (kind : Option Kind) : Except Fault String := do
  l.reached env d (← make (← l.innerName env d kind))

def enumName (l : Dialect) (env : Env) (d : Def) : Except Fault String := l.name env d (some .enum)

def ownName (l : Dialect) (env : Env) (d : Def) : Except Fault String := l.name env d none

def fieldName (l : Dialect) (d : Def) : Except Fault String := l.cased d.name .messageField

end Dialect

end BitSchema
