import BitSchema.Fault
import BitSchema.Schema.Kind

/-!
# Members of scopes

Looking up, listing and ordering what a scope holds.

* `Def.member?` follows a path of names through scopes.
* `Def.within` lists all definitions of a kind inside a scope at every depth, the inside of a
  definition before the definition itself.
* `Def.select` lists members of a kind, at one level or at every depth, perhaps only those that
  belong to a given file.
* `Def.fields`, `Def.sortedFields` and `Def.enumFields` are the fields of messages and enums.
-/

namespace BitSchema

/-- Pairs with one entry per key: a key stays where it came first and has the value that came last. -/
def keyed {α β : Type} [BEq α] (pairs : List (α × β)) : List (α × β) :=
  pairs.foldl (fun acc p =>
    if acc.any (·.1 == p.1) then acc.map fun q => if q.1 == p.1 then p else q else acc ++ [p]) []

namespace Members

def get? (ms : Members) (name : String) : Option Def :=
  (ms.find? fun m => m.1 == name).map (·.2)

def has (ms : Members) (name : String) : Bool :=
  ms.any fun m => m.1 == name

def nameOf? (ms : Members) (id : Nat) : Option String :=
  (ms.find? fun m => m.2.id == id).map (·.1)

end Members

namespace Def

/-- **Path look-up.** The definition reached by following the names; only scopes can be entered. -/
def member? (d : Def) : List String → Option Def
  | [] => none
  | n :: ns =>
    match Members.get? d.members n with
    | none => none
    | some m => if ns.isEmpty then some m else m.member? ns

end Def

mutual

/-- **Depth-first listing** of the definitions of a kind inside a scope. -/
def Def.within (k : Kind) : Def → List (String × Def)
  | .enum _ _ _ ms => membersWithin k ms
  | .message _ _ ms => membersWithin k ms
  | .proto _ ms => membersWithin k ms
  | _ => []

/-- Depth-first listing of the definitions of a kind among members and inside them. -/
def membersWithin (k : Kind) : List (String × Def) → List (String × Def)
  | [] => []
  | (n, d) :: r => d.within k ++ (if d.isA k then [(n, d)] else []) ++ membersWithin k r

end

namespace Def

def listed (k : Kind) (recursive : Bool) (m : String × Def) : List (String × Def) :=
  (if recursive then m.2.within k else []) ++ (if m.2.isA k then [m] else [])

/-- Whether a member belongs to a file; a definition that should belong to a file and does not is a
mistake of the compiler. -/
def belongs (file : Nat) (d : Def) : Except Fault Bool :=
  if d.isA .boundDefinition then
    match d.header.bound with
    | some b => .ok (b == file)
    | none => .error (.internal "BoundDefinition got bound None")
  else .ok false

/-- **Listing.** Members of a kind in order of declaration; with `recursive` what is inside a member
comes before it; with `bound` only members of that file are looked at. -/
def select (d : Def) (k : Kind) (recursive : Bool) (bound : Option Nat) :
    Except Fault (List (String × Def)) :=
  match bound with
  | none => .ok (d.members.flatMap (listed k recursive))
  | some file => do
    let parts ← d.members.mapM fun m => do
      return if ← belongs file m.2 then listed k recursive m else []
    return parts.flatten

def direct (d : Def) (k : Kind) : List (String × Def) :=
  d.members.filter fun m => m.2.isA k

/-- The fields of a message in order of declaration. -/
def fields (d : Def) : List Def :=
  (d.direct .messageField).map (·.2)

def enumFields (d : Def) : List Def :=
  (d.direct .enumField).map (·.2)

/-- The number of a message field; zero for other definitions. -/
def number : Def → Nat
  | .field _ _ n => n
  | _ => 0

/-- The type of a message field or the target of an alias; the unsigned type of an enum. -/
def ty? : Def → Option Ty
  | .field _ t _ => some t
  | .typeAlias _ t => some t
  | .enum _ o cap _ => some (.uint o cap)
  | _ => none

/-- The value of an enum field; zero for other definitions. -/
def value : Def → Nat
  | .enumField _ v => v
  | _ => 0

def valuesByName (d : Def) : List (String × Nat) :=
  keyed (d.enumFields.map fun f => (f.name, f.value))

def namesByValue (d : Def) : List (Nat × String) :=
  keyed (d.enumFields.map fun f => (f.value, f.name))

/-- **Wire order.** The fields of a message by increasing number. -/
def sortedFields (d : Def) : List Def :=
  d.fields.mergeSort fun a b => a.number ≤ b.number

/-- Whether a message, or the array behind an alias, is extensible. -/
def ext : Def → Bool
  | .message _ e _ => e
  | .typeAlias _ (.array _ _ _ e) => e
  | .typeAlias _ (.named (.message _ e _)) => e
  | _ => false

end Def

/-! ### Scopes by serial number -/

mutual

/-- The scope with the given serial number, the definition itself included. -/
def Def.scope? (id : Nat) : Def → Option Def
  | .enum h o cap ms =>
    if h.id = id then some (.enum h o cap ms) else membersScope? id ms
  | .message h e ms =>
    if h.id = id then some (.message h e ms) else membersScope? id ms
  | .proto h ms =>
    if h.id = id then some (.proto h ms) else membersScope? id ms
  | _ => none

/-- The scope with the given serial number among members and inside them. -/
def membersScope? (id : Nat) : List (String × Def) → Option Def
  | [] => none
  | (_, d) :: r =>
    match d.scope? id with
    | some s => some s
    | none => membersScope? id r

end

/-- **Known scopes.** The trees in which scopes are looked up by serial number. -/
structure Env where
  roots : List Def

namespace Env

def scope? (env : Env) (id : Nat) : Option Def :=
  env.roots.findSome? (Def.scope? id)

def scopeName (env : Env) (id : Nat) : String :=
  match env.scope? id with
  | some d => d.name
  | none => ""

/-- The names on the way to a definition: those of the scopes around it, then its own. -/
def path (env : Env) (d : Def) : List String :=
  d.header.scopes.map (fun s => env.scopeName s.id) ++ [d.name]

/-- The file a definition belongs to. -/
def bound? (env : Env) (d : Def) : Option Def :=
  d.header.bound.bind env.scope?

end Env

end BitSchema
