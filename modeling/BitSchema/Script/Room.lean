import BitSchema.Script.Locals
import BitSchema.Script.Operator

/-!
# Where names are looked up

Code is carried out in a *room*: in a script, in the body of a class, or in a function with frames around it.
`Room.load`, `Room.store` and `Room.delete` look at, give and take away the names of a room.
-/

namespace BitSchema.Script

/-- **Rooms.** -/
structure Room where
  unit : Nat
  /-- The frames of functions, from the inside out. -/
  frames : List Frame := []
  /-- The names of the body of a class. -/
  body : Option Nat := none
  globals : List String := []
  outers : List String := []
  /-- What stands in front of the names of functions and classes. -/
  title : String := ""
  /-- Whether annotations are kept as texts. -/
  postponed : Bool := false
  /-- What is being handled. -/
  caught : Option Val := none

namespace Room

def unknown {α : Type} (name : String) : Run α := Run.fail "NameError" ("name '" ++ name ++ "' is not defined")

def global (unit : Nat) (name : String) : Run Val := do
  match (← Run.namesOf unit).lookup name with
  | some v => return v
  | none =>
    match known? name with
    | some v => return v
    | none => unknown name

def inFrames (unit : Nat) (name : String) (own : Bool) : List Frame → Run Val
  | [] => global unit name
  | f :: r =>
    if f.locals.contains name then do
      match (← Run.namesOf f.names).lookup name with
      | some v => return v
      | none =>
        if own then
          Run.fail "UnboundLocalError" ("cannot access local variable '" ++ name ++
            "' where it is not associated with a value")
        else
          Run.fail "NameError" ("cannot access free variable '" ++ name ++
            "' where it is not associated with a value in enclosing scope")
    else inFrames unit name false r

/-- **The value of a name.** -/
def load (r : Room) (name : String) : Run Val := do
  if r.globals.contains name then global r.unit name
  else
    match r.body with
    | some k =>
      match (← Run.namesOf k).lookup name with
      | some v => return v
      | none => inFrames r.unit name false r.frames
    | none => inFrames r.unit name true r.frames

def keeper (r : Room) (name : String) : Nat :=
  if r.globals.contains name then r.unit
  else if r.outers.contains name then
    let around := if r.body.isSome then r.frames else r.frames.drop 1
    ((around.find? fun f => f.locals.contains name).map Frame.names).getD r.unit
  else
    match r.body, r.frames with
    | some k, _ => k
    | none, f :: _ => f.names
    | none, [] => r.unit

/-- **Gives a name a value.** -/
def store (r : Room) (name : String) (v : Val) : Run Unit := Run.changeNames (r.keeper name) (·.put name v)

def storeAround (r : Room) (name : String) (v : Val) : Run Unit :=
  store { r with frames := r.frames.dropWhile (·.gathering) } name v

/-- **Takes a name away.** -/
def delete (r : Room) (name : String) : Run Unit := do
  let k := r.keeper name
  if ((← Run.namesOf k).lookup name).isSome then Run.changeNames k (·.without name)
  else if r.body.isNone && k != r.unit then
    Run.fail "UnboundLocalError" ("cannot access local variable '" ++ name ++
      "' where it is not associated with a value")
  else unknown name

end Room

end BitSchema.Script
