import BitSchema.Script.Value

/-!
# Arguments and parameters

`Run.bind` gives the parameters of a function the arguments of a call, or refuses the call.
-/

namespace BitSchema.Script.Run

def parameter (kind : ParamKind) (name : String) (fallback : Option Val) : Parameter Val :=
  { kind, name, line := 0, annotation := none, fallback }

/-- Names in quotes, with commas and an `and`. -/
def listedNames (names : List String) : String :=
  match (names.map fun n => "'" ++ n ++ "'").reverse with
  | [] => ""
  | [a] => a
  | [b, a] => a ++ " and " ++ b
  | z :: r => ", ".intercalate r.reverse ++ ", and " ++ z

def missing {α : Type} (title sort : String) (names : List String) : Run α :=
  mismatch (title ++ "() missing " ++ toString names.length ++ " required " ++ sort ++ " argument" ++
    (if names.length = 1 then "" else "s") ++ ": " ++ listedNames names)

def tooMany {α : Type} (title : String) (placed named : List (Parameter Val)) (given : Nat) (bound : Names) : Run α := do
  let n := placed.length
  let fallbacks := (placed.filter fun p => p.fallback.isSome).length
  let extra := (named.filter fun p => (bound.lookup p.name).isSome).length
  let plural := fun (k : Nat) => if k = 1 then "" else "s"
  let wanted := if fallbacks > 0 then "from " ++ toString (n - fallbacks) ++ " to " ++ toString n else toString n
  let isPlural := if fallbacks > 0 then true else n != 1
  let gave := if extra > 0 then
      toString given ++ " positional argument" ++ plural given ++ " (and " ++ toString extra ++
        " keyword-only argument" ++ plural extra ++ ") were given"
    else toString given ++ (if given = 1 then " was given" else " were given")
  mismatch (title ++ "() takes " ++ wanted ++ " positional argument" ++ (if isPlural then "s" else "") ++ " but " ++
    gave)

def bindNamed (title : String) (ps : List (Parameter Val)) (keeps : Bool) :
    Names → Names → Names → Run (Names × Names)
  | [], bound, left => return (bound, left)
  | (name, v) :: r, bound, left => do
    let known := ps.find? fun p =>
      p.name == name && (p.kind = .plain || p.kind = .named)
    match known with
    | some _ =>
      if (bound.lookup name).isSome then
        mismatch (title ++ "() got multiple values for argument '" ++ name ++ "'")
      bindNamed title ps keeps r (bound ++ [(name, v)]) left
    | none =>
      if keeps then bindNamed title ps keeps r bound (left ++ [(name, v)])
      else
        let wrong := ((name, v) :: r).filterMap fun (n, _) =>
          if ps.any fun p => p.name == n && p.kind = .placed then some n else none
        if !wrong.isEmpty && ps.any (fun p => p.name == name && p.kind = .placed) then
          mismatch (title ++ "() got some positional-only arguments passed as keyword arguments: '" ++
            ", ".intercalate wrong ++ "'")
        mismatch (title ++ "() got an unexpected keyword argument '" ++ name ++ "'")

/-- **Binds arguments to parameters.** -/
def bind (title : String) (ps : List (Parameter Val)) (args : List Val) (named : Names) : Run Names := do
  let placed := ps.filter fun p => p.kind = .placed || p.kind = .plain
  let byName := ps.filter fun p => p.kind = .named
  let rest := ps.find? fun p => p.kind = .rest
  let namedRest := ps.find? fun p => p.kind = .namedRest
  let bound : Names := (placed.zip args).map fun (p, v) => (p.name, v)
  let (bound, left) ← bindNamed title ps namedRest.isSome named bound []
  if args.length > placed.length && rest.isNone then tooMany title placed byName args.length bound
  let lacking := placed.filter fun p => (bound.lookup p.name).isNone && p.fallback.isNone
  if !lacking.isEmpty then missing title "positional" (lacking.map (·.name))
  let lacking := byName.filter fun p => (bound.lookup p.name).isNone && p.fallback.isNone
  if !lacking.isEmpty then missing title "keyword-only" (lacking.map (·.name))
  let values := (placed ++ byName).filterMap fun p =>
    match bound.lookup p.name with
    | some v => some (p.name, v)
    | none => p.fallback.map fun v => (p.name, v)
  let values := match rest with
    | some p => values ++ [(p.name, .tuple (args.drop placed.length))]
    | none => values
  match namedRest with
  | some p => return values ++ [(p.name, ← alloc (.dict (left.toArray.map fun (n, v) => (.text n, v))))]
  | none => return values

end BitSchema.Script.Run
