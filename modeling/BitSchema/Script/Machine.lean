import BitSchema.Script.Library
import BitSchema.Script.Places
import BitSchema.Script.Room

/-!
# Carrying out scripts

A `Machine` evaluates expressions, carries out statements and calls functions.  `machine` ties these together:
each step leads to a machine with less fuel, so that every script ends.

* `Machine.bring` brings in a unit: a script that has a source, or a part of the library.
-/

namespace BitSchema.Script

inductive Flow where
  | next
  /-- The loop is left. -/
  | leave
  /-- The loop goes on with its next turn. -/
  | turn
  | give (v : Val)

def flawKind : SourceFlaw → String
  | .grammar => "SyntaxError"
  | .indentation => "IndentationError"
  | .tabs => "TabError"

def Flaw.told (f : Flaw) (file : String) : String :=
  if f.line = 0 then f.text else f.text ++ " (" ++ file ++ ", line " ++ toString f.line ++ ")"

/-- **Machines.** -/
structure Machine where
  eval : Room → Expr → Run Val
  assign : Room → Expr → Val → Run Unit
  block : Room → List Stmt → Run Flow
  call : Caller
  bring : String → Run Val

namespace Machine

open Run

variable (m : Machine)

/-! ### Expressions -/

def args (r : Room) : List Expr → Run (List Val)
  | [] => return []
  | .starred e :: rest => do
    let v ← m.eval r e
    match ← iterate? v with
    | some items => return items ++ (← args r rest)
    | none => mismatch ("Value after * must be an iterable, not " ++ (← kindWord v))
  | e :: rest => do
    let v ← m.eval r e
    return v :: (← args r rest)

def namedArgs (r : Room) : List (Option String × Expr) → Names → Run Names
  | [], found => return found
  | (some name, e) :: rest, found => do
    let v ← m.eval r e
    namedArgs r rest (found ++ [(name, v)])
  | (none, e) :: rest, found => do
    let v ← m.eval r e
    match ← object? v with
    | some (.dict entries) =>
      let new ← entries.toList.mapM fun (k, v) => do
        match k with
        | .text n => return (n, v)
        | _ => mismatch "keywords must be strings"
      namedArgs r rest (found ++ new)
    | _ => mismatch ("argument after ** must be a mapping, not " ++ (← kindWord v))

def entries (r : Room) : List (Option Expr × Expr) → Array (Val × Val) → Run (Array (Val × Val))
  | [], found => return found
  | (some k, e) :: rest, found => do
    let key ← m.eval r k
    let v ← m.eval r e
    entries r rest (← putEntry found key v)
  | (none, e) :: rest, found => do
    let v ← m.eval r e
    match ← object? v with
    | some (.dict new) =>
      entries r rest (← new.foldlM (fun found (k, v) => putEntry found k v) found)
    | _ => mismatch ("'" ++ (← kindWord v) ++ "' object is not a mapping")

def allTrue (r : Room) : List Expr → Run Val
  | [] => return .bool true
  | [e] => m.eval r e
  | e :: rest => do
    let v ← m.eval r e
    if ← truth v then allTrue r rest else return v

def anyTrue (r : Room) : List Expr → Run Val
  | [] => return .bool false
  | [e] => m.eval r e
  | e :: rest => do
    let v ← m.eval r e
    if ← truth v then return v else anyTrue r rest

def compareAll (r : Room) (a : Val) : List (CompareOp × Expr) → Run Val
  | [] => return .bool true
  | [(op, e)] => do compare op a (← m.eval r e)
  | (op, e) :: rest => do
    let b ← m.eval r e
    let v ← compare op a b
    if ← truth v then compareAll r b rest else return v

def joinedText (r : Room) : List Expr → Run String
  | [] => return ""
  | .text s :: rest => do return s ++ (← joinedText r rest)
  | .field e shown format :: rest => do
    let v ← converted shown (← m.eval r e)
    let spec ← match format with
      | none => pure ""
      | some f =>
        match ← m.eval r f with
        | .text s => pure s
        | _ => beyond
    let s ← formatted v spec
    return s ++ (← joinedText r rest)
  | _ :: _ => beyond

/-- Goes through the items of a source and those of the further clauses; what is found comes latest first. -/
def through (r : Room) (emit : Run (Val × Val)) :
    List (Expr × Expr × List Expr) → Option (List Val) → List (Val × Val) → Run (List (Val × Val))
  | [], _, found => do return (← emit) :: found
  | (target, source, conditions) :: rest, items, found => do
    let items ← match items with
      | some items => pure items
      | none => do iterate (← m.eval r source)
    items.foldlM (fun found v => do
      m.assign r target v
      if ← conditions.allM fun c => do truth (← m.eval r c) then through r emit rest none found
      else return found) found

def gather (r : Room) (kind : Gathering) (element : Expr) (value : Option Expr)
    (clauses : List (Expr × Expr × List Expr)) : Run Val := do
  let first ← match clauses with
    | (_, source, _) :: _ => do iterate (← m.eval r source)
    | [] => pure []
  let names ← alloc (.frame [])
  let locals := clauses.flatMap fun (t, _, _) => Locals.inTarget Locals.depth t
  let frame : Frame := { names := match names with | .ref k => k | _ => 0, locals, gathering := true }
  let inner := { r with frames := frame :: r.frames, body := none }
  let emit : Run (Val × Val) := do
    let v ← m.eval inner element
    match value with
    | none => return (v, .none)
    | some e => return (v, ← m.eval inner e)
  let found := (← through m inner emit clauses (some first) []).reverse
  match kind with
  | .list => list (found.map (·.1))
  | .set => Run.set (found.map (·.1))
  | .dict => dict found
  | .generator => alloc (.iterator (found.map (·.1)))

def makeFunction (r : Room) (name : String) (params : List (Parameter Expr)) (body : List Stmt) (doc : Val) :
    Run Val := do
  let fallbacks ← params.filterMapM fun p => do
    match p.fallback with
    | some e => return some (p.name, ← m.eval r e)
    | none => return none
  let names := params.map (·.name)
  alloc (.function {
    name, title := r.title ++ name, params, fallbacks, body, unit := r.unit, frames := r.frames
    locals := Locals.ofBody names body, globals := Locals.globals body, outers := Locals.outers body, doc })

/-- **Evaluates an expression.** -/
def evalStep (r : Room) (e : Expr) : Run Val := do
  match e with
  | .none => return .none
  | .ellipsis => return .ellipsis
  | .bool b => return .bool b
  | .int n => return .int n
  | .float x => return .float x
  | .text s => return .text s
  | .bytes bs => return .bytes bs
  | .name id => r.load id
  | .joined parts => return .text (← joinedText m r parts)
  | .field e shown format => return .text (← joinedText m r [.field e shown format])
  | .tuple items => return .tuple (← args m r items)
  | .list items => do list (← args m r items)
  | .set items => do Run.set (← args m r items)
  | .dict es => do alloc (.dict (← entries m r es #[]))
  | .starred _ => beyond
  | .unary op e => do unary op (← m.eval r e)
  | .binary op a b => do
    let x ← m.eval r a
    let y ← m.eval r b
    binary op x y
  | .both es => allTrue m r es
  | .either es => anyTrue m r es
  | .compare first rest => do compareAll m r (← m.eval r first) rest
  | .conditional yes condition no => do
    if ← truth (← m.eval r condition) then m.eval r yes else m.eval r no
  | .walrus id e => do
    let v ← m.eval r e
    r.storeAround id v
    return v
  | .function params body => makeFunction m r "<lambda>" params [.give (some body)] .none
  | .attr e id => do getAttr m.call (← m.eval r e) id
  | .subscript e index => do
    let v ← m.eval r e
    let key ← m.eval r index
    item v key
  | .slice a b c => do
    let part := fun (e : Option Expr) => match e with
      | some e => m.eval r e
      | none => return .none
    return .slice (← part a) (← part b) (← part c)
  | .call f plain named => do
    let f ← m.eval r f
    let plain ← args m r plain
    let named ← namedArgs m r named []
    m.call f plain named
  | .gather kind element value clauses => gather m r kind element value clauses
  | .other _ => beyond

/-! ### Targets -/

def unpack (assign : Room → Expr → Val → Run Unit) (r : Room) (targets : List Expr) (v : Val) : Run Unit := do
  let items ← match ← iterate? v with
    | some items => pure items
    | none => mismatch ("cannot unpack non-iterable " ++ (← kindWord v) ++ " object")
  let count := toString items.length
  match targets.findIdx? fun t => match t with | .starred _ => true | _ => false with
  | none =>
    let n := targets.length
    if items.length < n then
      badValue ("not enough values to unpack (expected " ++ toString n ++ ", got " ++ count ++ ")")
    if items.length > n then badValue ("too many values to unpack (expected " ++ toString n ++ ")")
    (targets.zip items).forM fun (t, x) => assign r t x
  | some k =>
    let after := targets.length - k - 1
    if items.length < k + after then
      badValue ("not enough values to unpack (expected at least " ++ toString (k + after) ++ ", got " ++ count ++
        ")")
    let middle ← list ((items.drop k).take (items.length - k - after))
    let values := items.take k ++ [middle] ++ items.drop (items.length - after)
    (targets.zip values).forM fun (t, x) => assign r t x

/-- **Gives a target a value.** -/
def assignStep (r : Room) (target : Expr) (v : Val) : Run Unit := do
  match target with
  | .name id => r.store id v
  | .attr e id => do setAttr m.call (← m.eval r e) id v
  | .subscript e index => do
    let x ← m.eval r e
    let key ← m.eval r index
    putItemAt x key v
  | .tuple ts | .list ts => unpack m.assign r ts v
  | .starred t => m.assign r t v
  | _ => beyond

def augmented (op : BinaryOp) (v x : Val) : Run Val := do
  let sign := op.sign ++ "="
  let plainly := binaryAs percent sign op v x
  match op, v, ← object? v with
  | .add, .ref k, some (.list items) =>
    write k (.list (items ++ (← iterate x).toArray))
    return v
  | .mul, .ref k, some (.list items) =>
    match x.int? with
    | some n =>
      write k (.list (← repeated items.toList n).toArray)
      return v
    | none => plainly
  | _, .ref k, some (.bytearray _) =>
    match ← plainly with
    | .ref j =>
      write k (← Run.read j)
      return v
    | w => return w
  | _, _, _ => plainly

/-! ### Raising and catching -/

def raised (v : Val) : Run Val := do
  match v with
  | .problem _ _ => return v
  | v =>
    if (← isTypeValue v) && (← isBelow v (.tool "BaseException")) then m.call v [] []
    else mismatch "exceptions must derive from BaseException"

def catches (p : Val) : Nat → Val → Run Bool
  | 0, _ => beyond
  | fuel + 1, t => do
    match t with
    | .tuple ts => ts.anyM (catches p fuel)
    | t =>
      if (← isTypeValue t) && (← isBelow t (.tool "BaseException")) then belongs p t
      else mismatch "catching classes that do not inherit from BaseException is not allowed"

def handle (r : Room) (p : Val) : List (Option Expr × Option String × List Stmt) → Run Flow
  | [] => throw (.raised p)
  | (type, id, body) :: rest => do
    let fits ← match type with
      | none => pure true
      | some e => do catches p 20 (← m.eval r e)
    if !fits then handle r p rest
    else
      let inner := { r with caught := some p }
      match id with
      | none => m.block inner body
      | some name =>
        r.store name p
        ensuring (m.block inner body) (tryCatch (r.delete name) fun _ => pure ())

/-! ### Loops -/

def eachItem (r : Room) (target : Expr) (body : List Stmt) : List Val → Run (Option Flow)
  | [] => return none
  | v :: rest => do
    m.assign r target v
    match ← m.block r body with
    | .leave => return some .next
    | .give v => return some (.give v)
    | _ => eachItem r target body rest

def repeatWhile (r : Room) (condition : Expr) (body : List Stmt) : Nat → Run (Option Flow)
  | 0 => beyond
  | fuel + 1 => do
    if ← truth (← m.eval r condition) then
      match ← m.block r body with
      | .leave => return some .next
      | .give v => return some (.give v)
      | _ => repeatWhile r condition body fuel
    else return none

def maxTurns : Nat := 1000000

/-! ### Definitions -/

def docOf : List Stmt → Val
  | .expr (.text s) :: _ => .text s
  | _ => .none

def decorated (decorators : List Val) (v : Val) : Run Val :=
  decorators.reverse.foldlM (fun v d => m.call d [v] []) v

def annotationsOf (r : Room) (params : List (Parameter Expr)) (result : Option Expr) : Run Unit := do
  if r.postponed then return
  for p in params do
    match p.annotation with
    | some (.starred e) => do let _ ← m.eval r e
    | some e => do let _ ← m.eval r e
    | none => pure ()
  match result with
  | some e => do let _ ← m.eval r e
  | none => pure ()

def lineFrom (bases : List Val) : Run (List Val) := do
  let all := (← bases.mapM lineOf).flatten
  return all.foldr (fun t (found : List Val) => if found.any (sameType t) then found else t :: found) []

def checkClassNames (names : Names) : Run Unit := do
  match names.lookup "__slots__" with
  | some v =>
    match v with
    | .text _ => pure ()
    | v => do let _ ← iterate v
  | none => pure ()
  match names.lookup "__qualname__" with
  | some (.text _) | none => pure ()
  | some v => mismatch ("type __qualname__ must be a str, not " ++ (← kindWord v))

/-- **Makes a class.** -/
def makeClass (r : Room) (id : String) (bases : List Val) (body : List Stmt) : Run Val := do
  let bases := if bases.isEmpty then [.tool "object"] else bases
  for b in bases do
    if !(← isTypeValue b) then beyond
    match b with
    | .tool name =>
      if ["bool", "function", "NoneType", "ellipsis", "range", "slice", "memoryview"].contains name then
        mismatch ("type '" ++ name ++ "' is not an acceptable base type")
    | _ => pure ()
  let home ← match ← Run.read r.unit with
    | .unit name _ => pure name
    | _ => pure ""
  let title := r.title ++ id
  let first : Names := [("__module__", .text home), ("__qualname__", .text title)]
  let first := match docOf body with
    | .none => first
    | doc => first ++ [("__doc__", doc)]
  let first ← if body.any (Locals.annotates Locals.depth)
    then do pure (first ++ [("__annotations__", ← alloc (.dict #[]))])
    else pure first
  let k ← alloc (.frame first)
  match k with
  | .ref k =>
    let inner := { r with
      body := some k, globals := Locals.globals body, outers := Locals.outers body, title := title ++ "." }
    let _ ← m.block inner body
    let names ← namesOf k
    checkClassNames names
    let title := match names.lookup "__qualname__" with
      | some (.text t) => t
      | _ => title
    write k (.classOf { name := id, title, home, bases, line := ← lineFrom bases
                        names := names.without "__qualname__" })
    return .ref k
  | v => return v

/-! ### Bringing in -/

def fromUnit (v : Val) (name : String) : Run Val := do
  match ← attr? m.call v name with
  | some x => return x
  | none =>
    match v, ← object? v with
    | .ref k, some (.unit home _) =>
      if (← get).busy.contains k then
        fail "ImportError" ("cannot import name '" ++ name ++ "' from partially initialized module '" ++ home ++
          "' (most likely due to a circular import) ($CWD/" ++ home ++ ".py)")
      fail "ImportError" ("cannot import name '" ++ name ++ "' from '" ++ home ++ "' ($CWD/" ++ home ++ ".py)")
    | _, _ => beyond

def bringPath (path : String) : Run (Val × Val) := do
  match path.splitOn "." with
  | [] => beyond
  | first :: rest =>
    let start ← m.bring first
    let (_, target) ← rest.foldlM (fun (way : String × Val) part => do
      let name := way.1 ++ "." ++ part
      match ← object? way.2 with
      | some (.unit _ names) =>
        match names.lookup part with
        | some (.ref k) => return (name, .ref k)
        | _ =>
          if silentUnits.contains name then return (name, ← m.bring name)
          fail "ModuleNotFoundError" (notInside way.1 name)
      | _ => beyond) (first, start)
    return (start, target)

def bringNames (r : Room) (path : String) (names : List (String × Option String)) : Run Unit := do
  if path == "__future__" then
    names.forM fun (n, new) => r.store (new.getD n) (.tool ("__future__." ++ n))
  else
    let (_, v) ← bringPath m path
    names.forM fun (n, new) => do r.store (new.getD n) (← fromUnit m v n)

def bringEverything (r : Room) (path : String) : Run Unit := do
  let (_, v) ← bringPath m path
  match v with
  | .ref k =>
    for (n, x) in ← namesOf k do
      if !n.startsWith "_" then r.store n x
  | _ => beyond

/-! ### Statements -/

def annotation (r : Room) (type : Expr) : Run Val := do
  if r.postponed then
    match type with
    | .subscript (.name n) _ => return .text n
    | .name n => return .text n
    | .subscript (.attr _ n) _ => return .text n
    | _ => return .text ""
  else m.eval r type

def annotate (r : Room) (id : String) (type : Val) : Run Unit := do
  let table ← r.load "__annotations__"
  putItemAt table (.text id) type

/-- **Carries out a statement.** -/
def step (r : Room) (s : Stmt) : Run Flow := do
  match s with
  | .expr e => do
    let _ ← m.eval r e
    return .next
  | .assign targets value => do
    let v ← m.eval r value
    targets.forM fun t => m.assign r t v
    return .next
  | .augment target op value =>
    match target with
    | .name id => do
      let old ← r.load id
      let x ← m.eval r value
      r.store id (← augmented op old x)
      return .next
    | .attr e id => do
      let v ← m.eval r e
      let old ← getAttr m.call v id
      let x ← m.eval r value
      setAttr m.call v id (← augmented op old x)
      return .next
    | .subscript e index => do
      let v ← m.eval r e
      let key ← m.eval r index
      let old ← item v key
      let x ← m.eval r value
      putItemAt v key (← augmented op old x)
      return .next
    | _ => beyond
  | .annotate target plain type value => do
    let isInside := r.body.isSome || r.frames.isEmpty
    match value with
    | some e => do m.assign r target (← m.eval r e)
    | none => pure ()
    if isInside then
      let t ← annotation m r type
      match target, plain with
      | .name id, true => annotate r id t
      | _, _ => pure ()
    return .next
  | .delete targets => do
    targets.forM fun t => match t with
      | .name id => r.delete id
      | _ => beyond
    return .next
  | .pass => return .next
  | .stop => return .leave
  | .next => return .turn
  | .give none => return .give .none
  | .give (some e) => return .give (← m.eval r e)
  | .raise none _ =>
    match r.caught with
    | some p => throw (.raised p)
    | none => fail "RuntimeError" "No active exception to reraise"
  | .raise (some e) cause => do
    let v ← m.eval r e
    cause.forM fun c => do let _ ← m.eval r c
    throw (.raised (← raised m v))
  | .assert e what => do
    if ← truth (← m.eval r e) then return .next
    match what with
    | none => throw (.raised (.problem (.tool "AssertionError") []))
    | some w => throw (.raised (.problem (.tool "AssertionError") [← m.eval r w]))
  | .bring names => do
    for (path, new) in names do
      let (start, target) ← bringPath m path
      match new with
      | some n => r.store n target
      | none => r.store (Locals.firstPart path) start
    return .next
  | .bringFrom level path names => do
    if level > 0 then fail "ImportError" "attempted relative import with no known parent package"
    bringNames m r path names
    return .next
  | .bringAll level path => do
    if level > 0 then fail "ImportError" "attempted relative import with no known parent package"
    bringEverything m r path
    return .next
  | .global _ | .outer _ => return .next
  | .branch condition yes no => do
    if ← truth (← m.eval r condition) then m.block r yes else m.block r no
  | .loop condition body last => do
    match ← repeatWhile m r condition body maxTurns with
    | some flow => return flow
    | none => m.block r last
  | .each target source body last => do
    match ← eachItem m r target body (← iterate (← m.eval r source)) with
    | some flow => return flow
    | none => m.block r last
  | .during _ _ => beyond
  | .attempt body handlers last final => do
    let attempt : Run Flow := do
      let result ← tryCatch (Except.ok <$> m.block r body) fun e => return Except.error e
      match result with
      | .ok .next => m.block r last
      | .ok flow => return flow
      | .error (.raised p) => handle m r p handlers
      | .error e => throw e
    let result ← tryCatch (Except.ok <$> attempt) fun e => return Except.error e
    match ← m.block r final, result with
    | .next, .ok flow => return flow
    | .next, .error e => throw e
    | flow, _ => return flow
  | .define decorators id params result body => do
    let ds ← decorators.mapM (m.eval r)
    let f ← makeFunction m r id params body (docOf body)
    annotationsOf m r params result
    r.store id (← decorated m ds f)
    return .next
  | .makeClass decorators id bases named body => do
    let ds ← decorators.mapM (m.eval r)
    let bases ← args m r bases
    let named ← namedArgs m r named []
    if !named.isEmpty then beyond
    let c ← makeClass m r id bases body
    r.store id (← decorated m ds c)
    return .next
  | .other _ => beyond

def steps (r : Room) : List Stmt → Run Flow
  | [] => return .next
  | s :: rest => do
    match ← step m r s with
    | .next => steps r rest
    | flow => return flow

/-! ### Calls -/

def maxCalls : Nat := 1000

def callFunction (f : Function) (plain : List Val) (named : Names) : Run Val := do
  let depth := (← get).depth
  if depth ≥ maxCalls then fail "RecursionError" "maximum recursion depth exceeded"
  let params := f.params.map fun p => parameter p.kind p.name (f.fallbacks.lookup p.name)
  let bound ← bind f.title params plain named
  match ← alloc (.frame bound) with
  | .ref k =>
    let r : Room := {
      unit := f.unit, frames := { names := k, locals := f.locals } :: f.frames, globals := f.globals
      outers := f.outers, title := f.title ++ ".<locals>." }
    modify fun st => { st with depth := depth + 1 }
    let flow ← ensuring (m.block r f.body) (modify fun st => { st with depth })
    match flow with
    | .give v => return v
    | _ => return .none
  | _ => beyond

def instantiate (cls : Val) (plain : List Val) (named : Names) : Run Val := do
  if ← isBelow cls (.tool "BaseException") then return .problem cls plain
  let line ← lineOf cls
  let native := line.findSome? fun t => match t with
    | .tool "object" => none
    | .tool name => if (partParams.lookup name).isSome || (knownTypes.contains name) then some name else none
    | _ => none
  if native.isSome then beyond
  let self ← alloc (.thing cls [])
  match ← lookUp cls "__init__" with
  | some (.tool _) | none =>
    if !plain.isEmpty || !named.isEmpty then mismatch ((← typeName cls) ++ "() takes no arguments")
    return self
  | some v =>
    let init ← bindTo m.call self cls v
    match ← m.call init plain named with
    | .none => return self
    | w => mismatch ("__init__() should return None, not '" ++ (← kindWord w) ++ "'")

def memberName (name : String) : String × String :=
  match (name.splitOn ".").reverse with
  | last :: r => (".".intercalate r.reverse, last)
  | [] => ("", name)

def dumpJson (plain : List Val) (named : Names) : Run Val := do
  let layout ← jsonLayout ((named.lookup "indent").getD .none) ((named.lookup "separators").getD .none)
  return .text (← jsonText layout ((plain[0]?).getD .none))

def callTool (name : String) (plain : List Val) (named : Names) : Run Val := do
  if (problemKinds.lookup name).isSome then
    if !named.isEmpty then mismatch (lastPart name ++ "() takes no keyword arguments")
    return .problem (.tool name) plain
  if isType name then
    if name.startsWith "bp." then return ← makePart name plain named
    return ← construct m.call name plain named
  match signedWidths.lookup name with
  | some (half, whole) => return ← withSign name half whole plain named
  | none => pure ()
  match name with
  | "dataclasses.dataclass" =>
    match plain with
    | [cls] => makeRecord m.call cls
    | _ => return .tool name
  | "dataclasses.field" => makeFieldRule plain named
  | "dataclasses.asdict" => asTable m.call ((plain[0]?).getD .none)
  | "json.dumps" => dumpJson plain named
  | _ =>
    if name.startsWith "typing." then
      mismatch ("Type " ++ lastPart name ++ " cannot be instantiated; use " ++ (lastPart name).toLower ++
        "() instead")
    if knownFunctions.contains name then return ← function m.call name plain named
    let (type, tool) := memberName name
    if isType type then method type tool plain named else libraryFunction m.call name plain

/-- **Calls something.** -/
def callStep (f : Val) (plain : List Val) (named : Names) : Run Val := do
  match f with
  | .tool name => callTool m name plain named
  | .method "record.init" (cls :: _) => initRecord m.call cls plain named
  | .method name _ =>
    let (type, tool) := memberName name
    partMethod m.call type tool plain named
  | .bound f self => m.call f (self :: plain) named
  | .generic origin _ => m.call origin plain named
  | .ref k =>
    match ← Run.read k with
    | .function f => callFunction m f plain named
    | .classOf _ => instantiate m f plain named
    | .thing type _ =>
      match ← lookUp type "__call__" with
      | some g => m.call g (f :: plain) named
      | none => refuse f
    | _ => refuse f
  | f => refuse f
where
  /-- Other values cannot be called. -/
  refuse (f : Val) : Run Val := do mismatch ("'" ++ (← kindWord f) ++ "' object is not callable")

end Machine

/-! ### Units -/

abbrev Sources := List (String × String)

def postpones : List Stmt → Bool
  | [] => false
  | .bringFrom 0 "__future__" names :: r => names.any (fun n => n.1 == "annotations") || postpones r
  | .expr (.text _) :: r => postpones r
  | _ => false

def runUnit (block : Room → List Stmt → Run Flow) (name source : String) : Run Val := do
  match compile source with
  | .error f => Run.fail (flawKind f.kind) (f.told (name ++ ".py"))
  | .ok tree =>
    let body := Code.ofTree tree
    let first : Names := [("__name__", .text name), ("__doc__", Machine.docOf body), ("__package__", .text "")]
    let first ← if body.any (Locals.annotates Locals.depth)
      then do pure (first ++ [("__annotations__", ← Run.alloc (.dict #[]))])
      else pure first
    match ← Run.alloc (.unit name first) with
    | .ref k =>
      modify fun st => { st with units := (name, k) :: st.units, busy := k :: st.busy }
      let result ← tryCatch (Except.ok <$> block { unit := k, postponed := postpones body } body) fun e =>
        return Except.error e
      modify fun st => { st with busy := st.busy.filter (· != k) }
      match result with
      | .ok _ => return .ref k
      | .error e =>
        modify fun st => { st with units := st.units.filter fun u => u.2 != k }
        throw e
    | v => return v

def bringUnit (sources : Sources) (block : Room → List Stmt → Run Flow) (bring : String → Run Val) (name : String) :
    Run Val := do
  match (← get).units.lookup name with
  | some k => return .ref k
  | none =>
    match sources.lookup name with
    | some source => runUnit block name source
    | none =>
      match ← libraryNames bring name with
      | some names =>
        match ← Run.alloc (.unit name names) with
        | .ref k =>
          modify fun st => { st with units := (name, k) :: st.units }
          return .ref k
        | v => return v
      | none => Run.fail "ModuleNotFoundError" ("No module named '" ++ name ++ "'")

def exhausted : Machine :=
  let stop := fun {α : Type} => (Run.fail "RecursionError" "maximum recursion depth exceeded" : Run α)
  { eval := fun _ _ => stop, assign := fun _ _ _ => stop, block := fun _ _ => stop, call := fun _ _ _ => stop
    bring := fun _ => stop }

/-- **The machine** for sources, with fuel. -/
def machine (sources : Sources) : Nat → Machine
  | 0 => exhausted
  | fuel + 1 => {
      eval := fun r e => Machine.evalStep (machine sources fuel) r e
      assign := fun r t v => Machine.assignStep (machine sources fuel) r t v
      block := fun r ss => Machine.steps (machine sources fuel) r ss
      call := fun f plain named => Machine.callStep (machine sources fuel) f plain named
      bring := fun name =>
        bringUnit sources (machine sources fuel).block (machine sources fuel).bring name }

def fuel : Nat := 100000

end BitSchema.Script
