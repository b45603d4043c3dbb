import BitSchema.Script.Tool
import BitSchema.Wire.Json

/-!
# Records

A class can be made a record: its annotated names become fields, which are set when a thing is made.

* `Run.makeRecord` makes a class a record, `Run.initRecord` sets the fields of a thing.
* `Run.asTable` is a record as a table, `Run.jsonText` the JSON text of values.
-/

namespace BitSchema.Script

structure RecordField where
  name : String
  value : Option Val := none
  maker : Option Val := none

def RecordField.val (f : RecordField) : Val :=
  match f.value, f.maker with
  | some v, _ => .tuple [.text f.name, .text "value", v]
  | none, some m => .tuple [.text f.name, .text "maker", m]
  | none, none => .tuple [.text f.name]

def RecordField.ofVal? : Val → Option RecordField
  | .tuple [.text name, .text "value", v] => some { name, value := some v }
  | .tuple [.text name, .text "maker", m] => some { name, maker := some m }
  | .tuple [.text name] => some { name }
  | _ => none

namespace Run

/-! ### Classes -/

def fieldRule? (v : Val) : Run (Option Names) := do
  match ← object? v with
  | some (.thing (.tool "Field") names) => return some names
  | _ => return none

def makeFieldRule (args : List Val) (named : Names) : Run Val := do
  if !args.isEmpty then
    mismatch ("field() takes 0 positional arguments but " ++ toString args.length ++
      (if args.length = 1 then " was given" else " were given"))
  let known := ["default", "default_factory", "init", "repr", "hash", "compare", "metadata", "kw_only"]
  if let some (n, _) := named.find? fun e => !known.contains e.1 then
    mismatch ("field() got an unexpected keyword argument '" ++ n ++ "'")
  if (named.lookup "default").isSome && (named.lookup "default_factory").isSome then
    badValue "cannot specify both default and default_factory"
  alloc (.thing (.tool "Field") named)

def isClassOnly : Val → Bool
  | .tool "typing.ClassVar" => true
  | .generic (.tool "typing.ClassVar") _ => true
  | .text s => s.startsWith "ClassVar" || s.startsWith "typing.ClassVar"
  | _ => false

def isMutable (v : Val) : Run Bool := do
  match v with
  | .ref k =>
    match ← read k with
    | .list _ | .bytearray _ | .dict _ | .set _ false | .frame _ => return true
    | .thing type _ =>
      match ← lookUp type "__hash__" with
      | some .none => return true
      | _ => return false
    | _ => return false
  | .slice _ _ _ => return true
  | _ => return false

def annotations (names : Names) : Run (List (String × Val)) := do
  match names.lookup "__annotations__" with
  | some v =>
    match ← object? v with
    | some (.dict entries) =>
      return entries.toList.filterMap fun (k, v) => match k with
        | .text n => some (n, v)
        | _ => none
    | _ => return []
  | none => return []

def fieldsAbove (cls : Val) : Run (List RecordField) := do
  let lines ← (← lineOf cls).drop 1 |>.reverse.mapM fun t => do
    match ← ownMember? t "__dataclass_init__" with
    | some (.tuple fields) => return fields.filterMap RecordField.ofVal?
    | _ => return []
  return lines.flatten

def putField (fields : List RecordField) (f : RecordField) : List RecordField :=
  if fields.any fun g => g.name == f.name then fields.map fun g => if g.name == f.name then f else g
  else fields ++ [f]

def fieldFor (call : Caller) (cls : Val) (name : String) (type : Val) : Run (Option RecordField) := do
  let found ← attr? call cls name
  let rule ← match found with
    | some v => fieldRule? v
    | none => pure none
  let (value, maker) := match rule, found with
    | some names, _ => (names.lookup "default", names.lookup "default_factory")
    | none, found => (found, none)
  if isClassOnly type then
    if maker.isSome then mismatch ("field " ++ name ++ " cannot have a default factory")
    return none
  match value with
  | some v =>
    if ← isMutable v then
      badValue ("mutable default " ++ (← quoted (← typeOf v)) ++ " for field " ++ name ++
        " is not allowed: use default_factory")
  | none => pure ()
  return some { name, value, maker }

def settleField (call : Caller) (cls : Val) (name : String) : Run Unit := do
  match ← attr? call cls name with
  | some v =>
    match ← fieldRule? v with
    | some names =>
      match names.lookup "default" with
      | some d => setAttr call cls name d
      | none => deleteAttr cls name
    | none => pure ()
  | none => pure ()

def checkDefaults : Bool → List RecordField → Run Unit
  | _, [] => pure ()
  | seen, f :: r =>
    let has := f.value.isSome || f.maker.isSome
    if seen && !has then mismatch ("non-default argument '" ++ f.name ++ "' follows default argument")
    else checkDefaults (seen || has) r

/-- **Makes a class a record.** -/
def makeRecord (call : Caller) (cls : Val) : Run Val := do
  match cls, ← object? cls with
  | .ref k, some (.classOf c) =>
    let named ← annotations c.names
    let own ← named.filterMapM fun (n, t) => fieldFor call cls n t
    for (n, _) in named do settleField call cls n
    for (n, v) in ← namesOf k do
      if (← fieldRule? v).isSome && (named.lookup n).isNone then
        mismatch (Text.quote n ++ " is a field but has no type annotation")
    let fields := own.foldl putField (← fieldsAbove cls)
    checkDefaults false fields
    changeNames k fun names =>
      let isNew := fun (n : String) => (names.lookup n).isNone
      let added : Names := [("__init__", .method "record.init" [cls]), ("__hash__", .none)]
      let names := names ++ added.filter fun (n, _) => isNew n
      let names := names.put "__dataclass_fields__" (.tuple (fields.map fun f => .text f.name))
      names.put "__dataclass_init__" (.tuple (fields.map RecordField.val))
    return cls
  | _, _ =>
    let word ← kindWord cls
    let missing := match cls, ← object? cls with
      | _, some (.thing _ _) | _, some (.function _) => "__mro__"
      | _, _ => "__module__"
    fail "AttributeError" ("'" ++ word ++ "' object has no attribute '" ++ missing ++ "'")

/-! ### Things -/

def toMake : Val := .tool "record.toMake"

/-- **Sets the fields of a thing** from the arguments of its making. -/
def initRecord (call : Caller) (cls : Val) (args : List Val) (named : Names) : Run Val := do
  let fields := match ← ownMember? cls "__dataclass_init__" with
    | some (.tuple fields) => fields.filterMap RecordField.ofVal?
    | _ => []
  let selfName := if fields.any fun f => f.name == "self" then "__dataclass_self__" else "self"
  let params := parameter .plain selfName none :: fields.map fun f =>
    parameter .plain f.name (match f.value, f.maker with
      | some v, _ => some v
      | none, some _ => some toMake
      | none, none => none)
  let bound ← bind ((← typeTitle cls).2 ++ ".__init__") params args named
  let self := (bound.lookup selfName).getD .none
  for f in fields do
    let v ← match bound.lookup f.name, f.maker with
      | some (.tool "record.toMake"), some m => call m [] []
      | some v, _ => pure v
      | none, _ => pure .none
    setAttr call self f.name v
  match ← lookUp cls "__post_init__" with
  | some _ => do
    let _ ← call (← getAttr call self "__post_init__") [] []
    return .none
  | none => return .none

/-! ### Tables -/

def copied : Nat → Val → Run Val
  | 0, _ => beyond
  | fuel + 1, v => do
    match v with
    | .tuple items => return .tuple (← items.mapM (copied fuel))
    | .ref k =>
      match ← read k with
      | .list items => alloc (.list (← items.mapM (copied fuel)))
      | .bytearray bs => alloc (.bytearray bs)
      | .dict entries => alloc (.dict (← entries.mapM fun (a, b) => return (← copied fuel a, ← copied fuel b)))
      | .set items frozen => alloc (.set items frozen)
      | .unit _ _ => mismatch "cannot pickle 'module' object"
      | .thing type names =>
        alloc (.thing type (← names.mapM fun (n, v) => return (n, ← copied fuel v)))
      | _ => return v
    | v => return v

def tableAt (call : Caller) : Nat → Val → Run Val
  | 0, _ => beyond
  | fuel + 1, v => do
    match ← recordItems? v with
    | some (_, fields) =>
      let entries ← fields.mapM fun (n, _) => return (Val.text n, ← tableAt call fuel (← getAttr call v n))
      alloc (.dict entries.toArray)
    | none =>
      match v with
      | .tuple items => return .tuple (← items.mapM (tableAt call fuel))
      | .ref k =>
        match ← read k with
        | .list items => alloc (.list (← items.mapM (tableAt call fuel)))
        | .dict entries =>
          alloc (.dict (← entries.mapM fun (a, b) => return (← tableAt call fuel a, ← tableAt call fuel b)))
        | _ => copied fuel v
      | v => return v

/-- **A record as a table.** -/
def asTable (call : Caller) (v : Val) : Run Val := do
  match ← recordItems? v with
  | some _ => tableAt call showDepth v
  | none => mismatch "asdict() should be called on dataclass instances"

/-! ### JSON -/

def jsonQuoted (s : String) : String :=
  let one := fun (c : Char) =>
    if c = '"' then ['\\', '"']
    else if c = '\\' then ['\\', '\\']
    else if c = '\n' then ['\\', 'n']
    else if c = '\r' then ['\\', 'r']
    else if c = '\t' then ['\\', 't']
    else if c.toNat = 8 then ['\\', 'b']
    else if c.toNat = 12 then ['\\', 'f']
    else if c.toNat < 32 || (c.toNat > 126 && c.toNat < 0x10000) then '\\' :: 'u' :: Text.hexDigits 4 c.toNat
    else if c.toNat ≥ 0x10000 then
      let n := c.toNat - 0x10000
      '\\' :: 'u' :: Text.hexDigits 4 (0xd800 + n / 1024) ++ '\\' :: 'u' :: Text.hexDigits 4 (0xdc00 + n % 1024)
    else [c]
  "\"" ++ String.ofList (s.toList.flatMap one) ++ "\""

def jsonFloat (x : Float) : String :=
  if x.isNaN then "NaN"
  else if x.isInf then (if FloatText.isNegative x then "-Infinity" else "Infinity")
  else FloatText.shown x

def jsonKey (v : Val) : Run String := do
  match v with
  | .text s => return jsonQuoted s
  | .none => return "\"null\""
  | .bool b => return if b then "\"true\"" else "\"false\""
  | .int n => return "\"" ++ (← intText n) ++ "\""
  | .float x => return "\"" ++ jsonFloat x ++ "\""
  | v => mismatch ("keys must be str, int, float, bool or None, not " ++ (← kindWord v))

def jsonAt (l : Wire.JsonLayout) : Nat → Nat → Val → Run String
  | 0, _, _ => fail "RecursionError" "maximum recursion depth exceeded while encoding a JSON object"
  | fuel + 1, level, v => do
    let inner := jsonAt l fuel (level + 1)
    match v with
    | .none => return "null"
    | .bool b => return if b then "true" else "false"
    | .int n => intText n
    | .float x => return jsonFloat x
    | .text s => return jsonQuoted s
    | .tuple items => return l.enclose level "[" "]" (← items.mapM inner)
    | v =>
      match ← object? v with
      | some (.list items) => return l.enclose level "[" "]" (← items.toList.mapM inner)
      | some (.dict entries) =>
        let texts ← entries.toList.mapM fun (k, v) => return (← jsonKey k) ++ l.keySeparator ++ (← inner v)
        return l.enclose level "\x7b" "\x7d" texts
      | _ => mismatch ("Object of type " ++ (← kindWord v) ++ " is not JSON serializable")

/-- **The JSON text of a value.** -/
def jsonText (l : Wire.JsonLayout) (v : Val) : Run String := jsonAt l showDepth 0 v

def jsonLayout (indent separators : Val) : Run Wire.JsonLayout := do
  let unit ← match indent, indent.int? with
    | .none, _ => pure none
    | .text s, _ => pure (some s)
    | _, some n => pure (some (String.ofList (List.replicate n.toNat ' ')))
    | v, none => mismatch ("can't multiply sequence by non-int of type '" ++ (← kindWord v) ++ "'")
  let marks ← match separators with
    | .none => pure []
    | v => (← iterate v).mapM fun m => do
      match m with
      | .text s => return s
      | _ => beyond
  ofExcept (Wire.JsonLayout.of unit marks)

end Run

end BitSchema.Script
