import BitSchema.Script.Record

/-!
# Packing as scripts see it

A script reaches packing through the unit `bp`: processors that walk over a message and hand its bytes over, an
indexer that says which part is meant, and accessors that hold the data.  The accessors of messages are written
in scripts, so that every byte goes through a call.

* `Run.makePart` makes the things of the unit, `Run.partMethod` carries out their functions.
* `Run.packingNames` are the names of the unit.
-/

namespace BitSchema.Script.Run

/-! ### Things -/

/-- Parameters with their defaults; `()` stands for a list that is made anew. -/
def partParams : List (String × List (String × Option Val)) := [
  ("bp.ProcessContext", [("is_encode", none), ("s", none), ("i", some (.int 0))]),
  ("bp.DataIndexer", [("field_number", none), ("aistack", some (.tuple []))]),
  ("bp.IntAccessor", [("data", some (.int 0))]), ("bp.Int", [("nbits", none)]), ("bp.Uint", [("nbits", none)]),
  ("bp.Array", [("extensible", none), ("capacity", none), ("element_processor", none)]),
  ("bp.EnumProcessor", [("ut", none)]), ("bp.AliasProcessor", [("to", none)]),
  ("bp.MessageFieldProcessor", [("field_number", none), ("type_processor", none)]),
  ("bp.MessageProcessor", [("extensible", none), ("nbits", none), ("field_processors", some (.tuple []))]),
  ("bp.Bool", []), ("bp.Byte", [])]

/-- **Makes a thing of the unit.** -/
def makePart (name : String) (args : List Val) (named : Names) : Run Val := do
  let self ← alloc (.thing (.tool name) [])
  match partParams.lookup name with
  | some params =>
    let ps := parameter .plain "self" none :: params.map fun (n, d) => parameter .plain n d
    let bound ← bind (lastPart name ++ ".__init__") ps (self :: args) named
    match self with
    | .ref k =>
      for (n, v) in bound.drop 1 do
        let v ← match v with
          | .tuple [] => list []
          | v => pure v
        changeNames k (·.put n v)
    | _ => pure ()
    return self
  | none =>
    if args.isEmpty && named.isEmpty then return self
    mismatch (lastPart name ++ "() takes no arguments")

/-! ### Copying bits -/

def part (call : Caller) (v : Val) (name : String) : Run Val := getAttr call v name

def numberOf (call : Caller) (v : Val) (name : String) : Run Int := do
  match (← part call v name).int? with
  | some n => return n
  | none => beyond

def moved (v : Val) (k : Int) : Run Val :=
  if k > 0 then binary .shiftRight v (.int k)
  else if k < 0 then binary .shiftLeft v (.int (-k))
  else return v

/-- The mask of `c` bits from bit `k` on. -/
def mask (k c : Int) : Run Val := do return .int (← ofExcept (Wire.maskOf k c))

def ask (call : Caller) (v : Val) (name : String) (args : List Val) : Run Val := do
  call (← getAttr call v name) args []

def updateItem (op : BinaryOp) (v key x : Val) : Run Unit := do
  let old ← item v key
  putItemAt v key (← binaryAs percent (op.sign ++ "=") op old x)

/-- Copies `c` bits from the data to the buffer. -/
def packBits (call : Caller) (ctx di accessor : Val) (j c : Int) : Run Unit := do
  let b ← ask call accessor "bp_get_byte" [di, .int (j / 8 * 8)]
  let i ← numberOf call ctx "i"
  let d ← binary .bitAnd (← moved b (j % 8 - i % 8)) (← mask (i % 8) c)
  updateItem .bitOr (← part call ctx "s") (.int (i / 8)) d

/-- Copies `c` bits from the buffer to the data. -/
def unpackBits (call : Caller) (ctx di accessor : Val) (j c : Int) : Run Unit := do
  let i ← numberOf call ctx "i"
  let b ← item (← part call ctx "s") (.int (i / 8))
  let d ← binary .bitAnd (← moved b (i % 8 - j % 8)) (← mask (j % 8) c)
  let _ ← ask call accessor "bp_set_byte" [di, .int (j / 8 * 8), d]

/-- Copies the bits of a number from bit `j` on, in at most so many steps. -/
def copyBits (call : Caller) (nbits : Int) (ctx di accessor : Val) : Nat → Int → Run Unit
  | 0, _ => pure ()
  | fuel + 1, j => do
    if j < nbits then
      let c := Wire.chunkSize (← numberOf call ctx "i") j nbits
      if ← truth (← part call ctx "is_encode") then packBits call ctx di accessor j c
      else unpackBits call ctx di accessor j c
      setAttr call ctx "i" (.int ((← numberOf call ctx "i") + c))
      copyBits call nbits ctx di accessor fuel (j + c)

def copyNumber (call : Caller) (nbits : Int) (ctx di accessor : Val) : Run Unit :=
  copyBits call nbits ctx di accessor (nbits.toNat + 1) 0

def indexer (n : Val) : Run Val := makePart "bp.DataIndexer" [n] []

def ahead (call : Caller) (ctx : Val) (n : Val) : Run Val := do
  if ← truth (← part call ctx "is_encode") then
    copyNumber call 16 ctx (← indexer (.int 1)) (← makePart "bp.IntAccessor" [n] [])
    return .int 0
  else
    let accessor ← makePart "bp.IntAccessor" [] []
    copyNumber call 16 ctx (← indexer (.int 1)) accessor
    part call accessor "data"

def skipTo (call : Caller) (ctx : Val) (target : Int) : Run Unit := do
  if target ≥ (← numberOf call ctx "i") then setAttr call ctx "i" (.int target)

def ensuring {α : Type} (body : Run α) (last : Run Unit) : Run α := do
  let r ← tryCatch (Except.ok <$> body) fun e => return Except.error e
  last
  match r with
  | .ok a => return a
  | .error e => throw e

def processArray (call : Caller) (self ctx di accessor : Val) : Run Unit := do
  let stack ← part call di "aistack"
  let _ ← ask call stack "append" [.int 0]
  let body : Run Unit := do
    let i ← numberOf call ctx "i"
    let extensible ← truth (← part call self "extensible")
    let capacity ← part call self "capacity"
    let size ← if extensible then ahead call ctx capacity else pure (.int 0)
    for k in ← iterate (← construct call "range" [capacity] []) do
      putItemAt stack (.int (-1)) k
      let _ ← ask call (← part call self "element_processor") "process" [ctx, di, accessor]
    if extensible && !(← truth (← part call ctx "is_encode")) then
      skipTo call ctx (i + size.int?.getD 0 * capacity.int?.getD 0)
  ensuring body (do let _ ← ask call stack "pop" [])

def processMessage (call : Caller) (self ctx di accessor : Val) : Run Unit := do
  let isValid ← truth (← ask call di "is_valid" [])
  let accessor ← if isValid then ask call accessor "bp_get_accessor" [di] else pure accessor
  let i ← numberOf call ctx "i"
  let extensible ← truth (← part call self "extensible")
  let size ← if extensible then ahead call ctx (← part call self "nbits") else pure (.int 0)
  for p in ← iterate (← part call self "field_processors") do
    let _ ← ask call p "process" [ctx, di, accessor]
  if extensible && !(← truth (← part call ctx "is_encode")) then
    skipTo call ctx (i + size.int?.getD 0)

def process (call : Caller) (name : String) (self ctx di accessor : Val) : Run Unit := do
  match name with
  | "bp.Bool" => copyNumber call 1 ctx di accessor
  | "bp.Byte" => copyNumber call 8 ctx di accessor
  | "bp.Int" | "bp.Uint" => do copyNumber call (← numberOf call self "nbits") ctx di accessor
  | "bp.Array" => processArray call self ctx di accessor
  | "bp.EnumProcessor" => do let _ ← ask call (← part call self "ut") "process" [ctx, di, accessor]
  | "bp.AliasProcessor" => do let _ ← ask call (← part call self "to") "process" [ctx, di, accessor]
  | "bp.MessageFieldProcessor" =>
    let di ← indexer (← part call self "field_number")
    let _ ← ask call (← part call self "type_processor") "process" [ctx, di, accessor]
  | "bp.MessageProcessor" => processMessage call self ctx di accessor
  | _ => throw (.raised (.problem (.tool "NotImplementedError") []))

def flags : List (String × Int) := [
  ("bp.Bool", 1), ("bp.Int", 2), ("bp.Uint", 3), ("bp.Byte", 4), ("bp.EnumProcessor", 5), ("bp.AliasProcessor", 6),
  ("bp.Array", 7), ("bp.MessageProcessor", 8), ("bp.MessageFieldProcessor", 9)]

/-! ### Functions -/

def memberParams : List (String × List String) := [
  ("flag", ["self"]), ("process", ["self", "ctx", "di", "accessor"]),
  ("bp_set_byte", ["self", "di", "lshift", "b"]), ("bp_get_byte", ["self", "di", "rshift"]),
  ("bp_get_accessor", ["self", "di"]), ("is_valid", ["self"]), ("i", ["self", "n"]), ("index_stack_up", ["self"]),
  ("index_stack_down", ["self"]), ("index_stack_replace", ["self", "k"]), ("to_dict", ["self"])]

/-- **Carries out a function of a thing**: the name of its type and its own name are told. -/
def partMethod (call : Caller) (type name : String) (args : List Val) (named : Names) : Run Val := do
  let title := lastPart type ++ "." ++ name
  if name == "to_json" then
    let bound ← bind title [parameter .plain "self" none, parameter .plain "indent" (some .none),
      parameter .plain "separators" (some .none)] args named
    let table ← ask call ((bound.lookup "self").getD .none) "to_dict" []
    let layout ← jsonLayout ((bound.lookup "indent").getD .none) ((bound.lookup "separators").getD .none)
    return .text (← jsonText layout table)
  let params := ((memberParams.lookup name).getD []).map fun n => parameter .plain n none
  let bound ← bind title params args named
  let arg := fun (n : String) => (bound.lookup n).getD .none
  let self := arg "self"
  match name with
  | "to_dict" => asTable call self
  | "flag" =>
    match flags.lookup type with
    | some n => return .int n
    | none => throw (.raised (.problem (.tool "NotImplementedError") []))
  | "process" => do
    process call type self (arg "ctx") (arg "di") (arg "accessor")
    return .none
  | "is_valid" => do return .bool (← order .gt (← part call self "field_number") (.int 0))
  | "i" => do item (← part call self "aistack") (arg "n")
  | "index_stack_up" => do ask call (← part call self "aistack") "append" [.int 0]
  | "index_stack_down" => do ask call (← part call self "aistack") "pop" []
  | "index_stack_replace" => do
    putItemAt (← part call self "aistack") (.int (-1)) (arg "k")
    return .none
  | name => do
    let isFirst := do equal (← part call (arg "di") "field_number") (.int 1)
    match type, name with
    | "bp.NilAccessor", "bp_set_byte" => return .none
    | "bp.NilAccessor", "bp_get_byte" => return .int 0
    | "bp.NilAccessor", "bp_get_accessor" => return self
    | "bp.IntAccessor", "bp_set_byte" =>
      if ← isFirst then
        let b ← binary .shiftLeft (← toInt call (arg "b")) (arg "lshift")
        let data ← binaryAs percent "|=" .bitOr (← part call self "data") b
        setAttr call self "data" data
      return .none
    | "bp.IntAccessor", "bp_get_byte" =>
      if ← isFirst then
        binary .bitAnd (← binary .shiftRight (← part call self "data") (arg "rshift")) (.int 255)
      else return .int 0
    | "bp.IntAccessor", "bp_get_accessor" => makePart "bp.NilAccessor" [] []
    | _, _ => throw (.raised (.problem (.tool "NotImplementedError") []))

def signedWidths : List (String × Int × Int) := [
  ("bp.int8", 128, 256), ("bp.int16", 32768, 65536), ("bp.int32", 2147483648, 4294967296),
  ("bp.int64", 9223372036854775808, 18446744073709551616)]

def withSign (name : String) (half whole : Int) (args : List Val) (named : Names) : Run Val := do
  let bound ← bind (lastPart name) [parameter .plain "i" none] args named
  let i := (bound.lookup "i").getD .none
  if ← order .lt i (.int half) then return i else binary .sub i (.int whole)

/-! ### Names -/

def partTypes : List String :=
  ["Error", "NotEnoughBytes", "ProcessContext", "DataIndexer", "Accessor", "NilAccessor", "IntAccessor",
    "MessageBase", "Processor", "Bool", "Int", "Uint", "Byte", "Array", "EnumProcessor", "AliasProcessor",
    "MessageFieldProcessor", "MessageProcessor"]

def partNumbers : List (String × Int) := [
  ("FLAG_BOOL", 1), ("FLAG_INT", 2), ("FLAG_UINT", 3), ("FLAG_BYTE", 4), ("FLAG_ENUM", 5), ("FLAG_ALIAS", 6),
  ("FLAG_ARRAY", 7), ("FLAG_MESSAGE", 8), ("FLAG_MESSAGE_FIELD", 9)]

/-- **The names of the unit.** -/
def packingNames : Run Names := do
  let nil ← indexer (.int (-1))
  return partTypes.map (fun n => (n, .tool ("bp." ++ n))) ++ signedWidths.map (fun w => (lastPart w.1, .tool w.1)) ++
    partNumbers.map (fun (n, v) => (n, .int v)) ++ [("byte", .tool "int"), ("NIL_DATA_INDEXER", nil)] ++
    ["List", "Dict", "Any", "Iterator", "Optional", "Tuple"].map (fun n => (n, .tool ("typing." ++ n))) ++
    [("dataclass", .tool "dataclasses.dataclass"), ("dataclass_field", .tool "dataclasses.field"),
      ("asdict", .tool "dataclasses.asdict")]

end BitSchema.Script.Run
