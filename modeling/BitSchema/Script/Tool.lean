import BitSchema.Script.Binding
import BitSchema.Script.Method
import BitSchema.Text.Case
import BitSchema.Wire.ByteNumeral

/-!
# What every script can call

Functions that every script knows, and the types of the language as functions that make their values: `Run.function`
and `Run.construct` carry out those that are not rare.
-/

namespace BitSchema.Script.Run

/-- The argument at a place, or the one with a name. -/
def argument? (args : List Val) (named : Names) (place : Nat) (name : String) : Option Val :=
  match args[place]? with
  | some v => some v
  | none => named.lookup name

/-! ### Numbers from texts -/

def plainDigits? (base : Nat) (cs : List Char) : Option Nat :=
  let parts := Text.splitUnderscores cs
  if cs.isEmpty || parts.any List.isEmpty || !cs.all (fun c => c = '_' || (Text.digitValue? base c).isSome) then none
  else some (Code.digitsValue base (cs.filter (· != '_')))

def signed (cs : List Char) : Bool × List Char :=
  match cs with
  | '-' :: r => (true, r)
  | '+' :: r => (false, r)
  | cs => (false, cs)

def basedDigits (base : Nat) (cs : List Char) : Nat × List Char :=
  let lead := fun (b : Nat) (r : List Char) => (b, if r.head? = some '_' then r.drop 1 else r)
  match cs with
  | '0' :: x :: r =>
    if (x = 'x' || x = 'X') && (base = 16 || base = 0) then lead 16 r
    else if (x = 'o' || x = 'O') && (base = 8 || base = 0) then lead 8 r
    else if (x = 'b' || x = 'B') && (base = 2 || base = 0) then lead 2 r
    else (if base = 0 then 10 else base, cs)
  | cs => (if base = 0 then 10 else base, cs)

def intOfText (s : String) (base : Nat) : Run Val := do
  let (negative, cs) := signed (Text.trim s).toList
  let (b, ds) := basedDigits base cs
  match plainDigits? b ds with
  | some n =>
    if b = 10 && ds.length > maxShownDigits then
      badValue ("Exceeds the limit (4300 digits) for integer string conversion: value has " ++
        toString ds.length ++ " digits; use sys.set_int_max_str_digits() to increase the limit")
    return .int (if negative then -(n : Int) else n)
  | none =>
    let shown := String.ofList ((← quoted (.text s)).toList.take 200)
    badValue ("invalid literal for int() with base " ++ toString base ++ ": " ++ shown)

def wholeOf (x : Float) : Run Int := do
  if x.isNaN then badValue "cannot convert float NaN to integer"
  if x.isInf then fail "OverflowError" "cannot convert float infinity to integer"
  let (a, b) := FloatText.fraction x.abs
  return if FloatText.isNegative x then -((a / b : Nat) : Int) else ((a / b : Nat) : Int)

def asked? (call : Caller) (v : Val) (member : String) : Run (Option Val) := do
  match ← object? v with
  | some (.thing type _) =>
    match ← lookUp type member with
    | some (.ref f) => some <$> call (.ref f) [v] []
    | _ => return none
  | _ => return none

def toInt (call : Caller) (v : Val) : Run Val := do
  match v, v.int? with
  | _, some n => return .int n
  | .float x, _ => return .int (← wholeOf x)
  | .text s, _ => intOfText s 10
  | v, none =>
    match ← bytes? v, ← asked? call v "__int__", ← asked? call v "__index__" with
    | some bs, _, _ => return .int (← ofExcept (Wire.ByteNumeral.read bs))
    | _, some n, _ | _, _, some n => return n
    | _, _, _ =>
      mismatch ("int() argument must be a string, a bytes-like object or a real number, not '" ++
        (← kindWord v) ++ "'")

def toFloat (call : Caller) (v : Val) : Run Val := do
  match v.float?, v with
  | some x, _ => return .float x
  | none, .text _ => beyond
  | none, v =>
    match ← asked? call v "__float__" with
    | some x => return x
    | none => mismatch ("float() argument must be a string or a real number, not '" ++ (← kindWord v) ++ "'")

def encoded (s : String) (encoding : String) : Run (List UInt8) :=
  match String.ofList (encoding.toLower.toList.filter fun c => c != '-' && c != '_') with
  | "utf8" => return s.toUTF8.toList
  | _ => beyond

def toBytes (word : String) (args : List Val) : Run (List UInt8) := do
  match args with
  | [] => return []
  | .text _ :: [] => mismatch "string argument without an encoding"
  | .text s :: .text e :: _ => encoded s e
  | v :: _ =>
    match ← bytes? v, v.int? with
    | some bs, _ => return bs
    | none, some n =>
      if !isIndex n then fail "OverflowError" "cannot fit 'int' into an index-sized integer"
      if n < 0 then badValue "negative count"
      if n.toNat > maxBits then fail "MemoryError" ""
      return List.replicate n.toNat 0
    | none, none =>
      match ← iterate? v with
      | some items => items.mapM fun v => do
          let n ← index v
          if n < 0 || n > 255 then badValue (word ++ " must be in range(0, 256)")
          return UInt8.ofNat n.toNat
      | none => mismatch ("cannot convert '" ++ (← kindWord v) ++ "' object to bytearray")

/-! ### Arguments -/

def singleFunctions : List String := [
  "len", "abs", "repr", "ascii", "chr", "ord", "hex", "oct", "bin", "callable", "all", "any"]

/-- Functions and types with a least and a greatest number of arguments without a name. -/
def countedFunctions : List (String × Nat × Nat) := [
  ("isinstance", 2, 2), ("issubclass", 2, 2), ("getattr", 2, 3), ("setattr", 3, 3), ("hasattr", 2, 2),
  ("delattr", 2, 2), ("iter", 1, 2), ("next", 1, 2), ("format", 1, 2), ("bool", 0, 1),
  ("list", 0, 1), ("tuple", 0, 1), ("set", 0, 1), ("frozenset", 0, 1), ("dict", 0, 1), ("range", 1, 3),
  ("slice", 1, 3), ("float", 0, 1)]

def unnamedTypes : List String := ["list", "tuple", "set", "frozenset", "range", "slice", "float", "bool"]

def checkCount (name : String) (args : List Val) (named : Names) : Run Unit := do
  let n := args.length
  if !named.isEmpty && (singleFunctions.contains name || unnamedTypes.contains name ||
      ["isinstance", "issubclass", "getattr", "hasattr"].contains name) then
    mismatch (name ++ "() takes no keyword arguments")
  if singleFunctions.contains name && n != 1 then
    mismatch (name ++ "() takes exactly one argument (" ++ toString n ++ " given)")
  match countedFunctions.lookup name with
  | some (low, high) =>
    let bound := if low = high then "" else if n < low then "at least " else "at most "
    let wanted := if n < low then low else high
    if n < low || n > high then
      mismatch (name ++ " expected " ++ bound ++ toString wanted ++ " " ++ argumentWord wanted ++ ", got " ++
        toString n)
  | none => pure ()

/-! ### Functions -/

def isOneOf (refusal : String) (test : Val → Run Bool) : Nat → Val → Run Bool
  | 0, _ => beyond
  | fuel + 1, t => do
    match t with
    | .tuple ts => ts.anyM (isOneOf refusal test fuel)
    | .generic (.tool "types.UnionType") ts => ts.anyM (isOneOf refusal test fuel)
    | t => if ← isTypeValue t then test t else mismatch refusal

def basedText (base : Nat) (lead : String) (v : Val) : Run Val := do
  let n ← index v
  return .text ((if n < 0 then "-" else "") ++ lead ++ String.ofList (Nat.toDigits base n.natAbs))

def isCallable (v : Val) : Run Bool := do
  match v with
  | .tool name => return isType name || toolType name != "_SpecialForm"
  | .method _ _ | .bound _ _ | .generic _ _ => return true
  | .ref k =>
    match ← read k with
    | .function _ | .classOf _ => return true
    | .thing type _ => return (← lookUp type "__call__").isSome
    | _ => return false
  | _ => return false

/-- **Carries out a function that every script knows.** -/
def function (call : Caller) (name : String) (args : List Val) (named : Names) : Run Val := do
  checkCount name args named
  let arg := fun (k : Nat) => (args[k]?).getD .none
  let textOf := fun (v : Val) (refusal : String) => do
    match v with
    | .text s => return s
    | v => mismatch (refusal ++ (← kindWord v) ++ "'")
  match name with
  | "len" =>
    match ← size? (arg 0), ← asked? call (arg 0) "__len__" with
    | some n, _ => return .int n
    | none, some n => return n
    | none, none => mismatch ("object of type '" ++ (← kindWord (arg 0)) ++ "' has no len()")
  | "abs" =>
    match (arg 0).int?, arg 0 with
    | some n, _ => return .int n.natAbs
    | none, .float x => return .float x.abs
    | none, v => mismatch ("bad operand type for abs(): '" ++ (← kindWord v) ++ "'")
  | "all" => return .bool (← (← iterate (arg 0)).allM (truth))
  | "any" => return .bool (← (← iterate (arg 0)).anyM (truth))
  | "repr" => return .text (← quoted (arg 0))
  | "ascii" => return .text (asciiText (← quoted (arg 0)))
  | "bin" => basedText 2 "0b" (arg 0)
  | "oct" => basedText 8 "0o" (arg 0)
  | "hex" => basedText 16 "0x" (arg 0)
  | "chr" => do
    let n ← index (arg 0)
    if n < 0 || n ≥ 0x110000 then badValue "chr() arg not in range(0x110000)"
    return .text (String.singleton (Char.ofNat n.toNat))
  | "ord" =>
    match arg 0 with
    | .text s =>
      match s.toList with
      | [c] => return .int c.toNat
      | cs => mismatch ("ord() expected a character, but string of length " ++ toString cs.length ++ " found")
    | v => mismatch ("ord() expected string of length 1, but " ++ (← kindWord v) ++ " found")
  | "callable" => return .bool (← isCallable (arg 0))
  | "format" => do
    let spec ← match (args[1]? : Option Val) with
      | none => pure ""
      | some (.text s) => pure s
      | some v => mismatch ("format() argument 2 must be str, not " ++ (← kindWord v))
    return .text (← formatted (arg 0) spec)
  | "isinstance" => do
    let v := arg 0
    return .bool (← isOneOf "isinstance() arg 2 must be a type, a tuple of types, or a union" (belongs v) 100 (arg 1))
  | "issubclass" => do
    let v := arg 0
    if !(← isTypeValue v) then mismatch "issubclass() arg 1 must be a class"
    return .bool (← isOneOf "issubclass() arg 2 must be a class, a tuple of classes, or a union" (isBelow v) 100 (arg 1))
  | "getattr" => do
    let n ← textOf (arg 1) "attribute name must be string, not '"
    match args[2]? with
    | none => getAttr call (arg 0) n
    | some v => return (← attr? call (arg 0) n).getD v
  | "hasattr" => do
    let n ← textOf (arg 1) "attribute name must be string, not '"
    return .bool (← attr? call (arg 0) n).isSome
  | "setattr" => do
    let n ← textOf (arg 1) "attribute name must be string, not '"
    setAttr call (arg 0) n (arg 2)
    return .none
  | "delattr" => do
    deleteAttr (arg 0) (← textOf (arg 1) "attribute name must be string, not '")
    return .none
  | "iter" => do
    match arg 0, ← object? (arg 0) with
    | v, some (.iterator _) => return v
    | v, _ => alloc (.iterator (← iterate v))
  | "next" =>
    match arg 0 with
    | .ref k =>
      match ← read k with
      | .iterator (v :: r) =>
        write k (.iterator r)
        return v
      | .iterator [] =>
        match args[1]? with
        | some v => return v
        | none => throw (.raised (.problem (.tool "StopIteration") []))
      | .thing type _ =>
        match ← lookUp type "__next__" with
        | some f => call f [arg 0] []
        | none => mismatch ("'" ++ (← kindWord (arg 0)) ++ "' object is not an iterator")
      | _ => mismatch ("'" ++ (← kindWord (arg 0)) ++ "' object is not an iterator")
    | v => mismatch ("'" ++ (← kindWord v) ++ "' object is not an iterator")
  | "print" => return .none
  | "vars" =>
    match ← attr? call (arg 0) "__dict__" with
    | some v => return v
    | none => mismatch "vars() argument must have __dict__ attribute"
  | _ => beyond

/-! ### Types -/

def refuseNamed (name : String) (allowed : List String) (named : Names) : Run Unit :=
  match named.find? fun e => !allowed.contains e.1 with
  | some (n, _) => mismatch ("'" ++ n ++ "' is an invalid keyword argument for " ++ name ++ "()")
  | none => pure ()

/-- **Makes a value of a type of the language.** -/
def construct (call : Caller) (name : String) (args : List Val) (named : Names) : Run Val := do
  checkCount name args named
  let arg := fun (k : Nat) => (args[k]?).getD .none
  let itemsOf := do
    match args with
    | [] => return ([] : List Val)
    | v :: _ => iterate v
  match name with
  | "bool" => return .bool (← truth (arg 0))
  | "int" => do
    refuseNamed name ["base"] named
    match args, argument? args named 1 "base" with
    | [], _ => return .int 0
    | v :: _, none => toInt call v
    | .text s :: _, some b => do
      let b ← index b
      if b != 0 && (b < 2 || b > 36) then badValue "int() base must be >= 2 and <= 36, or 0"
      intOfText s b.toNat
    | _, some _ => mismatch "int() can't convert non-string with explicit base"
  | "float" => if args.isEmpty then return .float 0 else toFloat call (arg 0)
  | "str" => do
    refuseNamed name ["object", "encoding", "errors"] named
    match argument? args named 0 "object", argument? args named 1 "encoding" with
    | none, _ => return .text ""
    | some v, none => return .text (← plain v)
    | some v, some (.text _) =>
      match ← bytes? v with
      | some _ => beyond
      | none => mismatch ("decoding to str: need a bytes-like object, " ++ (← kindWord v) ++ " found")
    | some _, some e => mismatch ("str() argument 'encoding' must be str, not " ++ (← kindWord e))
  | "bytes" => do
    refuseNamed name ["source", "encoding", "errors"] named
    return .bytes (← toBytes "bytes" args)
  | "bytearray" => do
    refuseNamed name ["source", "encoding", "errors"] named
    alloc (.bytearray (← toBytes "byte" args).toArray)
  | "list" => do list (← itemsOf)
  | "tuple" => return .tuple (← itemsOf)
  | "set" => do set (← itemsOf)
  | "dict" => do
    if !args.isEmpty then beyond
    dict (named.map fun (n, v) => (.text n, v))
  | "range" => do
    let ns ← args.mapM (index)
    match ns with
    | [b] => return .span 0 b 1
    | [a, b] => return .span a b 1
    | [a, b, c] => if c == 0 then badValue "range() arg 3 must not be zero" else return .span a b c
    | _ => beyond
  | "slice" =>
    match args with
    | [b] => return .slice .none b .none
    | [a, b] => return .slice a b .none
    | _ => return .slice (arg 0) (arg 1) (arg 2)
  | "object" => alloc (.thing (.tool "object") [])
  | "type" =>
    match args with
    | [v] => typeOf v
    | _ => if args.length = 3 then beyond else mismatch "type() takes 1 or 3 arguments"
  | "property" | "staticmethod" | "classmethod" => do
    let setter : Names := match args[1]? with
      | some f => [("fset", f)]
      | none => []
    alloc (.thing (.tool name) (("fget", arg 0) :: setter))
  | _ => beyond

end BitSchema.Script.Run
