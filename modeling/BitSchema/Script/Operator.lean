import BitSchema.Script.Show
import BitSchema.Wire.Bits

/-!
# Operators

What signs between values do, and what brackets behind a value do.

* `Run.binary`, `Run.unary` and `Run.compare` apply operators.
* `Run.iterate` gives the items of a value one by one.
* `Run.item` and `Run.putItemAt` look at and replace parts by index or key.
-/

namespace BitSchema.Script

def BinaryOp.sign : BinaryOp → String
  | .add => "+" | .sub => "-" | .mul => "*" | .div => "/" | .floorDiv => "//" | .mod => "%" | .pow => "**"
  | .matMul => "@" | .shiftLeft => "<<" | .shiftRight => ">>" | .bitOr => "|" | .bitXor => "^" | .bitAnd => "&"

def andInt (m n : Int) : Int := -(Wire.orInt (-m - 1) (-n - 1)) - 1

def intBits (op : BinaryOp) (m n : Int) : Int :=
  match op with
  | .bitOr => Wire.orInt m n
  | .bitXor => Wire.orInt m n - andInt m n
  | _ => andInt m n

namespace Run

/-! ### Iteration -/

def iterate? (v : Val) : Run (Option (List Val)) := do
  match ← items? v with
  | some items => return some items
  | none =>
    match v with
    | .ref k =>
      match ← read k with
      | .iterator items =>
        write k (.iterator [])
        return some items
      | _ => return none
    | _ => return none

/-- **The items of a value.** -/
def iterate (v : Val) : Run (List Val) := do
  match ← iterate? v with
  | some items => return items
  | none => mismatch ("'" ++ (← kindWord v) ++ "' object is not iterable")

/-! ### Arithmetic -/

def maxBits : Nat := 10000000

def unsupported {α : Type} (sign : String) (a b : Val) : Run α := do
  mismatch ("unsupported operand type(s) for " ++ sign ++ ": '" ++ (← kindWord a) ++ "' and '" ++
    (← kindWord b) ++ "'")

def byZero {α : Type} (text : String) : Run α := fail "ZeroDivisionError" text

def intPower (m : Int) (n : Nat) : Run Val := do
  if m.natAbs > 1 && (m.natAbs.log2 + 1) * n > maxBits then beyond
  return .int (Int.pow m n)

def intOp (op : BinaryOp) (m n : Int) : Run Val := do
  match op with
  | .add => return .int (m + n)
  | .sub => return .int (m - n)
  | .mul => return .int (m * n)
  | .div => if n == 0 then byZero "division by zero" else beyond
  | .floorDiv => if n == 0 then byZero "integer division or modulo by zero" else return .int (m.fdiv n)
  | .mod => if n == 0 then byZero "integer modulo by zero" else return .int (m.fmod n)
  | .pow =>
    if n ≥ 0 then intPower m n.toNat
    else if m == 0 then byZero "0.0 cannot be raised to a negative power"
    else beyond
  | .matMul => unsupported "@" (.int m) (.int n)
  | .shiftLeft =>
    if n < 0 then badValue "negative shift count"
    if m != 0 && n.toNat > maxBits then beyond
    return .int (m * (Nat.pow 2 n.toNat : Nat))
  | .shiftRight =>
    if n < 0 then badValue "negative shift count"
    if n.toNat > maxBits then return .int (if m < 0 then -1 else 0)
    return .int (m.fdiv (Nat.pow 2 n.toNat : Nat))
  | op => return .int (intBits op m n)

/-! ### Sequences -/

def repeated {α : Type} (items : List α) (n : Int) : Run (List α) := do
  if !isIndex n then fail "OverflowError" "cannot fit 'int' into an index-sized integer"
  let n := n.toNat
  if items.length * n > maxBits then fail "MemoryError" ""
  return (List.replicate n items).flatten

def times? (v : Val) (n : Int) : Run (Option Val) := do
  match v with
  | .text s => return some (.text (String.ofList (← repeated s.toList n)))
  | .bytes bs => return some (.bytes (← repeated bs n))
  | .tuple items => return some (.tuple (← repeated items n))
  | .ref k =>
    match ← read k with
    | .list items => some <$> list (← repeated items.toList n)
    | .bytearray bs => some <$> alloc (.bytearray (← repeated bs.toList n).toArray)
    | _ => return none
  | _ => return none

def isSequence (v : Val) : Run Bool := do
  match v with
  | .text _ | .bytes _ | .tuple _ => return true
  | .ref k =>
    match ← read k with
    | .list _ | .bytearray _ => return true
    | _ => return false
  | _ => return false

/-- One sequence after another; nothing if the first value is none. -/
def concat? (a b : Val) : Run (Option Val) := do
  let refuse := fun (kind : String) => do
    mismatch ("can only concatenate " ++ kind ++ " (not \"" ++ (← kindWord b) ++ "\") to " ++ kind)
  match a, b with
  | .text s, .text t => return some (.text (s ++ t))
  | .text _, _ => refuse "str"
  | .tuple s, .tuple t => return some (.tuple (s ++ t))
  | .tuple _, _ => refuse "tuple"
  | a, b =>
    match ← object? a, ← object? b with
    | some (.list s), some (.list t) => some <$> alloc (.list (s ++ t))
    | some (.list _), _ => refuse "list"
    | x, _ =>
      match ← bytes? a, ← bytes? b with
      | some s, some t =>
        match x with
        | some _ => some <$> alloc (.bytearray (s ++ t).toArray)
        | none => return some (.bytes (s ++ t))
      | some _, none => mismatch ("can't concat " ++ (← kindWord b) ++ " to " ++ (← kindWord a))
      | none, _ => return none

/-! ### Operations -/

def boolOp? (op : BinaryOp) (a b : Val) : Option Val :=
  match op, a, b with
  | .bitOr, .bool x, .bool y => some (.bool (x || y))
  | .bitAnd, .bool x, .bool y => some (.bool (x && y))
  | .bitXor, .bool x, .bool y => some (.bool (x != y))
  | _, _, _ => none

def isTypeLike (v : Val) : Run Bool := do
  match v with
  | .none | .generic _ _ => return true
  | v => isTypeValue v

/-- Whether an operation is about all numbers, whole or not. -/
def isArithmetic : BinaryOp → Bool
  | .add | .sub | .mul | .div | .floorDiv | .mod | .pow => true
  | _ => false

/-- **An operation on two values.**  The sign tells whether the result replaces the first value. -/
def binaryAs (format : String → Val → Run String) (sign : String) (op : BinaryOp) (a b : Val) :
    Run Val := do
  if let some v := boolOp? op a b then return v
  match a.int?, b.int? with
  | some m, some n => return ← (if op = .matMul then unsupported sign a b else intOp op m n)
  | _, _ => pure ()
  match a.float?, b.float? with
  | some _, some _ => return ← (if isArithmetic op then beyond else unsupported sign a b)
  | _, _ => pure ()
  if op = .mod then
    match a with
    | .text s => return .text (← format s b)
    | _ => pure ()
  match op with
  | .add =>
    if let some v ← concat? a b then return v
  | .mul =>
    match b.int?, a.int? with
    | some n, _ => if let some v ← times? a n then return v
    | none, some n => if let some v ← times? b n then return v
    | none, none => pure ()
    if ← isSequence a then
      mismatch ("can't multiply sequence by non-int of type '" ++ (← kindWord b) ++ "'")
    if ← isSequence b then
      mismatch ("can't multiply sequence by non-int of type '" ++ (← kindWord a) ++ "'")
  | .bitOr =>
    if (← isTypeLike a) && (← isTypeLike b) then return .generic (.tool "types.UnionType") [a, b]
  | _ => pure ()
  unsupported sign a b

def plainSign (op : BinaryOp) : String := if op = .pow then "** or pow()" else op.sign

/-- **An operation on one value.** -/
def unary (op : UnaryOp) (v : Val) : Run Val := do
  let refuse := fun (sign : String) => do
    mismatch ("bad operand type for unary " ++ sign ++ ": '" ++ (← kindWord v) ++ "'")
  match op, v with
  | .not, v => return .bool (!(← truth v))
  | .plus, .float x => return .float x
  | .minus, .float x => return .float (-x)
  | .plus, v =>
    match v.int? with
    | some n => return .int n
    | none => refuse "+"
  | .minus, v =>
    match v.int? with
    | some n => return .int (-n)
    | none => refuse "-"
  | .invert, v =>
    match v.int? with
    | some n => return .int (-n - 1)
    | none => refuse "~"

/-! ### Comparisons -/

def textWithin (part whole : String) : Bool := part.isEmpty || (whole.splitOn part).length > 1

def bytesWithin (part : List UInt8) : List UInt8 → Bool
  | [] => part.isEmpty
  | b :: r => part.isPrefixOf (b :: r) || bytesWithin part r

def contains (whole v : Val) : Run Bool := do
  match whole, v with
  | .text s, .text part => return textWithin part s
  | .text _, v => mismatch ("'in <string>' requires string as left operand, not " ++ (← kindWord v))
  | .span a b c, .int n => return (spanItems a b c).any (same (.int n))
  | whole, v =>
    match ← bytes? whole with
    | some bs =>
      match v.int?, ← bytes? v with
      | some n, _ =>
        if n < 0 || n > 255 then badValue "byte must be in range(0, 256)"
        return bs.contains (UInt8.ofNat n.toNat)
      | none, some part => return bytesWithin part bs
      | none, none => mismatch ("a bytes-like object is required, not '" ++ (← kindWord v) ++ "'")
    | none =>
      match ← object? whole with
      | some (.dict entries) =>
        checkKey v
        isAmong v (entries.toList.map (·.1))
      | some (.set items _) =>
        checkKey v
        isAmong v items.toList
      | _ => isAmong v (← listed whole)
where
  /-- The items of a value in which others are looked for. -/
  listed (whole : Val) : Run (List Val) := do
    match ← iterate? whole with
    | some items => return items
    | none => mismatch ("argument of type '" ++ (← kindWord whole) ++ "' is not iterable")

/-- **A comparison.** -/
def compare (op : CompareOp) (a b : Val) : Run Val := do
  match op with
  | .eq => return .bool (← equal a b)
  | .ne => return .bool (!(← equal a b))
  | .same => return .bool (same a b)
  | .notSame => return .bool (!same a b)
  | .within => return .bool (← contains b a)
  | .notWithin => return .bool (!(← contains b a))
  | op => return .bool (← order op a b)

/-! ### Parts -/

def index (v : Val) : Run Int := do
  match v.int? with
  | some n => return n
  | none => mismatch ("'" ++ (← kindWord v) ++ "' object cannot be interpreted as an integer")

def place? (n : Nat) (k : Int) : Option Nat :=
  let k := if k < 0 then k + n else k
  if 0 ≤ k && k < n then some k.toNat else none

def placeFor (n : Nat) (k : Int) (text : String) : Run Nat :=
  match place? n k with
  | some k => return k
  | none =>
    if isIndex k then fail "IndexError" text
    else fail "IndexError" "cannot fit 'int' into an index-sized integer"

def noKey {α : Type} (key : Val) : Run α := throw (.raised (.problem (.tool "KeyError") [key]))

def sequenceIndex (words : String) (key : Val) : Run Int := do
  match key.int? with
  | some n => return n
  | none => mismatch (words ++ ", not " ++ (← kindWord key))

def typeParams : Val → List Val
  | .tuple items => items
  | v => [v]

def parametrized (t key : Val) : Run Val := do
  let refuse := do mismatch ("type '" ++ (← typeName t) ++ "' is not subscriptable")
  let params := typeParams key
  let counted := fun (name : String) (n : Nat) =>
    if params.length > n then
      mismatch ("Too many arguments for " ++ name ++ "; actual " ++ toString params.length ++ ", expected " ++
        toString n)
    else if params.length < n then
      mismatch ("Too few arguments for " ++ name ++ "; actual " ++ toString params.length ++ ", expected " ++
        toString n)
    else return Val.generic t params
  match t with
  | .tool "typing.List" => counted "typing.List" 1
  | .tool "typing.Dict" => counted "typing.Dict" 2
  | .tool "typing.ClassVar" =>
    match key with
    | .tuple _ => mismatch ("typing.ClassVar accepts only single type. Got " ++ (← quoted key) ++ ".")
    | _ => return .generic t params
  | .tool name =>
    if name.startsWith "typing." || ["list", "dict", "tuple", "set", "frozenset", "type"].contains name then
      return .generic t params
    refuse
  | _ => refuse

/-- **A part of a value**, by index or key. -/
def item (v key : Val) : Run Val := do
  match v, key with
  | _, .slice _ _ _ => beyond
  | .text s, key =>
    match key.int? with
    | some k =>
      let cs := s.toList
      return .text (String.singleton (cs.getD (← placeFor cs.length k "string index out of range") ' '))
    | none => mismatch ("string indices must be integers, not '" ++ (← kindWord key) ++ "'")
  | .tuple items, key =>
    let k ← sequenceIndex "tuple indices must be integers or slices" key
    return items.getD (← placeFor items.length k "tuple index out of range") .none
  | .bytes bs, key =>
    let k ← sequenceIndex "byte indices must be integers or slices" key
    return .int (bs.getD (← placeFor bs.length k "index out of range") 0).toNat
  | .span a b c, key =>
    let k ← sequenceIndex "range indices must be integers or slices" key
    return .int (a + c * ((← placeFor (spanLength a b c) k "range object index out of range" : Nat) : Int))
  | .ref k, key =>
    match ← read k, key with
    | .list items, key =>
      let k ← sequenceIndex "list indices must be integers or slices" key
      return items.getD (← placeFor items.size k "list index out of range") .none
    | .bytearray bs, key =>
      let k ← sequenceIndex "bytearray indices must be integers or slices" key
      return .int (bs.getD (← placeFor bs.size k "bytearray index out of range") 0).toNat
    | .dict entries, key =>
      match ← keyPlace? entries key with
      | some k => return (entries.getD k (.none, .none)).2
      | none => noKey key
    | .frame names, .text name =>
      match names.lookup name with
      | some v => return v
      | none => noKey key
    | .classOf _, key => parametrized v key
    | _, _ => refuse
  | .tool name, key => if isType name || name.startsWith "typing." then parametrized v key else refuse
  | .generic (.tool _) _, _ => do mismatch ((← quoted v) ++ " is not a generic class")
  | _, _ => refuse
where
  /-- Other values have no parts. -/
  refuse : Run Val := do mismatch ("'" ++ (← kindWord v) ++ "' object is not subscriptable")

def toByte (v : Val) : Run UInt8 := do
  let n ← index v
  if n < 0 || n > 255 then badValue "byte must be in range(0, 256)"
  return UInt8.ofNat n.toNat

/-- **Replaces a part of a value.** -/
def putItemAt (v key x : Val) : Run Unit := do
  match v with
  | .ref k =>
    match ← read k, key with
    | _, .slice _ _ _ => beyond
    | .list items, key =>
      let j ← sequenceIndex "list indices must be integers or slices" key
      let place ← placeFor items.size j "list assignment index out of range"
      write k (.list (items.setIfInBounds place x))
    | .bytearray bs, key =>
      let j ← sequenceIndex "bytearray indices must be integers or slices" key
      let place ← placeFor bs.size j "bytearray index out of range"
      write k (.bytearray (bs.setIfInBounds place (← toByte x)))
    | .dict entries, key => do write k (.dict (← putEntry entries key x))
    | _, _ => refuse
  | _ => refuse
where
  /-- Other values have no parts that can be replaced. -/
  refuse : Run Unit := do mismatch ("'" ++ (← kindWord v) ++ "' object does not support item assignment")

end Run

end BitSchema.Script
