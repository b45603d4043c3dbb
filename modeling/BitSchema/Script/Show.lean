import BitSchema.Script.Attribute
import BitSchema.Script.FloatText

/-!
# Values compared and shown

* `Run.truth` says whether a value counts as true.
* `Run.equal` compares values, `Run.before` orders them.
* `Run.quoted` shows a value as it would be written, `Run.plain` as it is read.
-/

namespace BitSchema.Script

def showDepth : Nat := 300

def boolInt (b : Bool) : Int := if b then 1 else 0

def Val.int? : Val → Option Int
  | .int n => some n
  | .bool b => some (boolInt b)
  | _ => Option.none

def intFloat (n : Int) : Float := Float.ofInt n

def Val.float? : Val → Option Float
  | .float x => some x
  | v => v.int?.map intFloat

def spanLength (start stop step : Int) : Nat :=
  if step > 0 then ((stop - start + step - 1).fdiv step).toNat
  else if step < 0 then ((start - stop - step - 1).fdiv (-step)).toNat
  else 0

def spanItems (start stop step : Int) : List Val :=
  (List.range (spanLength start stop step)).map fun (k : Nat) => .int (start + step * (k : Int))

def byteVals (bs : List UInt8) : List Val := bs.map fun b => .int b.toNat

def isWhole (x : Float) (n : Int) : Bool :=
  if x.isNaN || x.isInf then false
  else
    let (a, b) := FloatText.fraction x.abs
    a % b = 0 && (if FloatText.isNegative x then -((a / b : Nat) : Int) else ((a / b : Nat) : Int)) == n

def floatBelow (x : Float) (n : Int) : Bool :=
  if x.isInf then FloatText.isNegative x
  else
    let (a, b) := FloatText.fraction x.abs
    let a : Int := if FloatText.isNegative x then -(a : Int) else a
    a < n * b

namespace Run

/-! ### Parts -/

def items? (v : Val) : Run (Option (List Val)) := do
  match v with
  | .tuple items => return some items
  | .text s => return some (s.toList.map fun c => .text (String.singleton c))
  | .bytes bs => return some (byteVals bs)
  | .span a b c => return some (spanItems a b c)
  | .ref k =>
    match ← read k with
    | .list items => return some items.toList
    | .bytearray bs => return some (byteVals bs.toList)
    | .dict entries => return some (entries.toList.map (·.1))
    | .set items _ => return some items.toList
    | .frame names => return some (names.map fun e => .text e.1)
    | _ => return none
  | _ => return none

def size? (v : Val) : Run (Option Nat) := do
  match v with
  | .text s => return some s.length
  | .span a b c => return some (spanLength a b c)
  | v => return (← items? v).map List.length

/-! ### Truth -/

/-- **Whether a value counts as true.** -/
def truth (v : Val) : Run Bool := do
  match v with
  | .none => return false
  | .bool b => return b
  | .int n => return n != 0
  | .float x => return !(x == 0)
  | v =>
    match ← size? v with
    | some n => return n != 0
    | none => return true

/-! ### Equality -/

def recordItems? (v : Val) : Run (Option (Val × List (String × Val))) := do
  match ← object? v with
  | some (.thing type names) =>
    match ← lookUp type "__dataclass_fields__" with
    | some (.tuple fields) =>
      let named := fields.filterMap fun f => match f with
        | .text n => some n
        | _ => none
      return some (type, named.map fun n => (n, (names.lookup n).getD .none))
    | _ => return none
  | _ => return none

def equalItems (eq : Val → Val → Run Bool) : List Val → List Val → Run Bool
  | [], [] => return true
  | a :: as, b :: bs => do if ← eq a b then equalItems eq as bs else return false
  | _, _ => return false

def entriesWithin (eq : Val → Val → Run Bool) (others : List (Val × Val)) : List (Val × Val) → Run Bool
  | [] => return true
  | (k, v) :: r => do
    let found ← others.findM? fun e => eq k e.1
    match found with
    | some (_, w) => if ← eq v w then entriesWithin eq others r else return false
    | none => return false

def bytes? (v : Val) : Run (Option (List UInt8)) := do
  match v with
  | .bytes bs => return some bs
  | .ref k =>
    match ← read k with
    | .bytearray bs => return some bs.toList
    | _ => return none
  | _ => return none

def equalAt : Nat → Val → Val → Run Bool
  | 0, _, _ => beyond
  | fuel + 1, a, b => do
    let eq := equalAt fuel
    match a, b with
    | .float x, .float y => return x == y
    | .float x, b => return (b.int?.map fun n => isWhole x n).getD false
    | a, .float y => return (a.int?.map fun n => isWhole y n).getD false
    | .tuple as, .tuple bs => equalItems eq as bs
    | .span a b c, .span a' b' c' =>
      equalItems eq (spanItems a b c) (spanItems a' b' c')
    | .bound f s, .bound g t => return (← eq f g) && same s t
    | .generic f s, .generic g t => return (← eq f g) && (← equalItems eq s t)
    | a, b =>
      if same a b then return true
      match a.int?, b.int? with
      | some m, some n => return m == n
      | _, _ =>
        match ← bytes? a, ← bytes? b with
        | some x, some y => return x == y
        | _, _ =>
          match ← object? a, ← object? b with
          | some (.list as), some (.list bs) => equalItems eq as.toList bs.toList
          | some (.dict as), some (.dict bs) =>
            if as.size != bs.size then return false
            entriesWithin eq bs.toList as.toList
          | some (.set _ _), some (.set _ _) => beyond
          | _, _ =>
            match ← recordItems? a, ← recordItems? b with
            | some (s, as), some (t, bs) =>
              if sameType s t then equalItems eq (as.map (·.2)) (bs.map (·.2)) else return false
            | _, _ => return false

/-- **Whether two values are equal.** -/
def equal (a b : Val) : Run Bool := equalAt showDepth a b

def placeOf? (v : Val) : List Val → Nat → Run (Option Nat)
  | [], _ => return none
  | w :: r, k => do if ← equal v w then return some k else placeOf? v r (k + 1)

def isAmong (v : Val) (items : List Val) : Run Bool := do
  return (← placeOf? v items 0).isSome

/-! ### Keys -/

def checkKeyAt : Nat → Val → Run Unit
  | 0, _ => pure ()
  | fuel + 1, v => do
    match v with
    | .tuple items => items.forM (checkKeyAt fuel)
    | .slice _ _ _ => mismatch "unhashable type: 'slice'"
    | .ref k =>
      match ← read k with
      | .list _ | .bytearray _ | .dict _ | .set _ false =>
        mismatch ("unhashable type: '" ++ (← kindWord v) ++ "'")
      | .thing type _ =>
        match ← lookUp type "__hash__" with
        | some .none => mismatch ("unhashable type: '" ++ (← kindWord v) ++ "'")
        | _ => pure ()
      | _ => pure ()
    | _ => pure ()

/-- **Refuses values that cannot be keys.** -/
def checkKey (v : Val) : Run Unit := checkKeyAt showDepth v

def keyPlace? (entries : Array (Val × Val)) (key : Val) : Run (Option Nat) := do
  checkKey key
  placeOf? key (entries.toList.map (·.1)) 0

def putEntry (entries : Array (Val × Val)) (key v : Val) : Run (Array (Val × Val)) := do
  match ← keyPlace? entries key with
  | some k => return entries.modify k fun e => (e.1, v)
  | none => return entries.push (key, v)

def dict (entries : List (Val × Val)) : Run Val := do
  alloc (.dict (← entries.foldlM (fun found (k, v) => putEntry found k v) #[]))

def putItem (items : Array Val) (v : Val) : Run (Array Val) := do
  checkKey v
  return (if ← isAmong v items.toList then items else items.push v)

def set (items : List Val) : Run Val := do
  alloc (.set (← items.foldlM putItem #[]) false)

/-! ### Texts -/

def quotedBytes (bs : List UInt8) : String :=
  let cs := bs.map fun b => Char.ofNat b.toNat
  let q := if cs.contains '\'' && !cs.contains '"' then '"' else '\''
  let one := fun (c : Char) =>
    if c == q || c == '\\' then ['\\', c]
    else if c == '\n' then ['\\', 'n']
    else if c == '\r' then ['\\', 'r']
    else if c == '\t' then ['\\', 't']
    else if c.toNat < 32 || c.toNat ≥ 127 then '\\' :: 'x' :: Text.hexDigits 2 c.toNat
    else [c]
  "b" ++ String.ofList (q :: cs.flatMap one ++ [q])

def maxShownDigits : Nat := 4300

def intText (n : Int) : Run String := do
  let s := toString n
  if s.length > maxShownDigits + (if n < 0 then 1 else 0) then
    badValue ("Exceeds the limit (4300 digits) for integer string conversion; " ++
      "use sys.set_int_max_str_digits() to increase the limit")
  return s

def joined (texts : List String) : String := ", ".intercalate texts

def unsteady {α : Type} : Run α := beyond

def typeText (quotedOf : Val → Run String) (t : Val) : Run String := do
  match t with
  | .ellipsis => return "..."
  | .tool name =>
    if isType name then
      let (home, title) ← typeTitle t
      return if home == "builtins" then title else home ++ "." ++ title
    return name
  | .ref k =>
    match ← read k with
    | .classOf c => return c.home ++ "." ++ c.title
    | _ => quotedOf t
  | t => quotedOf t

/-- Shows a value as it would be written, so many levels deep. -/
def quotedAt : Nat → Val → Run String
  | 0, _ => fail "RecursionError" "maximum recursion depth exceeded while getting the repr of an object"
  | fuel + 1, v => do
    let shown := quotedAt fuel
    let all := fun (vs : List Val) => joined <$> vs.mapM shown
    match v with
    | .none => return "None"
    | .ellipsis => return "Ellipsis"
    | .notImplemented => return "NotImplemented"
    | .bool b => return if b then "True" else "False"
    | .int n => intText n
    | .float x => return FloatText.shown x
    | .text s => return Text.quote s
    | .bytes bs => return quotedBytes bs
    | .tuple [v] => return "(" ++ (← shown v) ++ ",)"
    | .tuple vs => return "(" ++ (← all vs) ++ ")"
    | .slice a b c => return "slice(" ++ (← all [a, b, c]) ++ ")"
    | .span a b c =>
      return "range(" ++ joined ([a, b].map toString ++ (if c == 1 then [] else [toString c])) ++ ")"
    | .tool name =>
      if isType name then
        let (home, title) ← typeTitle v
        return "<class '" ++ (if home == "builtins" then title else home ++ "." ++ title) ++ "'>"
      if name.startsWith "typing." then return name
      if knownFunctions.contains name then return "<built-in function " ++ name ++ ">"
      if toolType name == "method_descriptor" then
        return "<method '" ++ lastPart name ++ "' of '" ++ ((name.splitOn ".").headD "") ++ "' objects>"
      unsteady
    | .generic (.tool name) params =>
      let params ← params.mapM (typeText shown)
      return name ++ "[" ++ joined params ++ "]"
    | .generic _ _ => unsteady
    | .problem kind args =>
      let (_, title) ← typeTitle kind
      return lastPart title ++ "(" ++ (← all args) ++ ")"
    | .method _ _ | .bound _ _ => unsteady
    | .ref k =>
      match ← read k with
      | .list items => return "[" ++ (← all items.toList) ++ "]"
      | .bytearray bs => return "bytearray(" ++ quotedBytes bs.toList ++ ")"
      | .dict entries =>
        let texts ← entries.toList.mapM fun (k, v) => return (← shown k) ++ ": " ++ (← shown v)
        return "\x7b" ++ joined texts ++ "\x7d"
      | .set items _ =>
        let text ← all items.toList
        return if items.isEmpty then "set()" else "\x7b" ++ text ++ "\x7d"
      | .classOf c => return "<class '" ++ c.home ++ "." ++ c.title ++ "'>"
      | .thing _ _ =>
        match ← recordItems? v with
        | some (type, fields) =>
          let texts ← fields.mapM fun (n, v) => return n ++ "=" ++ (← shown v)
          return (← typeTitle type).2 ++ "(" ++ joined texts ++ ")"
        | none => unsteady
      | _ => unsteady

/-- **A value as it would be written.** -/
def quoted (v : Val) : Run String := quotedAt showDepth v

/-- **A value as it is read.** -/
def plain (v : Val) : Run String := do
  match v with
  | .text s => return s
  | .problem _ [] => return ""
  | .problem (.tool "KeyError") [v] => quoted v
  | .problem _ [.text s] => return s
  | .problem _ [v] =>
    match v with
    | .problem _ [] => return ""
    | .problem _ [.text s] => return s
    | v => quoted v
  | .problem _ args => quoted (.tuple args)
  | v => quoted v

def asciiText (s : String) : String :=
  String.ofList (s.toList.flatMap fun c =>
    if c.toNat < 128 then [c]
    else if c.toNat < 0x100 then '\\' :: 'x' :: Text.hexDigits 2 c.toNat
    else if c.toNat < 0x10000 then '\\' :: 'u' :: Text.hexDigits 4 c.toNat
    else '\\' :: 'U' :: Text.hexDigits 8 c.toNat)

/-! ### Order -/

def firstDifferent (eq : Val → Val → Run Bool) : List Val → List Val → Run (Option (Val × Val))
  | a :: as, b :: bs => do if ← eq a b then firstDifferent eq as bs else return some (a, b)
  | _, _ => return none

def CompareOp.sign : CompareOp → String
  | .eq => "==" | .ne => "!=" | .lt => "<" | .le => "<=" | .gt => ">" | .ge => ">="
  | .within => "in" | .notWithin => "not in" | .same => "is" | .notSame => "is not"

def fits (op : CompareOp) (below same : Bool) : Bool :=
  match op with
  | .lt => below
  | .le => below || same
  | .gt => !below && !same
  | .ge => !below
  | _ => false

def orderAt (op : CompareOp) : Nat → Val → Val → Run Bool
  | 0, _, _ => beyond
  | fuel + 1, a, b => do
    let lists := fun (as bs : List Val) => do
      match ← firstDifferent equal as bs with
      | some (a, b) => orderAt op fuel a b
      | none => return fits op (as.length < bs.length) (as.length == bs.length)
    match a, b with
    | .text s, .text t => return fits op (s < t) (s == t)
    | .tuple as, .tuple bs => lists as bs
    | .float x, .float y => return !x.isNaN && !y.isNaN && fits op (x < y) (x == y)
    | .float x, b =>
      match b.int? with
      | some n => return !x.isNaN && fits op (floatBelow x n) (isWhole x n)
      | none => unordered a b
    | a, .float y =>
      match a.int? with
      | some n => return !y.isNaN && fits op (!floatBelow y n && !isWhole y n) (isWhole y n)
      | none => unordered a b
    | a, b =>
      match a.int?, b.int? with
      | some m, some n => return fits op (m < n) (m == n)
      | _, _ =>
        match ← bytes? a, ← bytes? b with
        | some x, some y =>
          return fits op (x.map UInt8.toNat < y.map UInt8.toNat) (x == y)
        | _, _ =>
          match ← object? a, ← object? b with
          | some (.list as), some (.list bs) => lists as.toList bs.toList
          | some (.set _ _), some (.set _ _) => beyond
          | _, _ => unordered a b
where
  /-- Values that have no order. -/
  unordered (a b : Val) : Run Bool := do
    mismatch ("'" ++ CompareOp.sign op ++ "' not supported between instances of '" ++ (← kindWord a) ++
      "' and '" ++ (← kindWord b) ++ "'")

/-- **Compares by order.** -/
def order (op : CompareOp) (a b : Val) : Run Bool := orderAt op showDepth a b

end Run

end BitSchema.Script
