import BitSchema.Script.Operator

/-!
# Values put into texts

* `Run.formatted` writes a value as a specification asks for it.
* `Run.percent` fills the places of a text that are marked with percent signs.
-/

namespace BitSchema.Script

namespace Run

/-- The outcome of a calculation: its fault is raised as an exception. -/
def ofExcept {α : Type} (r : Except Fault α) : Run α :=
  match r with
  | .ok a => return a
  | .error f =>
    match f with
    | .badValue text => badValue text
    | .mismatch text => mismatch text
    | .unknownKey key => fail "KeyError" key
    | .noAttribute owner name => fail "AttributeError" ("'" ++ owner ++ "' object has no attribute '" ++ name ++ "'")
    | f => throw (.refused f)

/-- A text in a field of the given width, at its left or at its right. -/
def placed (left : Bool) (width : Nat) (cs : List Char) : String :=
  let free := List.replicate (width - cs.length) ' '
  String.ofList (if left then cs ++ free else free ++ cs)

/-- **A value as a specification asks for it.** -/
def formatted (v : Val) (spec : String) : Run String :=
  if spec.isEmpty then plain v else beyond

/-- A value as the letter after an exclamation mark asks for it. -/
def converted (letter : Option Char) (v : Val) : Run Val := do
  match letter with
  | none => return v
  | some 's' => return .text (← plain v)
  | some 'r' => return .text (← quoted v)
  | some 'a' => return .text (asciiText (← quoted v))
  | some c => badValue ("Unknown conversion specifier '" ++ String.singleton c ++ "'")

/-! ### Places marked with percent signs -/

/-- A value as the letter after a percent sign asks for it. -/
def percentValue (flags : List Char) (width : Nat) (precision : Option Nat) (letter : Char)
    (place : Nat) (v : Val) : Run String := do
  let shown := fun (s : String) => placed (flags.contains '-') width (match precision with
    | some n => s.toList.take n
    | none => s.toList)
  match letter with
  | 's' => return shown (← plain v)
  | 'r' => return shown (← quoted v)
  | letter =>
    if "diuoxXaceEfFgG*(".toList.contains letter then beyond
    else
      badValue ("unsupported format character '" ++ String.singleton letter ++ "' (0x" ++
        String.ofList (Nat.toDigits 16 letter.toNat) ++ ") at index " ++ toString place)

/-- The number at the start of a text, and what follows it. -/
def placeNumber (cs : List Char) : Nat × List Char :=
  let ds := cs.takeWhile Char.isDigit
  (Code.digitsValue 10 ds, cs.drop ds.length)

/-- Fills the places of a text that is `whole` characters long. -/
def percentFrom (whole : Nat) (mayRemain : Bool) : Nat → List Val → List Char → Run String
  | 0, _, _ => beyond
  | fuel + 1, vs, cs => do
    match cs with
    | [] =>
      if !vs.isEmpty && !mayRemain then mismatch "not all arguments converted during string formatting"
      return ""
    | '%' :: r =>
      let flags := r.takeWhile fun c => "-+ #0".toList.contains c
      let (width, r) := placeNumber (r.drop flags.length)
      let (precision, r) := match r with
        | '.' :: r => (some (placeNumber r).1, (placeNumber r).2)
        | r => (none, r)
      let r := match r with
        | c :: r' => if "hlL".toList.contains c then r' else r
        | [] => r
      match r, vs with
      | [], _ => badValue "incomplete format"
      | '%' :: r, _ => return "%" ++ (← percentFrom whole mayRemain fuel vs r)
      | _ :: _, [] => mismatch "not enough arguments for format string"
      | letter :: r, v :: vs =>
        let text ← percentValue flags width precision letter (whole - r.length - 1) v
        return text ++ (← percentFrom whole mayRemain fuel vs r)
    | c :: r =>
      let plainPart := (c :: r).takeWhile (· != '%')
      return String.ofList plainPart ++ (← percentFrom whole mayRemain fuel vs ((c :: r).drop plainPart.length))

/-- **Fills the places of a text** that are marked with percent signs. -/
def percent (s : String) (v : Val) : Run String := do
  let cs := s.toList
  match v with
  | .tuple items => percentFrom cs.length false (cs.length + 1) items cs
  | v => do
    let isTable ← match v, ← object? v with
      | .bytes _, _ | .span _ _ _, _ | _, some (.list _) | _, some (.dict _) | _, some (.bytearray _) => pure true
      | _, _ => pure false
    percentFrom cs.length isTable (cs.length + 1) [v] cs

/-- **An operation on two values.** -/
def binary (op : BinaryOp) (a b : Val) : Run Val :=
  binaryAs percent (plainSign op) op a b

end Run

end BitSchema.Script
