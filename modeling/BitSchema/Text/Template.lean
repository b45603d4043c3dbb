import BitSchema.Fault

/-!
# Templates

A template is a text with fields in braces.  `Template.fill` puts a word into the fields that have its
name; a brace that is meant as such is doubled.  After the name of a field can stand

* an index in brackets, which takes one character of the word;
* an exclamation mark and a letter, which takes the word in quotes (`r`, `a`) or as it is (`s`);
* a colon and a `Spec`: a character to pad with, where the word stands, a width and a greatest length.  A
  specification can hold fields itself.
-/

namespace BitSchema.Text

namespace Template

def bad (text : String) : Fault := .badValue text

def opening : Char := '\x7b'

def closing : Char := '\x7d'

/-! ### Specifications -/

structure Spec where
  pad : Char
  align : Char
  sign : Option Char
  coerces : Bool
  alternate : Bool
  width : Option Nat
  length : Option Nat
  type : Char

def isAlign (c : Char) : Bool := c = '<' || c = '>' || c = '=' || c = '^'

def number (cs : List Char) : Except Fault (Option Nat × List Char) :=
  let digits := cs.takeWhile Char.isDigit
  let n := digits.foldl (fun v c => 10 * v + (c.toNat - '0'.toNat)) 0
  if n ≥ Nat.pow 2 63 then .error (bad "Too many decimal digits in format string")
  else .ok (if digits.isEmpty then none else some n, cs.drop digits.length)

def shownChar (c : Char) : String :=
  if 32 < c.toNat && c.toNat < 128 then "'" ++ String.singleton c ++ "'"
  else "'\\x" ++ String.ofList (Nat.toDigits 16 c.toNat) ++ "'"

def alignment (cs : List Char) : Option Char × Option Char × List Char :=
  match cs with
  | [] => (none, none, [])
  | a :: r =>
    match r with
    | b :: rest =>
      if isAlign b then (some a, some b, rest)
      else if isAlign a then (none, some a, r)
      else (none, none, cs)
    | [] => if isAlign a then (none, some a, []) else (none, none, cs)

def take (c : Char) : List Char → Bool × List Char
  | [] => (false, [])
  | d :: r => if d = c then (true, r) else (false, d :: r)

def grouping (cs : List Char) : Except Fault (Option Char × List Char) := do
  let (comma, cs) := take ',' cs
  let (low, cs) := take '_' cs
  if (comma && low) || (low && (take ',' cs).1) then throw (bad "Cannot specify both ',' and '_'.")
  return (if comma then some ',' else if low then some '_' else none, cs)

def groups (mark type : Char) : Bool :=
  "defgEG%F".toList.contains type || (mark = '_' && "boxX".toList.contains type)

/-- **Reads a specification** for a text. -/
def spec (whole : List Char) : Except Fault Spec := do
  let (pad, align, cs) := alignment whole
  let (sign, cs) := match cs with
    | c :: r => if c = ' ' || c = '+' || c = '-' then (some c, r) else (none, cs)
    | [] => (none, [])
  let (coerces, cs) := take 'z' cs
  let (alternate, cs) := take '#' cs
  let (zero, cs) := if pad.isSome then (false, cs) else take '0' cs
  let (width, cs) ← number cs
  let (group, cs) ← grouping cs
  let (dot, cs) := take '.' cs
  let (length, cs) ← if dot then number cs else pure (none, cs)
  if dot && length.isNone then throw (bad "Format specifier missing precision")
  if cs.length > 1 then
    throw (bad ("Invalid format specifier '" ++ String.ofList whole ++ "' for object of type 'str'"))
  let type := cs.headD 's'
  match group with
  | some mark =>
    if !groups mark type then
      throw (bad ("Cannot specify " ++ shownChar mark ++ " with " ++ shownChar type ++ "."))
  | none => pure ()
  let pad := if zero then '0' else pad.getD ' '
  return { pad, align := align.getD '<', sign, coerces, alternate, width, length, type }

def Spec.fit (s : Spec) (word : String) : Except Fault String := do
  if s.type != 's' then
    throw (bad ("Unknown format code " ++ shownChar s.type ++ " for object of type 'str'"))
  match s.sign with
  | some ' ' => throw (bad "Space not allowed in string format specifier")
  | some _ => throw (bad "Sign not allowed in string format specifier")
  | none => pure ()
  if s.coerces then
    throw (bad "Negative zero coercion (z) not allowed in string format specifier")
  if s.alternate then throw (bad "Alternate form (#) not allowed in string format specifier")
  if s.align = '=' then throw (bad "'=' alignment not allowed in string format specifier")
  let cs := match s.length with
    | some n => word.toList.take n
    | none => word.toList
  let free := s.width.getD 0 - cs.length
  let left := if s.align = '>' then free else if s.align = '^' then free / 2 else 0
  return String.ofList (List.replicate left s.pad ++ cs ++ List.replicate (free - left) s.pad)

/-! ### Fields -/

def fieldName : Nat → List Char → Except Fault (List Char × Option Char × List Char)
  | 0, _ => .ok ([], none, [])
  | _, [] => .ok ([], none, [])
  | fuel + 1, c :: r =>
    if c = opening then .error (bad "unexpected '\x7b' in field name")
    else if c = closing || c = ':' || c = '!' then .ok ([], some c, r)
    else do
      let inner := if c = '[' then r.takeWhile (· != ']') else []
      let (name, last, rest) ← fieldName fuel (r.drop inner.length)
      return (c :: inner ++ name, last, rest)

/-- A specification up to the brace that closes `count` open ones, and what follows. -/
def specText : Nat → List Char → Except Fault (List Char × List Char)
  | _, [] => .error (bad "unmatched '\x7b' in format spec")
  | count, c :: r =>
    if c = closing && count ≤ 1 then .ok ([], r)
    else do
      let next := if c = opening then count + 1 else if c = closing then count - 1 else count
      let (s, rest) ← specText next r
      return (c :: s, rest)

/-- A field: its name, the letter after an exclamation mark and its specification. -/
structure Field where
  name : List Char
  conversion : Option Char := none
  spec : List Char := []

/-- **Reads a field** after its opening brace, and what follows it. -/
def field (cs : List Char) : Except Fault (Field × List Char) := do
  let (name, last, rest) ← fieldName cs.length cs
  match last with
  | none => throw (bad "expected '\x7d' before end of string")
  | some c =>
    if c = closing then return ({ name }, rest)
    else if c = ':' then
      let (spec, rest) ← specText 1 rest
      return ({ name, spec }, rest)
    else
      match rest with
      | [] => throw (bad "end of string while looking for conversion specifier")
      | conversion :: rest =>
        match rest with
        | [] => throw (bad "unmatched '\x7b' in format spec")
        | d :: rest =>
          if d = closing then return ({ name, conversion := some conversion }, rest)
          else if d != ':' then throw (bad "expected ':' after conversion specifier")
          else
            let (spec, rest) ← specText 1 rest
            return ({ name, conversion := some conversion, spec }, rest)

/-! ### Words -/

/-- What follows the first part of the name of a field: an index takes a character. -/
def follow : Nat → String → List Char → Except Fault String
  | 0, word, _ => .ok word
  | _, word, [] => .ok word
  | fuel + 1, word, c :: r =>
    if c = '.' then
      let name := r.takeWhile fun c => c != '.' && c != '['
      if name.isEmpty then .error (bad "Empty attribute in format string")
      else .error (.noAttribute "str" (String.ofList name))
    else if c = '[' then
      let index := r.takeWhile (· != ']')
      let rest := r.drop index.length
      if rest.isEmpty then .error (bad "Missing ']' in format string")
      else if index.isEmpty then .error (bad "Empty attribute in format string")
      else do
        match ← number index with
        | (some n, []) =>
          match word.toList[n]? with
          | some c => follow fuel (String.singleton c) (rest.drop 1)
          | none => throw (.indexRange .text)
        | _ => throw (.mismatch "string indices must be integers, not 'str'")
    else .error (bad "Only '.' or '[' may follow ']' in format field specifier")

def wordOf (key word : String) (name : List Char) : Except Fault String := do
  let first := name.takeWhile fun c => c != '.' && c != '['
  if first.isEmpty then throw (.indexRange (.fillings 0))
  match ← number first with
  | (some n, []) => throw (.indexRange (.fillings n))
  | _ =>
    if String.ofList first == key then follow name.length word (name.drop first.length)
    else throw (.unknownKey (String.ofList first))

def plainQuote (word : String) : String :=
  String.ofList ((quote word).toList.flatMap fun c =>
    if c.toNat < 0x80 then [c]
    else if c.toNat < 0x100 then '\\' :: 'x' :: hexDigits 2 c.toNat
    else if c.toNat < 0x10000 then '\\' :: 'u' :: hexDigits 4 c.toNat
    else '\\' :: 'U' :: hexDigits 8 c.toNat)

def convert (word : String) : Option Char → Except Fault String
  | none => .ok word
  | some 's' => .ok word
  | some 'r' => .ok (quote word)
  | some 'a' => .ok (plainQuote word)
  | some c =>
    .error (bad ("Unknown conversion specifier " ++
      if 32 < c.toNat && c.toNat < 127 then String.singleton c
      else "\\x" ++ String.ofList (Nat.toDigits 16 c.toNat)))

/-- Fills a template from some place on; specifications are templates down to a depth. -/
def fillFrom (key word : String) : Nat → Nat → List Char → Except Fault (List Char)
  | 0, _, _ => .error (bad "Max string recursion exceeded")
  | _, 0, _ => .ok []
  | _, _, [] => .ok []
  | depth + 1, fuel + 1, c :: r =>
    if c != opening && c != closing then do return c :: (← fillFrom key word (depth + 1) fuel r)
    else
      match r with
      | [] =>
        .error (bad (if c = opening then "Single '\x7b' encountered in format string"
          else "Single '\x7d' encountered in format string"))
      | d :: rest =>
        if d = c then do return c :: (← fillFrom key word (depth + 1) fuel rest)
        else if c = closing then .error (bad "Single '\x7d' encountered in format string")
        else do
          let (f, rest) ← field r
          let w ← convert (← wordOf key word f.name) f.conversion
          let specification ← if f.spec.contains opening || f.spec.contains closing
            then fillFrom key word depth f.spec.length f.spec
            else pure f.spec
          let w ← if specification.isEmpty then pure w else (← spec specification).fit w
          return w.toList ++ (← fillFrom key word (depth + 1) fuel rest)

/-- **Fills a template** with a word in the fields of the given name. -/
def fill (template key word : String) : Except Fault String :=
  String.ofList <$> fillFrom key word 2 template.length template.toList

end Template

end BitSchema.Text
