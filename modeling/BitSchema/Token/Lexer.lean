import BitSchema.Token

/-!
# Reading tokens

`Token.scan` cuts a text into tokens.  At each position the rules are tried in a fixed order and the
first that matches wins: newline, comment, the base types, hexadecimal and decimal numbers, truth
values, names and keywords, strings, operators, single characters.  Spaces, tabs and carriage
returns between tokens are skipped.

Base types and truth values are whole words: neither the character before nor the one after may be
a word character.  A number directly before letters is a token of its own.

The scan stops at the first position where no rule matches, at a number with too many digits, at an
integer type of a width that does not exist, and at a string with an unknown escape; `Scan.failure` then
says why, and the tokens before it are kept.
-/

namespace BitSchema

open Text

namespace Token

/-! ### Pieces of rules -/

/-- The characters after `word`, if the text starts with it. -/
def after? (word : List Char) (cs : List Char) : Option (List Char) :=
  match word, cs with
  | [], cs => some cs
  | _ :: _, [] => none
  | w :: ws, c :: cs => if w == c then after? ws cs else none

def wordEnds : List Char → Bool
  | [] => true
  | c :: _ => !isWordChar c

def wordStarts : Option Char → Bool
  | none => true
  | some c => !isWordChar c

def wholeWord? (words : List String) (before : Option Char) (cs : List Char) : Option String :=
  if wordStarts before then
    words.find? fun w =>
      match after? w.toList cs with
      | some rest => wordEnds rest
      | none => false
  else none

def digitValue (c : Char) : Nat :=
  if c.isDigit then c.toNat - '0'.toNat
  else if 'a' ≤ c && c ≤ 'f' then c.toNat - 'a'.toNat + 10
  else if 'A' ≤ c && c ≤ 'F' then c.toNat - 'A'.toNat + 10
  else 0

def isHexDigit (c : Char) : Bool :=
  c.isDigit || ('a' ≤ c && c ≤ 'f') || ('A' ≤ c && c ≤ 'F')

def hexNumber (digits : List Char) : Nat :=
  digits.foldl (fun n c => n * 16 + digitValue c) 0

/-- The digits of an integer type `word` followed by digits, as a whole word. -/
def sizedWord? (word : String) (before : Option Char) (cs : List Char) : Option (List Char) :=
  if wordStarts before then
    match after? word.toList cs with
    | some rest =>
      let digits := rest.takeWhile Char.isDigit
      if !digits.isEmpty && wordEnds (rest.dropWhile Char.isDigit) then some digits else none
    | none => none
  else none

def isNameStart (c : Char) : Bool := c.isAlpha || c == '_'

def isNameChar (c : Char) : Bool := c.isAlphanum || c == '_'

def isSymbol (c : Char) : Bool :=
  [':', ';', '\x7b', '\x7d', '[', ']', '(', ')', '=', '\\', '\'', '.'].contains c

/-! ### Strings -/

/-- What stands between the opening quote and the closing one.  A backslash takes the character after
it along; a line end inside ends the attempt. -/
def stringBody? : List Char → Option (List Char)
  | [] => none
  | '"' :: _ => some []
  | '\\' :: c :: r => if c == '\n' then none else (stringBody? r).map fun b => '\\' :: c :: b
  | c :: r => if c == '\n' || c == '\\' then none else (stringBody? r).map (c :: ·)

def escaped? (c : Char) : Option Char :=
  if c == 't' then some '\t'
  else if c == 'r' then some '\r'
  else if c == 'n' then some '\n'
  else if c == '\\' || c == '\'' || c == '"' then some c
  else none

/-- **Unescaping** the body of a string; fails at an unknown escape. -/
def unescape? : List Char → Option (List Char)
  | [] => some []
  | '\\' :: c :: r => do
    let d ← escaped? c
    let s ← unescape? r
    return d :: s
  | c :: r => if c == '\\' then none else (unescape? r).map (c :: ·)

/-! ### One token -/

def uintWidthOk (n : Nat) : Bool := 0 < n && n ≤ 64

def intWidthOk (n : Nat) : Bool := [8, 16, 32, 64].contains n

inductive Step where
  /-- A lexeme that takes the first character and `more` others. -/
  | found (lexeme : Lexeme) (more : Nat)
  /-- A mistake, and the text to blame. -/
  | failed (problem : Problem) (note : String) (source : String)
  /-- No number can be read. -/
  | stopped (fault : Fault)

def integerType (word : String) (digits : List Char) (ok : Nat → Bool)
    (make : String → Nat → Lexeme) (problem : Problem) : Step :=
  let source := word ++ String.ofList digits
  match Numeral.ofDigits digits with
  | .error f => .stopped f
  | .ok cap =>
    if ok cap then .found (make source cap) (word.length - 1 + digits.length)
    else .failed problem "" source

/-- **One token.** Looks at `c :: r`, with `before` the character before it. -/
def step (before : Option Char) (c : Char) (r : List Char) : Step :=
  let cs := c :: r
  if c == '\n' then .found .newline 0
  else if (after? ['/', '/'] cs).isSome then
    let body := cs.takeWhile (· != '\n')
    .found (.comment (String.ofList body)) (body.length - 1)
  else if (wholeWord? ["bool"] before cs).isSome then .found .boolType 3
  else match sizedWord? "uint" before cs with
  | some digits => integerType "uint" digits uintWidthOk .uintType .uintWidth
  | none =>
  match sizedWord? "int" before cs with
  | some digits => integerType "int" digits intWidthOk .intType .intWidth
  | none =>
  if (wholeWord? ["byte"] before cs).isSome then .found .byteType 3
  else
  let hex := (r.drop 1).takeWhile isHexDigit
  if (after? ['0', 'x'] cs).isSome && !hex.isEmpty then
    .found (.hexLiteral (hexNumber hex)) (1 + hex.length)
  else if c.isDigit then
    let digits := cs.takeWhile Char.isDigit
    match Numeral.ofDigits digits with
    | .error f => .stopped f
    | .ok n => .found (.intLiteral n) (digits.length - 1)
  else match wholeWord? ["true", "false", "yes", "no"] before cs with
  | some word => .found (.boolLiteral (word == "true" || word == "yes")) (word.length - 1)
  | none =>
  if isNameStart c then
    let name := String.ofList (cs.takeWhile isNameChar)
    .found (match Keyword.ofWord? name with
      | some k => .keyword k
      | none => .identifier name) (name.length - 1)
  else if c == '"' then
    match stringBody? r with
    | some body =>
      match unescape? body with
      | some value => .found (.stringLiteral (String.ofList value)) (body.length + 1)
      | none => .failed .escape "" (String.ofList ('"' :: body ++ ['"']))
    | none => .failed .token "Invalid token" "\""
  else if c == '+' then .found .plus 0
  else if c == '-' then .found .minus 0
  else if c == '*' then .found .times 0
  else if c == '/' then .found .divide 0
  else if isSymbol c then .found (.symbol c) 0
  else .failed .token "Invalid token" (String.singleton c)

def isSkipped (c : Char) : Bool := c == ' ' || c == '\t' || c == '\r'

/-! ### The whole text -/

end Token

structure Token.Failure where
  fault : Fault
  line : Nat
deriving DecidableEq, Repr

structure Scan where
  tokens : List Token
  /-- Why the scan stopped before the end of the text. -/
  failure : Option Token.Failure
deriving DecidableEq, Repr

namespace Token

def scanFrom (file : String) (before : Option Char) (line pos : Nat) : List Char → Scan
  | [] => ⟨[], none⟩
  | c :: r =>
    if isSkipped c then scanFrom file (some c) line (pos + 1) r
    else
      match step before c r with
      | .failed problem note source =>
        ⟨[], some ⟨.report { problem, note, file, token := source, line }, line⟩⟩
      | .stopped fault => ⟨[], some ⟨fault, line⟩⟩
      | .found lexeme more =>
        let source := c :: r.take more
        let next := scanFrom file source.getLast?
          (if lexeme = .newline then line + 1 else line) (pos + 1 + more) (r.drop more)
        ⟨⟨lexeme, String.ofList source, line, pos⟩ :: next.tokens, next.failure⟩
termination_by cs => cs.length
decreasing_by
  · exact Nat.lt_succ_self r.length
  · exact Nat.lt_succ_of_le (List.length_drop ▸ Nat.sub_le r.length more)

/-- **Scanning.** The tokens of a text whose first line has the given number. -/
def scan (file : String) (line : Nat) (text : String) : Scan :=
  scanFrom file none line 0 text.toList

end Token

end BitSchema
