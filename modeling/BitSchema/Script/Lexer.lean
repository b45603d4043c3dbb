import BitSchema.Script.Numeral
import BitSchema.Script.Token

/-!
# Reading the tokens of a script

The indentation of a line opens and closes blocks, unless the line is blank, holds only a comment, or stands
inside brackets.  A tab goes on to the next multiple of eight; so that lines are indented alike only if they
look alike in every editor, they are compared a second time with tabs as wide as a space.

A backslash at the end of a line joins it with the next one.  A quoted text stands between one or three
quotes, after letters that say how it is meant; only a text between three quotes may span lines.
-/

namespace BitSchema.Script

open Text

structure Lexer where
  rest : List Char
  /-- The number of line ends that have been read. -/
  ends : Nat := 0
  /-- The indentations around the current line, innermost first, measured in both ways. -/
  indents : List (Nat × Nat) := []
  /-- The open brackets with their lines, innermost first. -/
  brackets : List (Char × Nat) := []
  tokens : Array Token := #[]

namespace Lexer

def line (l : Lexer) : Nat := if l.rest.isEmpty then l.ends else l.ends + 1

def finish (l : Lexer) (ending : Ending) : Tokens :=
  { list := l.tokens, ending, lastLine := l.line, bracket := l.brackets.head? }

def flawed (l : Lexer) (text : String) : Tokens := l.finish (.flaw ⟨.grammar, text, l.line⟩)

def push (l : Lexer) (kind : TokenKind) (text : String) (line : Nat) : Lexer :=
  { l with tokens := l.tokens.push ⟨kind, text, line, l.brackets.length⟩ }

def goTo (l : Lexer) (rest : List Char) : Lexer := { l with rest }

def nextLine (l : Lexer) (rest : List Char) : Lexer := { l with rest, ends := l.ends + 1 }

/-! ### Indentation -/

def maxIndents : Nat := 100

/-- The indentation at the start of a line, measured in both ways, and the lexer after it.  The first
backslash at the end of a line fixes it. -/
def indentation : Nat → Lexer → Nat → Nat → Option Nat → Except (Lexer × Stop) (Lexer × Nat × Nat)
  | 0, l, _, _, _ => .error (l, .unfinished)
  | fuel + 1, l, col, alt, fixed =>
    match l.rest with
    | ' ' :: r => indentation fuel (l.goTo r) (col + 1) (alt + 1) fixed
    | '\t' :: r => indentation fuel (l.goTo r) ((col / 8 + 1) * 8) (alt + 1) fixed
    | '\x0c' :: r => indentation fuel (l.goTo r) 0 0 fixed
    | '\\' :: '\n' :: r =>
      let l := l.nextLine r
      if r.isEmpty then .error (l, .unfinished)
      else indentation fuel l col alt (fixed <|> if col = 0 then none else some col)
    | '\\' :: r => .error (l.goTo r, .continuation)
    | _ => .ok (l, fixed.getD col, fixed.getD alt)

def closeTo (col : Nat) : List (Nat × Nat) → Nat × List (Nat × Nat)
  | [] => (0, [])
  | (c, a) :: r =>
    if col < c then
      let (n, rest) := closeTo col r
      (n + 1, rest)
    else (0, (c, a) :: r)

def indentTo (l : Lexer) (col alt : Nat) : Except Stop Lexer := do
  let (top, topAlt) := l.indents.head?.getD (0, 0)
  if col = top then
    if alt ≠ topAlt then throw .tabs
    return l
  else if top < col then
    if l.indents.length + 2 > maxIndents then throw .tooDeep
    if alt ≤ topAlt then throw .tabs
    return { l with indents := (col, alt) :: l.indents }.push .indent "" l.line
  else
    let (n, indents) := closeTo col l.indents
    let (top, topAlt) := indents.head?.getD (0, 0)
    if col ≠ top then throw .unindent
    if alt ≠ topAlt then throw .tabs
    return (List.range n).foldl (fun l _ => l.push .dedent "" l.line) { l with indents }

/-! ### Quoted texts -/

/-- The end of a text between single quotes on one line: the text with the closing quote, the rest and the
line ends in it.  A line end after a backslash belongs to the text. -/
def shortText (quote : Char) : List Char → Option (List Char × List Char × Nat)
  | [] => none
  | '\\' :: c :: r =>
    (shortText quote r).map fun (s, rest, n) => ('\\' :: c :: s, rest, if c = '\n' then n + 1 else n)
  | c :: r =>
    if c = quote then some ([c], r, 0)
    else if c = '\n' then none
    else (shortText quote r).map fun (s, rest, n) => (c :: s, rest, n)

/-- The number of line ends before a text between single quotes stops without a closing quote. -/
def shortStop : List Char → Nat
  | '\\' :: '\n' :: r => shortStop r + 1
  | '\\' :: _ :: r => shortStop r
  | c :: r => if c = '\n' then 0 else shortStop r
  | [] => 0

def longText (quote : Char) : List Char → Option (List Char × List Char × Nat)
  | [] => none
  | '\\' :: c :: r =>
    (longText quote r).map fun (s, rest, n) => ('\\' :: c :: s, rest, if c = '\n' then n + 1 else n)
  | c :: r =>
    if c = quote && r.take 2 == [quote, quote] then some ([quote, quote, quote], r.drop 2, 0)
    else (longText quote r).map fun (s, rest, n) => (c :: s, rest, if c = '\n' then n + 1 else n)

/-- Reads a quoted text whose opening quote comes next; letters in front of it have been read. -/
def quoted (l : Lexer) (letters : List Char) (quote : Char) (r : List Char) : Except Tokens Lexer :=
  let start := l.line
  let closed := fun (opening s rest : List Char) (n : Nat) =>
    let l := l.push .text (String.ofList (letters ++ opening ++ s)) start
    .ok { l with rest, ends := l.ends + n }
  let unterminated := fun (what : String) (detected : Nat) =>
    .error (l.finish (.flaw ⟨.grammar,
      "unterminated " ++ what ++ " literal (detected at line " ++ toString detected ++ ")", start⟩))
  if r.take 2 == [quote, quote] then
    match longText quote (r.drop 2) with
    | some (s, rest, n) => closed [quote, quote, quote] s rest n
    | none => unterminated "triple-quoted string" (l.ends + l.rest.count '\n')
  else
    match shortText quote r with
    | some (s, rest, n) => closed [quote] s rest n
    | none => unterminated "string" (min (start + shortStop r) (l.ends + l.rest.count '\n'))

def isTextLead (letters : List Char) : Bool :=
  [[], ['b'], ['r'], ['u'], ['f'], ['b', 'r'], ['r', 'b'], ['f', 'r'], ['r', 'f']].contains
    (letters.map Char.toLower)

/-! ### Words and signs -/

def codePoint (c : Char) : String :=
  let digits := (Nat.toDigits 16 c.toNat).map Char.toUpper
  "U+" ++ String.ofList (List.replicate (4 - digits.length) '0' ++ digits)

def strange (c : Char) : String :=
  if isVisible c then "invalid character '" ++ String.ofList [c] ++ "' (" ++ codePoint c ++ ")"
  else "invalid non-printable character " ++ codePoint c

def longSigns : List String := [
  "**=", "//=", "<<=", ">>=", "...", "!=", "%=", "&=", "**", "*=", "+=", "-=", "->", "//", "/=", ":=", "<<",
  "<=", "<>", "==", ">=", ">>", "@=", "^=", "|="]

def maxBrackets : Nat := 200

def bracketPairs : List (Char × Char) := [('(', ')'), ('[', ']'), ('\x7b', '\x7d')]

def close (l : Lexer) (c : Char) (r : List Char) : Except String Lexer :=
  let shown := fun (c : Char) => "'" ++ String.ofList [c] ++ "'"
  match l.brackets with
  | [] => .error ("unmatched " ++ shown c)
  | (opening, at_) :: brackets =>
    if bracketPairs.lookup opening = some c then
      .ok (({ l with brackets }.push .sign (String.ofList [c]) l.line).goTo r)
    else
      .error ("closing parenthesis " ++ shown c ++ " does not match opening parenthesis " ++ shown opening ++
        (if at_ = l.line then "" else " on line " ++ toString at_))

def sign (l : Lexer) (c : Char) (r : List Char) : Except String Lexer :=
  match longSigns.find? fun s => s.toList.isPrefixOf (c :: r) with
  | some s => .ok ((l.push .sign s l.line).goTo ((c :: r).drop s.length))
  | none =>
    if (bracketPairs.lookup c).isSome then
      if l.brackets.length ≥ maxBrackets then .error "too many nested parentheses"
      else
        let l' := { l with brackets := (c, l.line) :: l.brackets }
        .ok ((l'.push .sign (String.ofList [c]) l.line).goTo r)
    else if bracketPairs.any fun p => p.2 = c then l.close c r
    else if !isVisible c then .error (strange c)
    else .ok ((l.push .sign (String.ofList [c]) l.line).goTo r)

/-- Reads a word: a name, a reserved word, or the letters in front of a quoted text. -/
def word (l : Lexer) (cs : List Char) : Except Tokens Lexer :=
  let w := cs.takeWhile Numeral.goesOn
  let rest := cs.drop w.length
  match rest with
  | c :: r =>
    if (c = '"' || c = '\'') && isTextLead w then l.quoted w c r else plain w rest
  | [] => plain w rest
where
  /-- Reads a word that stands for itself. -/
  plain (w rest : List Char) : Except Tokens Lexer :=
    match if w.all isAscii then none else nameFlaw? w with
    | some c => .error (l.flawed (strange c))
    | none =>
      let s := String.ofList w
      .ok ((l.push (if keywords.contains s then .keyword else .name) s l.line).goTo rest)
  /-- Whether a character is inside ASCII. -/
  isAscii (c : Char) : Bool := c.toNat < 128

/-! ### Lines -/

/-- Reads tokens; `fresh` says that a line starts.  Each turn reads a character or ends. -/
def run : Nat → Bool → Lexer → Tokens
  | 0, _, l => l.finish (.stopped .unfinished)
  | fuel + 1, true, l =>
    match indentation (l.rest.length + 1) l 0 0 none with
    | .error (l, why) => l.finish (.stopped why)
    | .ok (l, col, alt) =>
      let blank := match l.rest with
        | c :: _ => c = '#' || c = '\n'
        | [] => false
      if blank then
        match l.rest.dropWhile (· != '\n') with
        | _ :: r => run fuel true (l.nextLine r)
        | [] => l.finish (.stopped .unfinished)
      else if l.brackets.isEmpty then
        match l.indentTo col alt with
        | .error why => l.finish (.stopped why)
        | .ok l => run fuel false l
      else run fuel false l
  | fuel + 1, false, l =>
    match l.rest with
    | [] => if l.brackets.isEmpty then (l.push .finish "" l.line).finish .finished
        else l.finish (.stopped .unfinished)
    | '\\' :: '\n' :: r =>
      if r.isEmpty then (l.nextLine r).finish (.stopped .unfinished) else run fuel false (l.nextLine r)
    | '\\' :: r => (l.goTo r).finish (.stopped .continuation)
    | c :: r =>
      if c = ' ' || c = '\t' || c = '\x0c' then run fuel false (l.goTo r)
      else if c = '#' then run fuel false (l.goTo (r.dropWhile (· != '\n')))
      else if c = '\n' then
        let l' := if l.brackets.isEmpty then l.push .newline "" l.line else l
        run fuel true (l'.nextLine r)
      else if c = '"' || c = '\'' then
        match l.quoted [] c r with
        | .ok l => run fuel false l
        | .error t => t
      else if c.isDigit || (c = '.' && (r.head?.map Char.isDigit).getD false) then
        match Numeral.scan (c :: r) with
        | .ok (s, rest) => run fuel false ((l.push .number (String.ofList s) l.line).goTo rest)
        | .error text => l.flawed text
      else if Numeral.goesOn c then
        match l.word (c :: r) with
        | .ok l => run fuel false l
        | .error t => t
      else
        match l.sign c r with
        | .ok l => run fuel false l
        | .error text => l.flawed text

end Lexer

def withLineEnds (s : List Char) : List Char :=
  let cs := unifyNewlinesChars s
  if cs.isEmpty || cs.getLast? = some '\n' then cs else cs ++ ['\n']

def tokensAfter (lines : Nat) (s : List Char) : Tokens :=
  let rest := withLineEnds s
  Lexer.run (2 * rest.length + 2) true { rest, ends := lines }

/-- **The tokens of a script.** -/
def tokens (s : String) : Tokens := tokensAfter 0 s.toList

end BitSchema.Script
