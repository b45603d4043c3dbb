import BitSchema.Script.Reading
import BitSchema.Text.Escape

/-!
# Quoted texts in scripts

Texts that stand beside each other are one text.  The letters in front of a text say how it is meant: `r` for
one without escapes, `b` for bytes, `f` for one with *fields*.  A field stands in braces and is an expression,
with a letter after `!` that says how its value is shown and a format after `:`, which can have fields itself.
Braces that are doubled stand for themselves.

`Texts.read` gives a tree with one of the labels `text`, `bytes` and `joined`; the last one is for texts with
fields, and its parts are texts and fields.  Expressions in fields are read by a function that is given.
-/

namespace BitSchema.Script.Texts

open Text

structure Manner where
  /-- What stands before all complaints. -/
  lead : String
  /-- The line of complaints. -/
  lastLine : Nat
  /-- Reads an expression in brackets, which starts on a line. -/
  expression : Nat → List Char → Except Flaw Tree

namespace Manner

def complain {α : Type} (m : Manner) (text : String) : Except Flaw α :=
  .error ⟨.grammar, m.lead ++ text, m.lastLine⟩

def unescaped (m : Manner) (raw : Bool) (s : List Char) : Except Flaw (List Char) :=
  if raw then .ok s
  else
    match unescape s with
    | .ok s => .ok s
    | .error what => m.complain what

end Manner

def textTree (line : Nat) (s : List Char) : Tree :=
  .node "text" line [.token ⟨.text, String.ofList s, line, 0⟩]

/-! ### Bytes -/

/-- Reads the escapes of bytes from a place on; `skip` characters belong to an escape that has been read.
Or tells the place of an escape that is not complete. -/
def unescapeBytes (place : Nat) : Nat → List Char → Except Nat (List Char)
  | _, [] => .ok []
  | skip + 1, _ :: r => unescapeBytes (place + 1) skip r
  | 0, '\\' :: r => do
    let go := fun (e : List Char) (n : Nat) => do return e ++ (← unescapeBytes (place + 1) n r)
    match r with
    | [] => go ['\\'] 0
    | c :: r' =>
      if c = '\n' then go [] 1
      else if c = 'x' then
        let (v, n) := leadingDigits 16 2 r'
        if n < 2 then .error place else go [Char.ofNat v] 3
      else
        match simpleEscapes.lookup c with
        | some e => go [e] 1
        | none =>
          let (v, n) := leadingDigits 8 3 r
          if n > 0 then go [Char.ofNat (v % 256)] n else go ['\\'] 0
  | 0, c :: r => do return c :: (← unescapeBytes (place + 1) 0 r)

def bytes (m : Manner) (raw : Bool) (line : Nat) (s : List Char) : Except Flaw (List Char) :=
  if s.any fun c => c.toNat ≥ 128 then
    .error ⟨.grammar, m.lead ++ "bytes can only contain ASCII literal characters", line⟩
  else if raw then .ok s
  else
    match unescapeBytes 0 0 s with
    | .ok s => .ok s
    | .error place => m.complain ("(value error) invalid \\x escape at position " ++ toString place)

/-! ### Fields -/

structure Search where
  /-- The open brackets, innermost first. -/
  brackets : List Char := []
  /-- The quote that is open, and whether it is one of three. -/
  quote : Option (Char × Bool) := none

def expressionEnd (m : Manner) : Nat → Search → List Char → Except Flaw (List Char × List Char)
  | 0, _, _ => .ok ([], [])
  | _, s, [] =>
    match s.quote, s.brackets with
    | some _, _ => m.complain "f-string: unterminated string"
    | none, b :: _ => m.complain ("f-string: unmatched '" ++ String.ofList [b] ++ "'")
    | none, [] => .ok ([], [])
  | fuel + 1, s, c :: r =>
    let take := fun (n : Nat) (s : Search) => do
      let (e, rest) ← expressionEnd m fuel s (r.drop n)
      return (c :: r.take n ++ e, rest)
    let three := 2 < (c :: r).length && r.take 2 == [c, c]
    if c = '\\' then m.complain "f-string expression part cannot include a backslash"
    else
      match s.quote with
      | some (q, long) =>
        if c = q && !long then take 0 { s with quote := none }
        else if c = q && three then take 2 { s with quote := none }
        else take 0 s
      | none =>
        if c = '\'' || c = '"' then
          if three then take 2 { s with quote := some (c, true) }
          else take 0 { s with quote := some (c, false) }
        else if c = '[' || c = '\x7b' || c = '(' then
          if s.brackets.length ≥ 200 then m.complain "f-string: too many nested parenthesis"
          else take 0 { s with brackets := c :: s.brackets }
        else if c = '#' then m.complain "f-string expression part cannot include '#'"
        else if s.brackets.isEmpty && ['!', ':', '\x7d', '=', '<', '>'].contains c then
          if r.head? = some '=' && ['!', '=', '<', '>'].contains c then take 1 s
          else if c = '<' || c = '>' then take 0 s
          else .ok ([], c :: r)
        else if c = ']' || c = '\x7d' || c = ')' then
          match s.brackets with
          | [] => m.complain ("f-string: unmatched '" ++ String.ofList [c] ++ "'")
          | b :: brackets =>
            if [('(', ')'), ('[', ']'), ('\x7b', '\x7d')].contains (b, c) then take 0 { s with brackets }
            else
              m.complain ("f-string: closing parenthesis '" ++ String.ofList [c] ++
                "' does not match opening parenthesis '" ++ String.ofList [b] ++ "'")
        else take 0 s

def isSpace (c : Char) : Bool := c = ' ' || c = '\t' || c = '\n' || c = '\x0c'

def fieldExpression (m : Manner) (line : Nat) (e rest : List Char) : Except Flaw Tree :=
  if e.all isSpace then
    match rest with
    | c :: _ =>
      if c = '!' || c = ':' || c = '=' then
        m.complain ("f-string: expression required before '" ++ String.ofList [c] ++ "'")
      else m.complain "f-string: empty expression not allowed"
    | [] => m.complain "f-string: empty expression not allowed"
  else m.expression line ('(' :: e ++ [')'])

def wantsBrace : String := "f-string: expecting '\x7d'"

def conversion (m : Manner) (rest : List Char) : Except Flaw (Option Char × List Char) :=
  match rest with
  | '!' :: [] => m.complain wantsBrace
  | '!' :: c :: r =>
    if c = 's' || c = 'r' || c = 'a' then .ok (some c, r)
    else m.complain "f-string: invalid conversion character: expected 's', 'r', or 'a'"
  | rest => .ok (none, rest)

/-- A piece of literal text up to a brace, and the rest; whether a doubled brace ended it.  Nothing if a
closing brace stands alone.  In a format, a closing brace ends the piece. -/
def literal (raw inFormat : Bool) : Nat → List Char → Option (List Char × List Char × Bool)
  | 0, cs => some ([], cs, false)
  | _, [] => some ([], [], false)
  | fuel + 1, c :: r =>
    let go := fun (taken rest : List Char) =>
      (literal raw inFormat fuel rest).map fun (s, rest, doubled) => (taken ++ s, rest, doubled)
    let brace := fun (before : List Char) (b : Char) (r : List Char) =>
      if !inFormat && r.head? = some b then some (before ++ [b], r.drop 1, true)
      else if !inFormat && b = '\x7d' then none
      else some (before, b :: r, false)
    let isBrace := fun (c : Char) => c = '\x7b' || c = '\x7d'
    if c = '\\' && !raw then
      match r with
      | 'N' :: '\x7b' :: r' =>
        let n := (r'.takeWhile (· != '\x7d')).length + 1
        go ('\\' :: 'N' :: '\x7b' :: r'.take n) (r'.drop n)
      | 'N' :: r' => go ('\\' :: 'N' :: r'.take 1) (r'.drop 1)
      | b :: r' => if isBrace b then brace ['\\'] b r' else go ['\\', b] r'
      | [] => go ['\\'] []
    else if isBrace c then brace [] c r
    else go [c] r

def isAsciiBlank (c : Char) : Bool := isSpace c || c = '\x0b' || c = '\r'

/-- The sign that puts the words of an expression in front of its value, with blanks after it. -/
def shownWords (m : Manner) (e rest : List Char) : Except Flaw (Option (List Char) × List Char) :=
  match rest with
  | '=' :: r =>
    let blanks := r.takeWhile isAsciiBlank
    let r := r.drop blanks.length
    if r.isEmpty then m.complain wantsBrace else .ok (some (e ++ '=' :: blanks), r)
  | rest => .ok (none, rest)

def lineEnds (cs : List Char) : Nat := cs.count '\n'

def fieldTree (line : Nat) (e : Tree) (letter : Option Char) (format : Option (List Tree)) : Tree :=
  .node "field" line [
    e, .node ((letter.map fun c => String.ofList [c]).getD "") line [],
    .node "?" line ((format.map fun ps => Tree.node "joined" line ps).toList)]

/-- **Reads a text with fields** that starts on a line: its texts and fields, and the rest.  Formats in fields
have a level above zero. -/
def pieces (m : Manner) (raw : Bool) : Nat → Nat → Nat → List Char → Except Flaw (List Tree × List Char)
  | 0, _, _, cs => .ok ([], cs)
  | fuel + 1, level, line, cs => do
    match literal raw (level != 0) (cs.length + 1) cs with
    | none => m.complain "f-string: single '\x7d' is not allowed"
    | some (s, rest, doubled) =>
      let texts ← if s.isEmpty then pure [] else (fun s => [textTree line s]) <$> m.unescaped raw s
      let line := line + lineEnds cs - lineEnds rest
      if doubled then
        let (more, rest) ← pieces m raw fuel level line rest
        return (texts ++ more, rest)
      else
        match rest with
        | '\x7b' :: r =>
          if level ≥ 2 then m.complain "f-string: expressions nested too deeply"
          let (e, after) ← expressionEnd m (r.length + 1) {} r
          if after.isEmpty then m.complain wantsBrace
          let tree ← fieldExpression m line e after
          let (words, after) ← shownWords m e after
          let (letter, after) ← conversion m after
          let (format, after) ← match after with
            | ':' :: r' =>
              if r'.isEmpty then m.complain wantsBrace
              let (ps, after) ← pieces m raw fuel (level + 1) (line + lineEnds r - lineEnds r') r'
              pure (some ps, after)
            | after => pure (none, after)
          match after with
          | '\x7d' :: after =>
            let letter := if words.isSome && format.isNone && letter.isNone then some 'r' else letter
            let (more, rest) ← pieces m raw fuel level (line + lineEnds r - lineEnds after) after
            return (texts ++ (words.map (textTree line)).toList ++ fieldTree line tree letter format :: more,
              rest)
          | _ => m.complain wantsBrace
        | rest => return (texts, rest)

/-! ### Texts beside each other -/

inductive Piece where
  | text (s : List Char)
  | bytes (s : List Char)
  | joined (parts : List Tree)

structure Quoted where
  line : Nat
  raw : Bool
  isBytes : Bool
  hasFields : Bool
  inner : List Char

def Quoted.ofToken (t : Token) : Quoted :=
  let cs := t.text.toList
  let letters := (cs.takeWhile fun c => c != '"' && c != '\'').map Char.toLower
  let body := cs.drop letters.length
  let long := body.length ≥ 6 && body.take 3 == List.replicate 3 (body.headD '"')
  let n := if long then 3 else 1
  { line := t.line, raw := letters.contains 'r', isBytes := letters.contains 'b',
    hasFields := letters.contains 'f', inner := (body.drop n).take (body.length - 2 * n) }

def join (m : Manner) (line : Nat) (found : Option Piece) (t : Token) : Except Flaw Piece := do
  let q := Quoted.ofToken t
  let plain ←
    if q.hasFields then pure []
    else if q.isBytes then bytes m q.raw q.line q.inner
    else m.unescaped q.raw q.inner
  let mixed := match found with
    | some (.bytes _) => !q.isBytes
    | some _ => q.isBytes
    | none => false
  if mixed then m.complain "cannot mix bytes and nonbytes literals"
  let fields ← if q.hasFields then (·.1) <$> pieces m q.raw (q.inner.length + 1) 0 q.line q.inner else pure []
  match found with
  | some (.bytes s) => return .bytes (s ++ plain)
  | some (.text s) =>
    return if q.hasFields then .joined (textTree line s :: fields) else .text (s ++ plain)
  | some (.joined ps) => return .joined (ps ++ if q.hasFields then fields else [textTree line plain])
  | none =>
    return if q.hasFields then .joined fields else if q.isBytes then .bytes plain else .text plain

/-- **Reads texts beside each other.** -/
def read (m : Manner) (line : Nat) (ts : List Token) : Except Flaw Tree := do
  let found ← ts.foldlM (fun (found : Option Piece) t => some <$> join m line found t) none
  match found with
  | some (.bytes s) => return .node "bytes" line [.token ⟨.text, String.ofList s, line, 0⟩]
  | some (.joined ps) => return .node "joined" line ps
  | some (.text s) => return textTree line s
  | none => return textTree line []

end BitSchema.Script.Texts
