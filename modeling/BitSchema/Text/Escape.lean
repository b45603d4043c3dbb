import BitSchema.Text.CharacterName

/-!
# Escapes in quoted text

`unescape` reads the inside of a quoted text in which a backslash opens an escape: the usual letters, up to
three octal digits, two, four or eight hexadecimal digits after `x`, `u` and `U`, and the name of a
character in braces after `N`.  A backslash at the end of a line is left out with the line end, and a
backslash before anything else stands for itself.

An escape that is not complete is told with the place where it stands.  Places are counted in a spelling
of the text without characters beyond ASCII: each of these takes ten places, and a backslash before one
takes six.
-/

namespace BitSchema.Text

def digitValue? (base : Nat) (c : Char) : Option Nat :=
  let v :=
    if c.isDigit then c.toNat - '0'.toNat
    else if 'a' ≤ c ∧ c ≤ 'f' then c.toNat - 'a'.toNat + 10
    else if 'A' ≤ c ∧ c ≤ 'F' then c.toNat - 'A'.toNat + 10
    else base
  if v < base then some v else none

/-- The value of the digits at the start of a text, at most `count` of them, and how many there are. -/
def leadingDigits (base : Nat) : Nat → List Char → Nat × Nat
  | 0, _ => (0, 0)
  | _, [] => (0, 0)
  | count + 1, c :: r =>
    match digitValue? base c with
    | none => (0, 0)
    | some d =>
      let (v, n) := leadingDigits base count r
      (d * Nat.pow base n + v, n + 1)

def simpleEscapes : List (Char × Char) := [
  ('\\', '\\'), ('\'', '\''), ('"', '"'), ('a', '\x07'), ('b', '\x08'), ('f', '\x0c'), ('n', '\n'),
  ('r', '\r'), ('t', '\t'), ('v', '\x0b')]

/-- The letters of escapes with hexadecimal digits, and how many digits follow. -/
def hexEscapes : List (Char × Nat) := [('x', 2), ('u', 4), ('U', 8)]

/-- What an escape stands for, and how many characters after the backslash it takes; or what is wrong
with it, and how many characters are looked at. -/
abbrev Escaped := Except (String × Nat) (List Char × Nat)

def lastCharacter : Nat := 0x10ffff

/-- An escape by hexadecimal digits, `count` of them. -/
def hexEscape (letter : Char) (count : Nat) (r : List Char) : Escaped :=
  let (v, n) := leadingDigits 16 count r
  if n < count then
    .error ("truncated \\" ++ String.ofList (letter :: List.replicate count 'X') ++ " escape", n + 1)
  else if v > lastCharacter then .error ("illegal Unicode character", n + 1)
  else .ok ([Char.ofNat v], n + 1)

def nameEscape (r : List Char) : Escaped :=
  match r with
  | '\x7b' :: r =>
    let name := r.takeWhile (· != '\x7d')
    if name.length = r.length then .error ("malformed \\N character escape", name.length + 2)
    else if name.isEmpty then .error ("malformed \\N character escape", 2)
    else
      match characterNamed? (String.ofList name) with
      | some c => .ok ([c], name.length + 3)
      | none => .error ("unknown Unicode character name", name.length + 3)
  | _ => .error ("malformed \\N character escape", 1)

/-- **The escape** after a backslash. -/
def escape (cs : List Char) : Escaped :=
  match cs with
  | [] => .ok (['\\'], 0)
  | c :: r =>
    match simpleEscapes.lookup c, hexEscapes.lookup c with
    | some e, _ => .ok ([e], 1)
    | none, some count => hexEscape c count r
    | none, none =>
      if c = '\n' then .ok ([], 1)
      else if c = 'N' then nameEscape r
      else
        let (v, n) := leadingDigits 8 3 cs
        if n > 0 then .ok ([Char.ofNat v], n) else .ok (['\\'], 0)

def placesOf (c : Char) (next : Option Char) : Nat :=
  if c.toNat ≥ 128 then 10
  else if c = '\\' && (next.map fun n => decide (n.toNat ≥ 128)).getD false then 6
  else 1

def placesIn : List Char → Nat
  | [] => 0
  | c :: r => placesOf c r.head? + placesIn r

/-- Reads escapes from the given place on; `skip` characters belong to an escape that has been read. -/
def unescapeFrom (place : Nat) : Nat → List Char → Except String (List Char)
  | _, [] => .ok []
  | skip + 1, c :: r => unescapeFrom (place + placesOf c r.head?) skip r
  | 0, c :: r =>
    let after := place + placesOf c r.head?
    if c = '\\' then
      match escape r with
      | .ok (e, n) => do return e ++ (← unescapeFrom after n r)
      | .error (what, n) =>
        .error ("(unicode error) 'unicodeescape' codec can't decode bytes in position " ++ toString place ++
          "-" ++ toString (after + placesIn (r.take n) - 1) ++ ": " ++ what)
    else do return c :: (← unescapeFrom after 0 r)

/-- **Reading the inside of a quoted text.** -/
def unescape (s : List Char) : Except String (List Char) := unescapeFrom 0 0 s

end BitSchema.Text
