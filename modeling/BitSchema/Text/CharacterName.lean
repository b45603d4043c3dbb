import BitSchema.Text.CharacterName.Names
import BitSchema.Text.Packed

/-!
# Names of characters

Every character of Unicode 14 has a name in capitals, such as `BULLET` or `GREEK SMALL LETTER ALPHA`.  The names
of characters with numbers below 65536, of mathematical letters and of pictographs are listed, in groups of
characters that follow each other and share the first words of their names; a few characters have further names.
Some names follow from the number of the character:

* Chinese characters are named by their number in hexadecimal digits;
* Korean syllables are named by the letters they are made of;
* variation selectors have short names with their number among the selectors.

`characterNamed?` finds the character with a name.  Small letters count as capitals, except in the names of
Chinese characters and Korean syllables.
-/

namespace BitSchema.Text

namespace CharacterName

/-! ### Listed names -/

structure Group where
  first : Nat
  start : String
  rests : List String

/-- The names that a text stands for: `A01~2` is short for `A01`, `A02` and `A03`. -/
def run (s : String) : List String :=
  match s.splitOn "~" with
  | [name, count] =>
    let digits := (name.toList.reverse.takeWhile Char.isDigit).reverse
    let stem := name.toList.take (name.length - digits.length)
    (List.range (count.toNat?.getD 0 + 1)).map fun k =>
      let n := toString ((String.ofList digits).toNat?.getD 0 + k)
      String.ofList (stem ++ List.replicate (digits.length - n.length) '0') ++ n
  | _ => [s]

/-- The groups of a list of names, from the character `n` on.  A line has the distance of its group from the one before,
the start of the names and the rests; characters without a name have an empty rest. -/
def groupsFrom (n : Nat) : List String → List Group
  | [] => []
  | line :: lines =>
    match line.splitOn ":" with
    | [distance, start, rests] =>
      let g : Group := ⟨n + distance.toNat?.getD 0, start, (rests.splitOn ";").flatMap run⟩
      g :: groupsFrom (g.first + g.rests.length) lines
    | _ => groupsFrom n lines

def Group.find? (g : Group) (name : String) : Option Nat :=
  if g.start.isPrefixOf name && g.start != name then
    (g.rests.findIdx? (· == String.ofList (name.toList.drop g.start.length))).map (g.first + ·)
  else none

def listed? (name : String) : Option Nat :=
  let parts := (Packed.unpack textLength (String.join packedText)).splitOn "\n\n"
  (parts.flatMap fun part => groupsFrom 0 (part.splitOn "\n")).findSome? (·.find? name)

/-! ### Names with numbers -/

def hexValue? (cs : List Char) : Option Nat :=
  if cs.isEmpty then none
  else cs.foldlM (fun v c =>
    if c.isDigit then some (16 * v + (c.toNat - '0'.toNat))
    else if 'A' ≤ c && c ≤ 'F' then some (16 * v + (c.toNat - 'A'.toNat + 10))
    else none) 0

/-- The value of hexadecimal digits after a start, with the number of digits in a list. -/
def numbered? (start : String) (widths : List Nat) (name : String) : Option Nat :=
  let digits := name.toList.drop start.length
  if start.isPrefixOf name && widths.contains digits.length then hexValue? digits else none

/-- Characters that are named by their number with four or five digits: the start of their names, the
first and the last one. -/
def numberedRanges : List (String × Nat × Nat) := [
  ("CJK COMPATIBILITY IDEOGRAPH-", 0xf900, 0xfa6d), ("CJK COMPATIBILITY IDEOGRAPH-", 0xfa70, 0xfad9),
  ("KHITAN SMALL SCRIPT CHARACTER-", 0x18b00, 0x18cd5), ("NUSHU CHARACTER-", 0x1b170, 0x1b2fb),
  ("CJK COMPATIBILITY IDEOGRAPH-", 0x2f800, 0x2fa1d)]

/-- The number of the character whose name is its number.  The digits are as few as possible. -/
def inRange? (name : String) (r : String × Nat × Nat) : Option Nat := do
  let (start, first, last) := r
  let n ← numbered? start [if first < 0x10000 then 4 else 5] name
  if first ≤ n && n ≤ last then some n else none

def selector? (name : String) : Option Nat := do
  if !"VS".isPrefixOf name then none
  else
    let digits := name.toList.drop 2
    let n ← (String.ofList digits).toNat?
    if digits.head? = some '0' || !digits.all Char.isDigit || n = 0 || n > 256 then none
    else if n ≤ 16 then some (0xfdff + n)
    else some (0xe00ef + n)

/-! ### Chinese characters -/

def unifiedStart : String := "CJK UNIFIED IDEOGRAPH-"

def unifiedRanges : List (Nat × Nat) := [
  (0x3400, 0x4dbf), (0x4e00, 0x9fff), (0x20000, 0x2a6df), (0x2a700, 0x2b738), (0x2b740, 0x2b81d),
  (0x2b820, 0x2cea1), (0x2ceb0, 0x2ebe0), (0x30000, 0x3134a)]

/-- The number of the Chinese character with a name; zeros may stand in front of the number. -/
def unified? (name : String) : Option Nat := do
  let n ← numbered? unifiedStart [4, 5] name
  if unifiedRanges.any fun r => r.1 ≤ n && n ≤ r.2 then some n else none

/-! ### Korean syllables -/

def syllableStart : String := "HANGUL SYLLABLE "

def openings : List String :=
  ["G", "GG", "N", "D", "DD", "R", "M", "B", "BB", "S", "SS", "", "J", "JJ", "C", "K", "T", "P", "H"]

def vowels : List String := [
  "A", "AE", "YA", "YAE", "EO", "E", "YEO", "YE", "O", "WA", "WAE", "OE", "YO", "U", "WEO", "WE", "WI", "YU",
  "EU", "YI", "I"]

def closings : List String := [
  "", "G", "GG", "GS", "N", "NJ", "NH", "D", "L", "LG", "LM", "LB", "LS", "LT", "LP", "LH", "M", "B", "BS",
  "S", "SS", "NG", "J", "C", "K", "T", "P", "H"]

def longest (choices : List String) (cs : List Char) : Option (Nat × List Char) :=
  let found := choices.zipIdx.foldl (fun best (s, k) =>
    let longer : Bool := match best with
      | some (_, n) => n < s.length
      | none => true
    if longer && s.toList.isPrefixOf cs then some (k, s.length) else best) none
  found.map fun (k, n) => (k, cs.drop n)

def syllable? (name : String) : Option Nat := do
  let (l, r) ← longest openings (name.toList.drop syllableStart.length)
  let (v, r) ← longest vowels r
  let (t, r) ← longest closings r
  if r.isEmpty then some (0xac00 + (l * vowels.length + v) * closings.length + t) else none

end CharacterName

open CharacterName in
/-- **The character with a name.** -/
def characterNamed? (name : String) : Option Char :=
  Char.ofNat <$>
    if syllableStart.isPrefixOf name then syllable? name
    else if unifiedStart.isPrefixOf name then unified? name
    else
      let name := name.toUpper
      selector? name <|> numberedRanges.findSome? (inRange? name) <|> listed? name

end BitSchema.Text
