/-!
# Blank characters

Which characters count as white space when a text is trimmed, and trimming itself.  The set is that
of Unicode's white space together with the four ASCII separators `0x1c` to `0x1f`.
-/

namespace BitSchema.Text

def blankRanges : List (Nat × Nat) :=
  [(9, 13), (28, 32), (133, 133), (160, 160), (5760, 5760), (8192, 8202), (8232, 8233),
   (8239, 8239), (8287, 8287), (12288, 12288)]

/-- **Blank characters.** -/
def isBlank (c : Char) : Bool :=
  blankRanges.any fun r => r.1 ≤ c.toNat && c.toNat ≤ r.2

/-- Drops the longest suffix of characters satisfying `p`. -/
def dropEndWhile (p : Char → Bool) (cs : List Char) : List Char :=
  (cs.reverse.dropWhile p).reverse

/-- Drops characters satisfying `p` from both ends. -/
def trimWhile (p : Char → Bool) (cs : List Char) : List Char :=
  dropEndWhile p (cs.dropWhile p)

/-- **Trimming.** The text without blank characters at either end. -/
def trim (s : String) : String :=
  String.ofList (trimWhile isBlank s.toList)

end BitSchema.Text
