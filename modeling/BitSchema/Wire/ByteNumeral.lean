import BitSchema.Numeral

/-!
# Numbers spelled in bytes

Bytes can spell a number: decimal digits in ASCII with a sign in front, single underscores between the
digits, and blanks around it.  `ByteNumeral.read` gives the number, or tells the bytes that spell none.
-/

namespace BitSchema.Wire.ByteNumeral

open Text

def written (quoteMark : Char) (b : UInt8) : List Char :=
  let c := Char.ofNat b.toNat
  if c == quoteMark || c == '\\' then ['\\', c]
  else if c == '\t' then ['\\', 't']
  else if c == '\n' then ['\\', 'n']
  else if c == '\r' then ['\\', 'r']
  else if 32 ≤ b.toNat && b.toNat < 127 then [c]
  else '\\' :: 'x' :: hexDigits 2 b.toNat

/-- **Bytes in quotes.**  Single quotes are used unless there are single and no double quotes inside. -/
def quoted (bs : List UInt8) : String :=
  let has := fun (c : Char) => bs.any fun b => b.toNat == c.toNat
  let mark := if has '\'' && !has '"' then '"' else '\''
  String.ofList ('b' :: mark :: bs.flatMap (written mark) ++ [mark])

def isBlank (b : UInt8) : Bool := b.toNat == 32 || (9 ≤ b.toNat && b.toNat ≤ 13)

/-- The digits of a numeral with underscores; none if a digit does not stand where one must. -/
def digits? : List Char → Option (List Char)
  | [] => none
  | [c] => if c.isDigit then some [c] else none
  | c :: '_' :: r => if c.isDigit then (digits? r).map (c :: ·) else none
  | c :: r => if c.isDigit then (digits? r).map (c :: ·) else none

/-- The sign and the digits that bytes spell. -/
def parts? (bs : List UInt8) : Option (Int × List Char) :=
  let inner := ((bs.dropWhile isBlank).reverse.dropWhile isBlank).reverse
  match inner.map fun b => Char.ofNat b.toNat with
  | '-' :: r => (digits? r).map ((-1, ·))
  | '+' :: r => (digits? r).map ((1, ·))
  | r => (digits? r).map ((1, ·))

/-- **The number that bytes spell.** -/
def read (bs : List UInt8) : Except Fault Int :=
  match parts? bs with
  | some (sign, digits) => do return sign * (← Numeral.ofDigits digits)
  | none =>
    let shown := String.ofList ((quoted bs).toList.take 200)
    .error (.badValue ("invalid literal for int() with base 10: " ++ shown))

end BitSchema.Wire.ByteNumeral
