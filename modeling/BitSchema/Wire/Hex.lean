import BitSchema.Fault

/-!
# Bytes as hexadecimal digits

Each byte is written with two digits.  Blanks may stand between bytes.
-/

namespace BitSchema.Wire.Hex

def digit? (c : Char) : Option Nat :=
  if c.isDigit then some (c.toNat - '0'.toNat)
  else if 'a' ≤ c && c ≤ 'f' then some (c.toNat - 'a'.toNat + 10)
  else if 'A' ≤ c && c ≤ 'F' then some (c.toNat - 'A'.toNat + 10)
  else none

def isBlank (c : Char) : Bool := c = ' ' || (9 ≤ c.toNat && c.toNat ≤ 13)

def wrong (position : Nat) : Fault :=
  .badValue ("non-hexadecimal number found in fromhex() arg at position " ++ toString position)

def readFrom (position : Nat) : List Char → Except Fault (List UInt8)
  | [] => .ok []
  | [c] => if isBlank c then .ok [] else .error (wrong (position + if (digit? c).isSome then 1 else 0))
  | a :: b :: r =>
    if isBlank a then readFrom (position + 1) (b :: r)
    else
      match digit? a, digit? b with
      | some m, some n => do return UInt8.ofNat (16 * m + n) :: (← readFrom (position + 2) r)
      | none, _ => .error (wrong position)
      | some _, none => .error (wrong (position + 1))

/-- **The bytes that digits stand for.** -/
def read (s : String) : Except Fault (Array UInt8) :=
  match s.toList.findIdx? fun c => c.toNat ≥ 128 with
  | some position => .error (wrong position)
  | none => List.toArray <$> readFrom 0 s.toList

/-- **Bytes as digits**, small letters. -/
def write (bs : Array UInt8) : String :=
  String.ofList (bs.toList.flatMap fun b => Text.hexDigits 2 b.toNat)

end BitSchema.Wire.Hex
