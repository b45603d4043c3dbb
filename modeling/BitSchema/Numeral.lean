import BitSchema.Fault

/-!
# Numerals

Numbers written with decimal digits.  A numeral has at most `Numeral.limit` digits, leading zeros
included: a longer one is neither read (`ofDigits`) nor written (`ofInt`).
-/

namespace BitSchema.Numeral

def limit : Nat := 4300

def bound : Nat := Nat.pow 10 limit

def fits (n : Int) : Bool := n.natAbs < bound

/-- **Writing.** The numeral of an integer. -/
def ofInt (n : Int) : Except Fault String :=
  if fits n then .ok (toString n) else .error (.tooManyDigits none)

def digitValue (c : Char) : Nat := c.toNat - '0'.toNat

/-- **Reading.** The number with the given decimal digits. -/
def ofDigits (digits : List Char) : Except Fault Nat :=
  if digits.length ≤ limit then .ok (digits.foldl (fun n c => n * 10 + digitValue c) 0)
  else .error (.tooManyDigits (some digits.length))

end BitSchema.Numeral
