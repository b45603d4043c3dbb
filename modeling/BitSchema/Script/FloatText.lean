/-!
# Floating-point numbers as texts

A floating-point number is a fraction, so that its decimal digits can be told exactly.
`FloatText.shown` is the shortest numeral that stands for a number.
-/

namespace BitSchema.Script.FloatText

def tenTo (n : Nat) : Nat := Nat.pow 10 n

def fraction (x : Float) : Nat × Nat :=
  let bits := x.toBits.toNat
  let exponent := bits / 4503599627370496 % 2048
  let mantissa := bits % 4503599627370496
  let (m, e) := if exponent = 0 then (mantissa, -1074) else (mantissa + 4503599627370496, (exponent : Int) - 1075)
  if e < 0 then (m, Nat.pow 2 e.natAbs) else (m * Nat.pow 2 e.natAbs, 1)

def isNegative (x : Float) : Bool := x.toBits.toNat / 9223372036854775808 = 1

/-- A fraction rounded to a whole number; halves go to the even neighbour. -/
def rounded (a b : Nat) : Nat :=
  let q := a / b
  let r := 2 * (a % b)
  if r > b || (r = b && q % 2 = 1) then q + 1 else q

/-- The exponent of the first digit of a positive fraction, which is one of two by the numbers of digits. -/
def tenExponent (a b : Nat) : Int :=
  let guess := ((Nat.toDigits 10 a).length : Int) - (Nat.toDigits 10 b).length
  if atLeast guess then guess else guess - 1
where
  /-- Whether the fraction is at least ten to a power. -/
  atLeast (k : Int) : Bool :=
    if k < 0 then b ≤ a * tenTo k.natAbs else tenTo k.natAbs * b ≤ a

/-- The first `count` digits of a positive fraction, rounded, and the exponent of the first one. -/
def digits (count a b : Nat) : List Char × Int :=
  let k := tenExponent a b
  let scale := (count : Int) - 1 - k
  let n := if scale < 0 then rounded a (b * tenTo scale.natAbs) else rounded (a * tenTo scale.natAbs) b
  let ds := Nat.toDigits 10 n
  if ds.length > count then (ds.take count, k + 1) else (ds, k)

def trimmed (ds : List Char) : List Char :=
  match (ds.reverse.dropWhile (· = '0')).reverse with
  | [] => ['0']
  | ds => ds

def ofDigits (ds : List Char) (k : Int) : Float :=
  let e : Int := k + 1 - ds.length
  Float.ofScientific (ds.foldl (fun n c => 10 * n + (c.toNat - 48)) 0) (e < 0) e.natAbs

/-- The fewest digits that stand for a positive number, of which up to `count` more are tried. -/
def shortest (x : Float) (a b : Nat) : Nat → Nat → List Char × Int
  | 0, n => digits n a b
  | fuel + 1, n =>
    let (ds, k) := digits n a b
    if ofDigits ds k == x then (ds, k) else shortest x a b fuel (n + 1)

def exponentText (k : Int) : String :=
  let ds := toString k.natAbs
  "e" ++ (if k < 0 then "-" else "+") ++ (if ds.length < 2 then "0" ++ ds else ds)

def pointed (ds : List Char) (k : Int) : List Char × List Char :=
  if k < 0 then (['0'], List.replicate (k.natAbs - 1) '0' ++ ds)
  else
    let n := k.natAbs + 1
    (ds.take n ++ List.replicate (n - ds.length) '0', ds.drop n)

def special? (x : Float) : Option String :=
  if x.isNaN then some "nan" else if x.isInf then some "inf" else none

def shownPositive (x : Float) : String :=
  match special? x with
  | some word => word
  | none =>
    let (a, b) := fraction x
    if a = 0 then "0.0"
    else
      let (ds, k) := shortest x a b 17 1
      let ds := trimmed ds
      if k < -4 || k ≥ 16 then
        String.ofList (ds.take 1 ++ (if ds.length > 1 then '.' :: ds.drop 1 else [])) ++ exponentText k
      else
        let (whole, part) := pointed ds k
        String.ofList (whole ++ '.' :: (if part.isEmpty then ['0'] else part))

/-- **The shortest numeral of a number.** -/
def shown (x : Float) : String :=
  if isNegative x && !x.isNaN then "-" ++ shownPositive x.abs else shownPositive x

/-- The shortest numeral of a number as a whole number, of which so many digits come after the point. -/
def decimal? (x : Float) : Option (Int × Nat) :=
  if (special? x).isSome then none
  else
    let (a, b) := fraction x.abs
    if a = 0 then some (0, 0)
    else
      let (ds, k) := shortest x.abs a b 17 1
      let n : Nat := ds.foldl (fun n c => 10 * n + (c.toNat - 48)) 0
      let places : Int := (ds.length : Int) - 1 - k
      let n : Int := if isNegative x then -n else n
      if places < 0 then some (n * tenTo places.natAbs, 0) else some (n, places.natAbs)

end BitSchema.Script.FloatText
