import BitSchema.Fault

/-!
# Bits of integers

Shifts, masks and signs on integers of any size.  Negative integers have infinitely many leading ones,
as in two's complement.

* `orInt` is the bitwise or.
* `byteAt` is the byte of an integer above a given bit.
* `signed` reads an unsigned number of a given width as a signed one.
* `chunkSize` says how many bits can be copied at once between two bit positions: a copy never leaves a
  byte on either side.
-/

namespace BitSchema.Wire

/-- The bits of `a` that `b` does not have. -/
def andNot (a b : Nat) : Nat := a ^^^ (a &&& b)

/-- **Bitwise or** on integers. -/
def orInt : Int → Int → Int
  | .ofNat a, .ofNat b => .ofNat (a ||| b)
  | .negSucc a, .ofNat b => .negSucc (andNot a b)
  | .ofNat a, .negSucc b => .negSucc (andNot b a)
  | .negSucc a, .negSucc b => .negSucc (a &&& b)

/-- The eight bits of an integer from bit `k` on. -/
def byteAt (n : Int) (k : Nat) : Nat := ((n >>> k) % 256).toNat

/-- **The weight of bit `k`**: a power of two. -/
def weight (k : Nat) : Nat := Nat.pow 2 k

/-- **Signs.** A number of `width` bits whose highest bit is set stands for a negative one. -/
def signed (width : Nat) (n : Int) : Int :=
  if n < weight (width - 1) then n else n - weight width

/-- A shift to the right by `k` bits, to the left if `k` is negative. -/
def shiftBy (n k : Int) : Int :=
  if k > 0 then n >>> k.toNat else n * weight (-k).toNat

/-- A power of two with an exponent that must be neither negative nor beyond all bounds. -/
def powerOfTwo (k : Int) : Except Fault Int :=
  if k < 0 then .error .negativeShift
  else if k < 274877906944 then .ok (weight k.toNat)
  else if k < 69175290276410818500 then .error .outOfMemory
  else .error .numberTooLarge

/-- A shift whose result must have a size within bounds. -/
def shiftWithin (n k : Int) : Except Fault Int :=
  if k ≥ 0 || n = 0 then return if n = 0 then 0 else shiftBy n k
  else return n * (← powerOfTwo (-k))

/-- **Masks.** The `c` bits from bit `k` on. -/
def maskOf (k c : Int) : Except Fault Int := do
  if k = 0 then return (← powerOfTwo c) - 1
  else return (← powerOfTwo (k + c)) - (← powerOfTwo k)

/-- **Chunks.** How many bits can be copied at once, `i` bits of the buffer and `j` of the `n` bits of a
value being done. -/
def chunkSize (i j n : Int) : Int :=
  min (n - j) (min (8 - j.fmod 8) (8 - i.fmod 8))

end BitSchema.Wire
