import BitSchema.Fault
import BitSchema.Schema.Basic

/-!
# Sizes

`Ty.nbits` is the number of bits a value of a type takes on the wire: the width of a base type or
enum, the elements of an array, the fields of a message, and `aheadBits` more for an extensible
array or message.

`nbytes` is the size in bytes.  The quotient by eight is rounded to 53 binary digits, a half to the
even neighbour, before it is cut to an integer, so sizes beyond `2 ^ 53` are rounded; a quotient of
`2 ^ 1024` or more is not representable.
-/

namespace BitSchema

/-- The bits in front of an extensible array or message. -/
def aheadBits : Nat := 16

mutual

/-- **Size of a type in bits.** -/
def Ty.nbits : Ty → Nat
  | .unknown _ _ => 0
  | .bool _ => 1
  | .byte _ => 8
  | .uint _ cap => cap
  | .int _ cap => cap
  | .array _ element cap ext => (if ext then aheadBits else 0) + cap * element.nbits
  | .named d => d.nbits

/-- The size of a defined type in bits; nothing for other definitions. -/
def Def.nbits : Def → Nat
  | .typeAlias _ target => target.nbits
  | .enum _ _ cap _ => cap
  | .message _ ext ms => (if ext then aheadBits else 0) + fieldBits ms
  | _ => 0

/-- The bits of all fields among the members of a message. -/
def fieldBits : List (String × Def) → Nat
  | [] => 0
  | (_, d) :: r => d.payloadBits + fieldBits r

/-- The bits a member of a message takes: those of its type for a field. -/
def Def.payloadBits : Def → Nat
  | .field _ ty _ => ty.nbits
  | _ => 0

end

mutual

/-- A type is sized if no part of it is unknown. -/
def Ty.sized : Ty → Bool
  | .unknown _ _ => false
  | .array _ element _ _ => element.sized
  | .named d => d.sized
  | _ => true

/-- A defined type is sized if no part of it is unknown. -/
def Def.sized : Def → Bool
  | .typeAlias _ target => target.sized
  | .message _ _ ms => fieldsSized ms
  | .enum _ _ _ _ => true
  | _ => false

/-- All fields among the members are of sized types. -/
def fieldsSized : List (String × Def) → Bool
  | [] => true
  | (_, d) :: r => d.payloadSized && fieldsSized r

def Def.payloadSized : Def → Bool
  | .field _ ty _ => ty.sized
  | _ => true

end

def Ty.size (t : Ty) : Except Fault Nat :=
  if t.sized then .ok t.nbits else .error .notImplemented

/-- The bits that say how long a value is, in front of values of extensible types.  Enums have a
width for them too, although no enum is extensible. -/
def Ty.lengthBits : Ty → Except Fault Nat
  | .array _ _ _ _ => .ok aheadBits
  | .named (.message _ _ _) => .ok aheadBits
  | .named (.enum _ _ _ _) => .ok 8
  | _ => .error .notImplemented

/-! ### Bytes -/

/-- The number of binary digits. -/
def bitLength (n : Nat) : Nat :=
  if n = 0 then 0 else n.log2 + 1

/-- Rounds to `digits` binary digits, a half to the even neighbour. -/
def roundBinary (digits n : Nat) : Nat :=
  let drop := bitLength n - digits
  let unit := Nat.pow 2 drop
  let q := n / unit
  let r := n % unit
  if 2 * r > unit || (2 * r == unit && q % 2 == 1) then (q + 1) * unit else q * unit

/-- The integer part of an eighth of `n`, computed with 53 binary digits. -/
def eighth (n : Nat) : Nat := roundBinary 53 n / 8

/-- **Size in bytes** of something of `n` bits. -/
def bytesOfBits (n : Nat) : Except Fault Nat :=
  if roundBinary 53 n ≥ Nat.pow 2 1027 then .error .quotientTooLarge
  else .ok (eighth n + if n % 8 = 0 then 0 else 1)

/-- The integer part of an eighth of an integer, towards zero, computed with 53 binary digits. -/
def intEighth (n : Int) : Except Fault Int :=
  if roundBinary 53 n.natAbs ≥ Nat.pow 2 1027 then .error .quotientTooLarge
  else .ok (n.sign * eighth n.natAbs)

/-- The size in bytes of something with an integer for its size in bits. -/
def bytesOfInt (n : Int) : Except Fault Int := do
  return (← intEighth n) + if n % 8 = 0 then 0 else 1

/-- The size of a type in bytes. -/
def Ty.nbytes (t : Ty) : Except Fault Nat := bytesOfBits t.nbits

/-- The size of a defined type in bytes. -/
def Def.nbytes (d : Def) : Except Fault Nat := bytesOfBits d.nbits

/-- Up to 53 binary digits nothing is rounded. -/
theorem roundBinary_eq {digits n : Nat} (h : bitLength n ≤ digits) : roundBinary digits n = n := by
  simp [roundBinary, Nat.sub_eq_zero_of_le h, Nat.mod_one]

end BitSchema
