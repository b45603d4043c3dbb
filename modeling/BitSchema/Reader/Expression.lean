import BitSchema.Reader.Lookahead
import BitSchema.Reader.State

/-!
# References and calculations

Dotted names, references to constants, and the arithmetic of integer constants.  Operators group from the
left, products before sums; division goes to the floor.  An operation is carried out as soon as its
right operand is complete.
-/

namespace BitSchema.Reading

open Lookahead

/-! ### References -/

/-- The rest of a dotted name whose first part has been read. -/
def readDots : Nat → Reading (List String)
  | 0 => return []
  | fuel + 1 => do
    if isSymbol '.' (← peek) then
      advance
      let (n, _) ← expectName
      return n :: (← readDots fuel)
    else return []

/-- A dotted name whose first part has been read. -/
def readDotted (first : String) : Reading (List String) := do
  return first :: (← readDots (← get).rest.length)

def dotted (names : List String) : String := ".".intercalate names

def lookupConstant (names : List String) (first : Token) : Reading Def := do
  match ← lookup names with
  | none =>
    failAt .constantUnknown ("referenced constant " ++ dotted names ++ " not defined")
      (dotted names) first.line
  | some d =>
    match d with
    | .constant _ _ _ => return d
    | _ =>
      failAt .notConstant "referenced defintion is not a constant" (dotted names) first.line

def readConstant (name : String) (first : Token) : Reading Def := do
  let names ← readDotted name
  let t ← peek
  if afterConstantReference t then lookupConstant names first else unexpected t

def integerOf? : Def → Option Int
  | .constant _ (some .integer) (.int n) => some n
  | _ => none

/-- The value of a constant used in a calculation. -/
def integerOperand (d : Def) (first : Token) : Reading Int :=
  match integerOf? d with
  | some n => return n
  | none =>
    failAt .calculation "Non integer constant referenced to use in calculation expression." d.name
      first.line

/-! ### Calculations -/

inductive Operator where
  | plus | minus | times | divide
deriving DecidableEq, Repr

namespace Operator

def rank : Operator → Nat
  | .plus => 1
  | .minus => 1
  | .times => 2
  | .divide => 2

def of? : Option Token → Option Operator
  | some t =>
    match t.lexeme with
    | .plus => some .plus
    | .minus => some .minus
    | .times => some .times
    | .divide => some .divide
    | _ => none
  | none => none

/-- **Arithmetic.** Division by zero has no value. -/
def apply : Operator → Int → Int → Except Fault Int
  | .plus, a, b => .ok (a + b)
  | .minus, a, b => .ok (a - b)
  | .times, a, b => .ok (a * b)
  | .divide, a, b => if b = 0 then .error .divisionByZero else .ok (a.fdiv b)

end Operator

mutual

/-- An operand: a number, a reference to an integer constant, or a calculation in parentheses. -/
def readOperand : Nat → Reading Int
  | 0 => unexpected none
  | fuel + 1 => do
    let t ← peek
    match t with
    | none => unexpected none
    | some tok =>
      match tok.lexeme with
      | .intLiteral n =>
        advance
        return n
      | .hexLiteral n =>
        advance
        return n
      | .identifier name =>
        advance
        let d ← readConstant name tok
        let t ← peek
        if afterOperand t then integerOperand d tok else unexpected t
      | .symbol c =>
        if c = '(' then
          advance
          let v ← readOperand fuel
          let v ← readOperations fuel 1 v
          let _ ← expectSymbol ')'
          return v
        else unexpected t
      | _ => unexpected t

/-- The operations of rank at least `rank` that follow the operand `left`, and their result. -/
def readOperations : Nat → Nat → Int → Reading Int
  | 0, _, left => return left
  | fuel + 1, rank, left => do
    match Operator.of? (← peek) with
    | some op =>
      if rank ≤ op.rank then
        advance
        let right ← readOperand fuel
        let right ← readOperations fuel (op.rank + 1) right
        let t ← peek
        if afterOperand t then
          let v ← ofExcept (op.apply left right)
          readOperations fuel rank v
        else unexpected t
      else return left
    | none => return left

end

def readCalculation : Reading Int := do
  let fuel := (← get).rest.length + 1
  let v ← readOperand fuel
  readOperations fuel 1 v

/-- The value of a constant: a truth value, a text, another constant or a calculation. -/
def readConstantValue : Reading Literal := do
  let t ← peek
  match t with
  | none => unexpected none
  | some tok =>
    match tok.lexeme with
    | .boolLiteral b =>
      advance
      return .bool b
    | .stringLiteral s =>
      advance
      return .str s
    | .identifier name =>
      advance
      let d ← readConstant name tok
      let t ← peek
      if isOperator t then
        let n ← integerOperand d tok
        return .int (← readOperations ((← get).rest.length + 1) 1 n)
      else if afterType t then return (d.literal?).getD (.int 0)
      else unexpected t
    | _ => return .int (← readCalculation)

end BitSchema.Reading
