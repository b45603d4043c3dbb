import BitSchema.Text.Blank
import BitSchema.Text.Digit
import BitSchema.Text.Letters

/-!
# Naming cases

Definitions are written in snake, upper or pascal case in the languages a schema is turned into,
and the linter asks for such names.  Names of a schema are ASCII; what an option puts in front of them
need not be.

* `upperCase` turns every letter into a capital.
* `pascalCase` drops underscores and starts each part with a capital; when there is an underscore
  the rest of each part becomes small as well (`titleCase`).
* `snakeCase` cuts a name before each run of capitals and digits, keeps the last capital of a run
  with the small letters that follow it, joins the pieces with underscores, except before a piece of
  digits, and makes all letters small.
-/

namespace BitSchema.Text

def splitUnderscores : List Char → List (List Char)
  | [] => [[]]
  | c :: r =>
    if c == '_' then [] :: splitUnderscores r
    else
      match splitUnderscores r with
      | [] => [[c]]
      | p :: ps => (c :: p) :: ps

def capitalize : List Char → List Char
  | [] => []
  | c :: r => capital c ++ r

def pascalChars (cs : List Char) : List Char :=
  match splitUnderscores cs with
  | [p] => capitalize p
  | ps => ps.flatMap titleCase

/-- Capitals and digits open a piece of a snake case name. -/
def isHead (c : Char) : Bool := c.isUpper || c.isDigit

/-- Cuts a word without underscores before each run of heads, runs kept whole. -/
def cutAtHeads : List Char → List (List Char)
  | [] => []
  | c :: r =>
    match cutAtHeads r with
    | [] => [[c]]
    | p :: ps =>
      match p with
      | [] => [c] :: ps
      | d :: _ => if isHead d && !isHead c then [c] :: p :: ps else (c :: p) :: ps

/-- Splits a run of at least two heads that is followed by something else before its last head. -/
def cutLastHead (p : List Char) : List (List Char) :=
  let heads := p.takeWhile isHead
  let tail := p.dropWhile isHead
  if heads.length ≥ 2 && !tail.isEmpty then
    [heads.dropLast, heads.drop (heads.length - 1) ++ tail]
  else [p]

def snakePieces (cs : List Char) : List (List Char) :=
  (splitUnderscores cs).flatMap fun w => (cutAtHeads w).flatMap cutLastHead

def joinPieces (ps : List (List Char)) : List Char :=
  ps.flatMap fun p => if p.all isAnyDigit then p else '_' :: p

def snakeChars (cs : List Char) : List Char :=
  smalls (trimWhile (· == '_') (joinPieces (snakePieces cs)))

/-- **Pascal case.** -/
def pascalCase (s : String) : String := String.ofList (pascalChars s.toList)

/-- **Snake case.** -/
def snakeCase (s : String) : String := String.ofList (snakeChars s.toList)

/-- **Upper case.** -/
def upperCase (s : String) : String := String.ofList (capitals s.toList)

/-- **Written in capitals.** There is a letter, and no letter is small. -/
def isUpperCase (s : String) : Bool :=
  s.toList.any Char.isUpper && !s.toList.any Char.isLower

inductive CaseStyle where
  | keep | snake | upper | pascal
deriving DecidableEq, Repr

namespace CaseStyle

def ofName (name : String) : CaseStyle :=
  if name = "snake" then .snake
  else if name = "upper" then .upper
  else if name = "pascal" then .pascal
  else .keep

def apply : CaseStyle → String → String
  | .keep, s => s
  | .snake, s => snakeCase s
  | .upper, s => upperCase s
  | .pascal, s => pascalCase s

end CaseStyle

end BitSchema.Text
