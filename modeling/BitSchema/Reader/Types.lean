import BitSchema.Reader.Expression

/-!
# Reading types

A type is a base type or a reference to a defined type, perhaps followed by the capacity of an array in
brackets and the mark of an extensible array.
-/

namespace BitSchema.Reading

open Lookahead

def lookupType (names : List String) (first : Token) : Reading Ty := do
  match ← lookup names with
  | none =>
    failAt .typeUnknown ("referenced type " ++ dotted names ++ " not defined") (dotted names)
      first.line
  | some d =>
    if d.isType then return .named d
    else failAt .notType "referenced defintion is not a type" (dotted names) first.line

def readTypeReference (name : String) (first : Token) : Reading Ty := do
  let names ← readDotted name
  let t ← peek
  if afterTypeReference t then lookupType names first else unexpected t

def baseType? (file : String) (t : Token) : Option Ty :=
  match t.lexeme with
  | .boolType => some (.bool ⟨t.source, t.line, file⟩)
  | .byteType => some (.byte ⟨t.source, t.line, file⟩)
  | .uintType source cap => some (.uint ⟨source, t.line, file⟩ cap)
  | .intType source cap => some (.int ⟨source, t.line, file⟩ cap)
  | _ => none

/-- A base type or a reference to a defined type, and its first token. -/
def readSingleType : Reading (Ty × Token) := do
  let t ← peek
  match t with
  | none => unexpected none
  | some tok =>
    match baseType? (← read).path tok with
    | some ty =>
      advance
      return (ty, tok)
    | none =>
      match tok.lexeme with
      | .identifier name =>
        advance
        return (← readTypeReference name tok, tok)
      | _ => unexpected t

/-- The capacity of an array: a number or an integer constant. -/
def readCapacity : Reading Int := do
  let t ← peek
  match t with
  | none => unexpected none
  | some tok =>
    match tok.lexeme with
    | .intLiteral n =>
      advance
      return n
    | .identifier name =>
      advance
      let d ← readConstant name tok
      match integerOf? d with
      | some n => return n
      | none =>
        failAt .arrayCapacity "Non integer constant referenced to use as array capacity." d.name
          tok.line
    | _ => unexpected t

/-- The mark of what is extensible, refused in traditional mode. -/
def readMark : Reading Bool := do
  let t ← peek
  match t with
  | some tok =>
    if tok.lexeme = .symbol '\'' then
      advance
      let t ← peek
      if !afterMark t then unexpected t
      else if (← read).traditional then failAt .extensibleInTraditional "" "'" tok.line
      else return true
    else return false
  | none => return false

/-- What may follow a single type: the capacity that makes it an array. -/
def readArray (element : Ty) : Reading Ty := do
  let t ← peek
  match t with
  | some tok =>
    if tok.lexeme = .symbol '[' then
      advance
      let cap ← readCapacity
      let _ ← expectSymbol ']'
      let ext ← readMark
      let t ← peek
      if afterType t then
        let token := element.shown ++ "[" ++ (← ofExcept (Numeral.ofInt cap)) ++ "]"
        ofExcept (makeArray ⟨token, tok.line, (← read).path⟩ element cap ext)
      else unexpected t
    else return element
  | none => return element

def readType : Reading (Ty × Token) := do
  let (ty, first) ← readSingleType
  return (← readArray ty, first)

end BitSchema.Reading
