import BitSchema.Token

/-!
# Look-ahead

Which tokens may follow what has been read.  A piece of a schema is taken for complete only if the next
token can follow it somewhere; otherwise that token is the mistake, whatever else may be wrong with the
piece.
-/

namespace BitSchema.Lookahead

/-- Tokens that open a statement with a keyword, a comment or an empty line. -/
def opensStatement : Option Token → Bool
  | some t =>
    match t.lexeme with
    | .comment _ => true
    | .newline => true
    | .keyword _ => true
    | _ => false
  | none => false

def opensType : Option Token → Bool
  | some t =>
    match t.lexeme with
    | .boolType => true
    | .byteType => true
    | .uintType _ _ => true
    | .intType _ _ => true
    | .identifier _ => true
    | _ => false
  | none => false

def isOneOf (cs : List Char) : Option Token → Bool
  | some t =>
    match t.lexeme with
    | .symbol c => cs.contains c
    | _ => false
  | none => false

/-- Tokens that may stand in the body of an enum or message where an item may. -/
def inBody (t : Option Token) : Bool :=
  opensStatement t || opensType t || isOneOf ['\x7d'] t

def afterStatement (t : Option Token) : Bool :=
  t.isNone || inBody t

/-- Tokens that may follow a type, or a value that ends a statement. -/
def afterType (t : Option Token) : Bool :=
  afterStatement t || isOneOf [';'] t

def afterTypeReference (t : Option Token) : Bool :=
  afterType t || isOneOf ['['] t

def afterMark (t : Option Token) : Bool :=
  afterType t || isOneOf ['\x7b'] t

def isOperator : Option Token → Bool
  | some t =>
    match t.lexeme with
    | .plus => true
    | .minus => true
    | .times => true
    | .divide => true
    | _ => false
  | none => false

def afterOperand (t : Option Token) : Bool :=
  afterType t || isOperator t || isOneOf [')'] t

def afterConstantReference (t : Option Token) : Bool :=
  afterOperand t || isOneOf [']'] t

end BitSchema.Lookahead
