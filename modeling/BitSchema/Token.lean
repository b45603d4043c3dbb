import BitSchema.Numeral
import BitSchema.Text.Blank

/-!
# Tokens

The words of a schema text.  A `Token` is a `Lexeme`, which says what was read, together with the
slice of the text it was read from, the line on which it starts and its position, counted in
characters from the start of the text.
-/

namespace BitSchema

inductive Keyword where
  | proto | importFile | option | type | const | enum | message | typedef
deriving DecidableEq, Repr

namespace Keyword

def text : Keyword → String
  | .proto => "proto"
  | .importFile => "import"
  | .option => "option"
  | .type => "type"
  | .const => "const"
  | .enum => "enum"
  | .message => "message"
  | .typedef => "typedef"

def all : List Keyword :=
  [.proto, .importFile, .option, .type, .const, .enum, .message, .typedef]

def ofWord? (word : String) : Option Keyword :=
  all.find? fun k => k.text == word

end Keyword

inductive Lexeme where
  | newline
  /-- A comment, from its two slashes to the end of the line. -/
  | comment (source : String)
  | boolType
  | byteType
  /-- An unsigned integer type, as written and its width. -/
  | uintType (source : String) (cap : Nat)
  /-- A signed integer type, as written and its width. -/
  | intType (source : String) (cap : Nat)
  | hexLiteral (value : Nat)
  | intLiteral (value : Nat)
  | boolLiteral (value : Bool)
  | stringLiteral (value : String)
  | identifier (name : String)
  | keyword (word : Keyword)
  | plus | minus | times | divide
  /-- A single character that stands for itself. -/
  | symbol (c : Char)
deriving DecidableEq, Repr

def commentContent (source : String) : String :=
  Text.trim (String.ofList (source.toList.drop 2))

namespace Lexeme

def label : Lexeme → String
  | .newline => "NEWLINE"
  | .comment _ => "COMMENT"
  | .boolType => "BOOL_TYPE"
  | .byteType => "BYTE_TYPE"
  | .uintType _ _ => "UINT_TYPE"
  | .intType _ _ => "INT_TYPE"
  | .hexLiteral _ => "HEX_LITERAL"
  | .intLiteral _ => "INT_LITERAL"
  | .boolLiteral _ => "BOOL_LITERAL"
  | .stringLiteral _ => "STRING_LITERAL"
  | .identifier _ => "IDENTIFIER"
  | .keyword k => k.text.toUpper
  | .plus => "PLUS"
  | .minus => "MINUS"
  | .times => "TIMES"
  | .divide => "DIVIDE"
  | .symbol c => String.singleton c

/-- How a lexeme is named in diagnostics; a number with too many digits cannot be named. -/
def shown : Lexeme → Except Fault String
  | .newline => .ok "\n"
  | .comment source => .ok (commentContent source)
  | .boolType => .ok "<type bool>"
  | .byteType => .ok "<byte>"
  | .uintType _ cap => .ok ("<type uint" ++ toString cap ++ ">")
  | .intType _ cap => .ok ("<type int" ++ toString cap ++ ">")
  | .hexLiteral v => Numeral.ofInt v
  | .intLiteral v => Numeral.ofInt v
  | .boolLiteral v => .ok (if v then "True" else "False")
  | .stringLiteral v => .ok v
  | .identifier n => .ok n
  | .keyword k => .ok k.text
  | .plus => .ok "+"
  | .minus => .ok "-"
  | .times => .ok "*"
  | .divide => .ok "/"
  | .symbol c => .ok (String.singleton c)

end Lexeme

/-- **Tokens.** -/
structure Token where
  lexeme : Lexeme
  /-- The slice of the text that was read. -/
  source : String
  line : Nat
  pos : Nat
deriving DecidableEq, Repr

end BitSchema
