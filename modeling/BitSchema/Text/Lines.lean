/-!
# Lines of a text

Two readings of line ends.  Files are read with `unifyNewlines`, after which `\n` is the only line
end.  Diagnostics are laid out line by line with `lines`, which knows every line separator of
Unicode and takes `\r\n` as one; a separator at the very end opens no further line.
-/

namespace BitSchema.Text

/-- Replaces `\r\n` and lone `\r` by `\n`. -/
def unifyNewlinesChars : List Char → List Char
  | [] => []
  | '\r' :: '\n' :: r => '\n' :: unifyNewlinesChars r
  | '\r' :: r => '\n' :: unifyNewlinesChars r
  | c :: r => c :: unifyNewlinesChars r

/-- **Reading newlines.** Every line end of the text becomes `\n`. -/
def unifyNewlines (s : String) : String :=
  String.ofList (unifyNewlinesChars s.toList)

def isLineEnd (c : Char) : Bool :=
  [0x0a, 0x0b, 0x0c, 0x0d, 0x1c, 0x1d, 0x1e, 0x85, 0x2028, 0x2029].contains c.toNat

/-- Splits at line ends; `cur` holds the current line's characters in reverse. -/
def linesFrom (cur : List Char) : List Char → List String
  | [] => if cur.isEmpty then [] else [String.ofList cur.reverse]
  | '\r' :: '\n' :: r => String.ofList cur.reverse :: linesFrom [] r
  | c :: r =>
    if isLineEnd c then String.ofList cur.reverse :: linesFrom [] r
    else linesFrom (c :: cur) r

/-- **Lines.** The lines of a text without their ends. -/
def lines (s : String) : List String :=
  linesFrom [] s.toList

end BitSchema.Text
