import BitSchema.Fault

/-!
# Tokens of scripts

A *script* is the text of a Python module.  Its tokens are names, reserved words, numerals, quoted texts and
signs, and marks for the ends of lines and for changes of the indentation.  Each token knows the line on
which it stands and how many brackets are open after it.

Tokens are told up to the first place that cannot be read (`Ending`).
-/

namespace BitSchema.Script

inductive TokenKind where
  | name
  /-- A reserved word. -/
  | keyword
  | number
  | text
  | sign
  /-- The end of a line that holds code. -/
  | newline
  | indent
  | dedent
  /-- The end of the script. -/
  | finish
deriving DecidableEq, Repr

/-- **Tokens.** -/
structure Token where
  kind : TokenKind
  /-- The characters of the token. -/
  text : String
  /-- The line on which the token starts. -/
  line : Nat
  /-- The number of brackets that are open after the token. -/
  depth : Nat
deriving DecidableEq, Repr

instance : Inhabited Token := ⟨⟨.finish, "", 0, 0⟩⟩

inductive SourceFlaw where
  /-- The text follows no rule. -/
  | grammar
  /-- A line is indented in a wrong way. -/
  | indentation
  /-- Lines are indented in ways that cannot be compared. -/
  | tabs
deriving DecidableEq, Repr

/-- **Flaws**: what is wrong with a script, and on which line. -/
structure Flaw where
  kind : SourceFlaw
  text : String
  line : Nat
deriving DecidableEq, Repr

inductive Stop where
  /-- A line is indented less than the one before, and like none of those around it. -/
  | unindent
  /-- Tabs and spaces are mixed so that two lines cannot be compared. -/
  | tabs
  /-- Too many lines are indented inside each other. -/
  | tooDeep
  /-- Something follows the backslash at the end of a line. -/
  | continuation
  /-- The script ends inside brackets, or after a backslash. -/
  | unfinished
deriving DecidableEq, Repr

inductive Ending where
  | finished
  /-- At a place that cannot be a token. -/
  | flaw (f : Flaw)
  /-- For a reason that is told only if the script is fine up to there. -/
  | stopped (why : Stop)
deriving DecidableEq, Repr

/-- **The tokens of a script.** -/
structure Tokens where
  list : Array Token
  ending : Ending
  lastLine : Nat
  /-- The innermost bracket that is open where the tokens end, with its line. -/
  bracket : Option (Char × Nat)
deriving Repr

def Flaw.unclosed (bracket : Char × Nat) : Flaw :=
  ⟨.grammar, "'" ++ String.ofList [bracket.1] ++ "' was never closed", bracket.2⟩

def Tokens.endFlaw (t : Tokens) : Flaw :=
  match t.ending with
  | .finished => ⟨.grammar, "unexpected EOF while parsing", t.lastLine⟩
  | .flaw f => f
  | .stopped .unindent =>
    ⟨.indentation, "unindent does not match any outer indentation level", t.lastLine⟩
  | .stopped .tabs => ⟨.tabs, "inconsistent use of tabs and spaces in indentation", t.lastLine⟩
  | .stopped .tooDeep => ⟨.indentation, "too many levels of indentation", t.lastLine⟩
  | .stopped .continuation =>
    ⟨.grammar, "unexpected character after line continuation character", t.lastLine⟩
  | .stopped .unfinished =>
    match t.bracket with
    | some b => .unclosed b
    | none => ⟨.grammar, "unexpected EOF while parsing", t.lastLine⟩

def keywords : List String := [
  "False", "None", "True", "and", "as", "assert", "async", "await", "break", "class", "continue", "def",
  "del", "elif", "else", "except", "finally", "for", "from", "global", "if", "import", "in", "is",
  "lambda", "nonlocal", "not", "or", "pass", "raise", "return", "try", "while", "with", "yield"]

end BitSchema.Script
