import BitSchema.Files
import BitSchema.Schema.Equality
import BitSchema.Schema.Rules
import BitSchema.Token.Lexer

/-!
# The state of reading

A schema text is read token by token with one token of look-ahead.  `State` holds the scopes that are
open, the comments not yet attached to a definition and the tokens to come; `Context` holds what stays
the same while one file is read.

A step of reading may fail, and its state survives the failure: what was written to the user before the
failure stays written, and a session goes on from the state a failed text left behind.
-/

namespace BitSchema

/-- **The paths of the texts being read**, innermost last. -/
structure PathStacks where
  /-- The stack of the reader. -/
  reader : List String := []
  /-- The stack of the scanner; none for an imported file, whose scanner uses that of the reader. -/
  scanner : Option (List String) := some []
deriving DecidableEq, Repr

namespace PathStacks

/-- Puts a path on both stacks, twice if they are the same one. -/
def push (path : String) (ps : PathStacks) : PathStacks :=
  match ps.scanner with
  | some paths => ⟨ps.reader ++ [path], some (paths ++ [path])⟩
  | none => ⟨ps.reader ++ [path, path], none⟩

/-- Takes a path off both stacks. -/
def pop (ps : PathStacks) : PathStacks :=
  match ps.scanner with
  | some paths => ⟨ps.reader.dropLast, some paths.dropLast⟩
  | none => ⟨ps.reader.dropLast.dropLast, none⟩

theorem pop_push (ps : PathStacks) (path : String) : (ps.push path).pop = ps := by
  obtain ⟨reader, _ | paths⟩ := ps <;> simp [push, pop]

end PathStacks

/-- What changes while a text is read. -/
structure State where
  /-- The open scopes of this text, innermost first. -/
  frames : List Def := []
  /-- The scopes above these that a failed import has left open. -/
  left : List Def := []
  paths : PathStacks := {}
  /-- Comments waiting for a definition. -/
  comments : List Comment := []
  /-- The waiting comments are still those of the importing file. -/
  attached : Bool := false
  /-- Comments added for the importing file as well. -/
  lent : List Comment := []
  /-- The position of the last line end. -/
  newlinePos : Nat := 0
  /-- The line reached by the tokens looked at. -/
  line : Nat := 1
  /-- The tokens to come. -/
  rest : List Token := []
  /-- Why no tokens follow those to come, if not because the text ends. -/
  ending : Option Token.Failure := none
  /-- The next serial number. -/
  nextId : Nat := 0
  /-- Lines written to the user. -/
  notes : List String := []
deriving DecidableEq

namespace State

/-- The state in which the text at a path is begun. -/
def begun (path text : String) (s : State) : State :=
  let scan := Token.scan path s.line text
  { s with left := [], paths := s.paths.push path, rest := scan.tokens, ending := scan.failure }

/-- The state behind a text. -/
def ended (s : State) : State :=
  { s with left := [], paths := s.paths.pop }

/-- The state in which an imported file is begun. -/
def childStart (s : State) : State :=
  { paths := ⟨s.paths.reader, none⟩, comments := s.comments, attached := !s.comments.isEmpty
    nextId := s.nextId, notes := s.notes }

/-- The state behind an import, of which the state `child` is left. -/
def afterChild (s child : State) : State :=
  { s with
    left := child.frames
    paths := { s.paths with reader := child.paths.reader }
    comments := s.comments ++ child.lent
    lent := if s.attached then s.lent ++ child.lent else s.lent
    nextId := child.nextId
    notes := child.notes }

end State

/-- What stays the same while a text is read. -/
structure Context where
  files : Files
  /-- Refuse everything extensible. -/
  traditional : Bool
  /-- The path of this text; empty if it is not a file. -/
  path : String
  /-- The paths of the texts being read, outermost first, this one included. -/
  paths : List String
  /-- The open scopes of the importing files, outermost first. -/
  outer : List ScopeRef
  /-- Reads the file at a path that this text imports, given the scopes open here. -/
  readImport : String → List ScopeRef → State → Except Fault Def × State

/-- **A step of reading.** -/
abbrev Reading (α : Type) := ReaderT Context (ExceptT Fault (StateM State)) α

namespace Reading

/-- Takes over the outcome of a check. -/
def ofExcept {α : Type} (x : Except Fault α) : Reading α :=
  match x with
  | .ok a => pure a
  | .error f => throw f

/-! ### Tokens -/

/-- The line reached once a token has been looked at. -/
def lineAfter (t : Token) : Nat :=
  if t.lexeme = .newline then t.line + 1 else t.line

/-- **Look-ahead.** The next token, nothing at the end of the text; fails where the tokens fail. -/
def peek : Reading (Option Token) := do
  let s ← get
  match s.rest with
  | t :: _ =>
    set { s with line := lineAfter t }
    return some t
  | [] =>
    match s.ending with
    | some f =>
      set { s with line := f.line }
      throw f.fault
    | none => return none

/-- Goes past the next token. -/
def advance : Reading Unit :=
  modify fun s => { s with rest := s.rest.drop 1 }

/-- Fails because of a token that cannot stand here, or because the text ends here. -/
def unexpected {α : Type} (t : Option Token) : Reading α := do
  let file := (← read).path
  match t with
  | some t =>
    let token ← ofExcept t.lexeme.shown
    throw (.report { problem := .grammar, file, token, line := t.line })
  | none => throw (.report { problem := .grammar, note := "Grammar error at eof.", file })

/-- Goes past a token of the wanted form. -/
def expect {α : Type} (wanted : Lexeme → Option α) : Reading (α × Token) := do
  match ← peek with
  | some t =>
    match wanted t.lexeme with
    | some a =>
      advance
      return (a, t)
    | none => unexpected (some t)
  | none => unexpected none

/-- Goes past a character that stands for itself. -/
def expectSymbol (c : Char) : Reading Token := do
  return (← expect fun l => if l = .symbol c then some () else none).2

def expectName : Reading (String × Token) :=
  expect fun
    | .identifier n => some n
    | _ => none

def isSymbol (c : Char) (t : Option Token) : Bool :=
  match t with
  | some t => t.lexeme = .symbol c
  | none => false

/-! ### Comments -/

/-- Keeps a comment for the next definition. -/
def pushComment (c : Comment) : Reading Unit :=
  modify fun s =>
    { s with comments := s.comments ++ [c], lent := if s.attached then s.lent ++ [c] else s.lent }

def clearComments : Reading Unit :=
  modify fun s => { s with comments := [], attached := false }

def collectComments : Reading (List Comment) := do
  let cs := (← get).comments
  clearComments
  return cs

/-! ### Scopes -/

def frameRef (d : Def) : ScopeRef :=
  d.scopeRef?.getD ⟨d.id, .proto⟩

/-- The open scopes, outermost first. -/
def scopes : Reading (List ScopeRef) := do
  return (← read).outer ++ (← get).frames.reverse.map frameRef

def currentScope : Reading Def := do
  match (← get).frames with
  | d :: _ => return d
  | [] => throw (.broken (.ofInternal "Empty scope_stack"))

/-- The outermost open scope of this text. -/
def currentFile : Reading Def := do
  match (← get).frames.getLast? with
  | some d => return d
  | none => throw (.broken (.ofInternal "Determining current_proto"))

def openScope (d : Def) : Reading Unit :=
  modify fun s => { s with frames := d :: s.frames }

def closeScope : Reading Def := do
  let d ← currentScope
  modify fun s => { s with frames := s.frames.drop 1 }
  return d

def replaceScope (d : Def) : Reading Unit :=
  modify fun s => { s with frames := d :: s.frames.drop 1 }

/-- Adds a member to the innermost scope under a name. -/
def pushMember (member : Def) (name : String) : Reading Unit := do
  let d ← currentScope
  replaceScope (← ofExcept (d.push member name))

/-- A new serial number. -/
def freshId : Reading Nat := do
  let s ← get
  set { s with nextId := s.nextId + 1 }
  return s.nextId

def indentOf (first : Token) : Reading Int := do
  let n : Int := first.pos - (← get).newlinePos - 1
  return if n < 0 then -1 else n

/-- The header of a definition named by the token `named`, whose first token is `first`.  It takes the
waiting comments. -/
def makeHeader (name : String) (named first : Token) : Reading Header := do
  let file := (← read).path
  return { origin := ⟨name, named.line, file⟩
           id := ← freshId
           name
           scopes := ← scopes
           comments := ← collectComments
           indent := ← indentOf first
           bound := some (← currentFile).id }

/-! ### Look-up -/

/-- The definition a dotted name refers to: the first found from the innermost open scope outwards. -/
def lookup (names : List String) : Reading (Option Def) := do
  return (← get).frames.findSome? fun d => d.member? names

/-- A report about a token of this text. -/
def failAt {α : Type} (problem : Problem) (note token : String) (line : Nat) : Reading α := do
  throw (.report { problem, note, file := (← read).path, token, line })

/-- Writes a line to the user. -/
def note (text : String) : Reading Unit :=
  modify fun s => { s with notes := s.notes ++ [text] }

end Reading

end BitSchema
