import BitSchema.Reader.Types

/-!
# Reading statements

Statements that open no scope of their own: comments and line ends, the name of the file, imports,
options, constants, aliases and fields.  A statement may end with a semicolon and takes effect once the
token after it can follow a statement.

Each of these functions reads one statement, its keyword included, and gives back the definition that
was added to the innermost scope, if any.
-/

namespace BitSchema.Reading

open Lookahead

/-- Goes past a semicolon, if there is one, up to a token that may follow. -/
def endStatement (follows : Option Token → Bool) : Reading Unit := do
  if isSymbol ';' (← peek) then advance
  let t ← peek
  if !follows t then unexpected t

/-- Adds a definition to the innermost scope under its own name. -/
def define (d : Def) : Reading (Option Def) := do
  pushMember d d.name
  return some d

def readComment (source : String) (first : Token) : Reading (Option Def) := do
  advance
  let (_, newline) ← expect fun l => if l = .newline then some () else none
  let t ← peek
  if !afterStatement t then unexpected t
  pushComment ⟨source, first.line, (← read).path⟩
  modify fun s => { s with newlinePos := newline.pos }
  return none

/-- The end of a line that holds no comment. -/
def readNewline (first : Token) : Reading (Option Def) := do
  advance
  let t ← peek
  if !afterStatement t then unexpected t
  clearComments
  modify fun s => { s with newlinePos := first.pos }
  return none

def readProto (first : Token) : Reading (Option Def) := do
  advance
  let (name, _) ← expectName
  endStatement afterStatement
  match ← currentScope with
  | .proto h ms =>
    replaceScope (.proto { h with name, comments := ← collectComments } ms)
    return none
  | _ => failAt .nameOutsideSchema "" "" first.line

def readOptionValue : Reading Literal := do
  return (← expect fun
    | .boolLiteral b => some (.bool b)
    | .intLiteral n => some (.int n)
    | .hexLiteral n => some (.int n)
    | .stringLiteral s => some (.str s)
    | _ => none).1

def readOption (first : Token) : Reading (Option Def) := do
  advance
  let (name, named) ← expectName
  let names ← readDotted name
  let _ ← expectSymbol '='
  let value ← readOptionValue
  endStatement afterStatement
  let h ← makeHeader (dotted names) named first
  define (.option h (some value.kind) value)

def readConst (first : Token) : Reading (Option Def) := do
  advance
  let (name, named) ← expectName
  let _ ← expectSymbol '='
  let value ← readConstantValue
  endStatement afterStatement
  let h ← makeHeader name named first
  define (.constant h (some value.kind) value)

def readAlias (first : Token) : Reading (Option Def) := do
  advance
  let (name, named) ← expectName
  let _ ← expectSymbol '='
  let (ty, _) ← readType
  endStatement afterStatement
  let h ← makeHeader name named first
  define (← ofExcept (makeAlias h ty))

/-- An alias with its name at the end, a form that is going out of use. -/
def readTypedef (first : Token) : Reading (Option Def) := do
  advance
  let (ty, _) ← readType
  let (name, named) ← expectName
  endStatement afterStatement
  note ("syntax warning: keyword typedef deprecated, suggestion: type " ++ name ++ " = ...")
  let h ← makeHeader name named first
  define (← ofExcept (makeAlias h ty))

def readEnumField (name : String) (named : Token) : Reading (Option Def) := do
  let _ ← expectSymbol '='
  let (value, _) ← expect fun
    | .intLiteral n => some n
    | .hexLiteral n => some n
    | _ => none
  endStatement inBody
  let h ← makeHeader name named named
  let _ ← define (← ofExcept (makeEnumField h value))
  return none

/-- The rest of a message field whose type, starting with `first`, has been read. -/
def readField (ty : Ty) (first : Token) : Reading (Option Def) := do
  let (name, named) ← expectName
  let _ ← expectSymbol '='
  let (number, _) ← expect fun
    | .intLiteral n => some n
    | _ => none
  endStatement inBody
  let h ← makeHeader name named first
  define (← ofExcept (makeField h ty number))

/-! ### Imports -/

/-- The path of an imported file, seen from this text. -/
def importPath (path : String) : Reading String := do
  let ctx ← read
  if ctx.path.isEmpty then return Path.join ctx.files.cwd path
  else return Path.join (Path.directory ctx.path) path

def isBeingRead (path : String) : Reading Bool := do
  let ctx ← read
  ofExcept (ctx.paths.anyM fun p => ctx.files.same path p)

/-- Whether a path leads to a file that this text has imported. -/
def isImported (path : String) : Reading Bool := do
  let ctx ← read
  let file ← currentFile
  ofExcept ((file.direct .proto).anyM fun m => ctx.files.same m.2.header.origin.file path)

/-- Reads the file at a path as a part of this text. -/
def readChild (path : String) : Reading Def := do
  let ctx ← read
  let s ← get
  let (result, child) := ctx.readImport path (← scopes) s.childStart
  set (s.afterChild child)
  ofExcept result

/-- An import, perhaps under a name of its own. -/
def readImport (first : Token) : Reading (Option Def) := do
  advance
  let (alias?, path, second) ← readTarget
  endStatement afterStatement
  let filepath ← importPath path
  if ← isBeingRead filepath then
    failAt .cyclicImport ("cyclic importing " ++ filepath) path second.line
  if ← isImported filepath then
    failAt .duplicateImport "" filepath first.line
  let child ← readChild filepath
  let name := alias?.getD child.name
  if Members.has (← currentFile).members name then
    failAt .duplicateDefinition "imported proto name already used" name first.line
  pushMember child name
  return some child
where
  /-- The name given to the import, if any, its path, and the first token of both. -/
  readTarget : Reading (Option String × String × Token) := do
    let t ← peek
    match t with
    | none => unexpected none
    | some tok =>
      match tok.lexeme with
      | .stringLiteral path =>
        advance
        return (none, path, tok)
      | .identifier name =>
        advance
        let (path, _) ← expect fun
          | .stringLiteral s => some s
          | _ => none
        return (some name, path, tok)
      | _ => unexpected t

end BitSchema.Reading
