import BitSchema.Reader.Statement

/-!
# Reading schemas

`Reader.parse` reads a schema file and everything it imports.  `Reader.readText` reads one text from the
state an earlier one left behind.

A file is a sequence of statements.  Enums and messages have bodies in braces; what may not stand in a
body is read all the same, added, and then reported.

Loops over statements are bounded by the number of tokens, since each statement takes at least one, and
nested imports by the number of files, since no file is read while it is being read.
-/

namespace BitSchema

namespace Reading

open Lookahead

inductive Body where
  | file | enum | message
deriving DecidableEq, Repr

namespace Body

def refuses : Body → Def → Option Fault
  | .file, _ => none
  | .enum, d =>
    match d with
    | .typeAlias h _ => some (.about .aliasInEnum h.origin "")
    | .constant h _ _ => some (.about .constantInEnum h.origin "")
    | .proto h _ => some (.about .importInEnum h.origin "")
    | .option h _ _ => some (.about .optionInEnum h.origin "")
    | .enum h _ _ _ => some (.about .enumInEnum h.origin "")
    | .message h _ _ => some (.about .messageInEnum h.origin "")
    | .field h _ _ => some (.about .fieldInEnum h.origin "")
    | .enumField _ _ => none
  | .message, d =>
    match d with
    | .typeAlias h _ => some (.about .aliasInMessage h.origin "")
    | .constant h _ _ => some (.about .constantInMessage h.origin "")
    | .proto _ _ => some .noFile
    | _ => none

end Body

/-- Refuses a definition that may not stand in the body, if the next token may stand there. -/
def checkPlace (body : Body) (d : Option Def) : Reading Unit := do
  match d.bind body.refuses with
  | some fault =>
    let t ← peek
    if inBody t then throw fault else unexpected t
  | none => return ()

def openEnum (first : Token) : Reading Unit := do
  advance
  let (name, named) ← expectName
  let _ ← expectSymbol ':'
  let ((source, cap), tok) ← expect fun
    | .uintType source cap => some (source, cap)
    | _ => none
  let _ ← expectSymbol '\x7b'
  let t ← peek
  if !inBody t then unexpected t
  let h ← makeHeader name named first
  openScope (.enum { h with frozen := false } ⟨source, tok.line, (← read).path⟩ cap [])

def openMessage (first : Token) : Reading Unit := do
  advance
  let (name, named) ← expectName
  let ext ← readMark
  let _ ← expectSymbol '\x7b'
  let t ← peek
  if !inBody t then unexpected t
  let h ← makeHeader name named first
  openScope (.message { h with frozen := false } ext [])

/-- Closes the body of an enum or message at its closing brace, and adds it to the scope around it. -/
def closeBody : Reading (Option Def) := do
  advance
  let t ← peek
  if !afterStatement t then unexpected t
  let d := (← closeScope).freeze
  ofExcept d.checkClosed
  define d

/-- An item of an enum that starts with a name: a field of the enum, or a misplaced message field. -/
def readNamedItem (name : String) (first : Token) : Reading (Option Def) := do
  advance
  let t ← peek
  if isSymbol '=' t then readEnumField name first
  else if isSymbol '.' t then
    let ty ← readTypeReference name first
    readField (← readArray ty) first
  else
    match t with
    | none => unexpected none
    | some tok =>
      match tok.lexeme with
      | .identifier _ => misplaced
      | .symbol '[' => misplaced
      | _ => unexpected t
where
  /-- A message field whose type is named by a single word. -/
  misplaced : Reading (Option Def) := do
    let ty ← lookupType [name] first
    readField (← readArray ty) first

mutual

/-- **One statement** in a body; gives back what it added to the innermost scope. -/
def readStatement : Nat → Body → Reading (Option Def)
  | 0, _ => throw (.internal "too many statements")
  | fuel + 1, body => do
    let t ← peek
    match t with
    | none => unexpected none
    | some tok =>
      match tok.lexeme with
      | .comment source => readComment source tok
      | .newline => readNewline tok
      | .keyword k =>
        match k with
        | .proto => readProto tok
        | .importFile => readImport tok
        | .option => readOption tok
        | .type => readAlias tok
        | .typedef => readTypedef tok
        | .const => readConst tok
        | .enum => do
          openEnum tok
          readBody fuel .enum
        | .message => do
          openMessage tok
          readBody fuel .message
      | .identifier name =>
        match body with
        | .file => unexpected t
        | .enum => readNamedItem name tok
        | .message => do
          let (ty, first) ← readType
          readField ty first
      | .boolType | .byteType | .uintType _ _ | .intType _ _ =>
        match body with
        | .file => unexpected t
        | _ => do
          let (ty, first) ← readType
          readField ty first
      | _ => unexpected t

/-- The statements of a body up to its closing brace. -/
def readBody : Nat → Body → Reading (Option Def)
  | 0, _ => throw (.internal "too many statements")
  | fuel + 1, body => do
    let t ← peek
    if isSymbol '\x7d' t then closeBody
    else do
      let d ← readStatement fuel body
      checkPlace body d
      readBody fuel body

end

/-- The statements of a file up to the end of its text. -/
def readStatements : Nat → Reading Unit
  | 0 => throw (.internal "too many statements")
  | fuel + 1 => do
    let t ← peek
    if t.isNone then return ()
    else do
      let _ ← readStatement fuel .file
      readStatements fuel

/-- The file whose tokens are to come. -/
def readFile : Reading Def := do
  let t ← peek
  if !(t.isNone || opensStatement t) then unexpected t
  let file := (← read).path
  let id ← freshId
  openScope (.proto { origin := { file }, id, scopes := ← scopes, frozen := false } [])
  readStatements (2 * (← get).rest.length + 2)
  let d ← closeScope
  if d.name.isEmpty then throw (.report { problem := .schemaNameMissing, file })
  return d.freeze

/-- **Reads a text.**  Its path is on the stacks of paths until reading ends.  If it cannot be read, the
scopes stay open that are open where reading stops, here and in a failed import. -/
def readText (text : String) : Reading Def := fun ctx s =>
  match readFile ctx (s.begun ctx.path text) with
  | (.ok d, t) => (.ok d, t.ended)
  | (.error f, t) => (.error f, { t.ended with frames := t.left ++ t.frames })

end Reading

namespace Reader

/-- Reads the file at a path, to be imported by the texts at `paths`, where the scopes `outer` are open.
At most `depth` files are read inside each other. -/
def readPath (files : Files) (traditional : Bool) :
    Nat → List String → String → List ScopeRef → State → Except Fault Def × State
  | 0, _, _, _, s => (.error (.internal "too many files"), s)
  | depth + 1, paths, path, outer, s =>
    match files.read path with
    | .error f => (.error f, s)
    | .ok text =>
      let paths := paths ++ [path]
      let ctx : Context :=
        { files, traditional, path, paths, outer
          readImport := readPath files traditional depth paths }
      ((Reading.readText text).run ctx).run s

/-- What reading a schema gives: the schema or the reason for there being none, and the lines written to
the user. -/
structure Outcome where
  result : Except Fault Def
  notes : List String

/-- **Reading a file** and all that it imports. -/
def parse (files : Files) (path : String) (traditional : Bool) : Outcome :=
  let (result, s) := readPath files traditional (files.reals.length + 1) [] path [] {}
  ⟨result, s.notes⟩

/-- Reads a text that is no file, from the state left behind by an earlier one. -/
def readText (files : Files) (traditional : Bool) (text : String) (s : State) :
    Except Fault Def × State :=
  let ctx : Context :=
    { files, traditional, path := "", paths := [""], outer := []
      readImport := readPath files traditional files.reals.length [""] }
  ((Reading.readText text).run ctx).run s

/-- **Reading a text** that is no file. -/
def parseText (files : Files) (text : String) (traditional : Bool) : Outcome :=
  let (result, s) := readText files traditional text {}
  ⟨result, s.notes⟩

end Reader

end BitSchema
