import BitSchema.Target

/-!
# Arguments of the command

The command is called with a language, a schema file and a directory, of which only the file is needed,
and with flags among them.

* A flag has a short and a long form.  A long form may be cut short as long as it is clear which flag is
  meant.  Short forms can share one word, as in `-cq`.
* A flag that takes a value takes the next word, or what follows in its own word.
* After `--` no word is a flag.  A further `--` stands for nothing: no directory, no filter, and no file.
* The words that are no flags stand together.  Those after the first group of them are not recognised.

Reading goes in three steps: each argument becomes a `Word`, words that belong together become an `Item`,
and the items are worked off one after the other (`settle`), so that the first mistake is the one that
is told.
-/

namespace BitSchema.Command

inductive Flag where
  | help | check | noLint | optimize | filter | version
deriving DecidableEq, Repr

namespace Flag

def all : List Flag := [.help, .check, .noLint, .optimize, .filter, .version]

def letter : Flag → Char
  | .help => 'h'
  | .check => 'c'
  | .noLint => 'q'
  | .optimize => 'O'
  | .filter => 'F'
  | .version => 'v'

def short (f : Flag) : String := String.ofList ['-', f.letter]

def long : Flag → String
  | .help => "--help"
  | .check => "--check"
  | .noLint => "--disable-lint"
  | .optimize => "--optimize"
  | .filter => "--filter-messages"
  | .version => "--version"

def takesValue (f : Flag) : Bool := f = .filter

def ofLetter? (c : Char) : Option Flag := all.find? fun f => f.letter == c

def ofLong? (s : String) : Option Flag := all.find? fun f => f.long == s

def mistake (f : Flag) (text : String) : String :=
  "argument " ++ f.short ++ "/" ++ f.long ++ ": " ++ text

def refuse (f : Flag) (value : List Char) : String :=
  f.mistake ("ignored explicit argument " ++ Text.quote (String.ofList value))

end Flag

/-! ### Words -/

/-- **Words.** -/
inductive Word where
  | plain (text : String)
  /-- The two dashes after which no word is a flag. -/
  | divider
  /-- A flag in short or long form and what is attached to it. -/
  | flag (f : Flag) (short : Bool) (attached : Option (List Char))
  /-- A word that looks like a flag and is none. -/
  | unknown (text : String)
deriving DecidableEq, Repr

inductive Stop where
  | help
  | version
  | misuse (message : String)
deriving DecidableEq, Repr

namespace Word

def isNumber (cs : List Char) : Bool :=
  let whole := cs.takeWhile Text.isDecimalDigit
  match cs.dropWhile Text.isDecimalDigit with
  | [] => !whole.isEmpty
  | '.' :: part => !part.isEmpty && part.all Text.isDecimalDigit
  | _ => false

def isNegative : List Char → Bool
  | '-' :: r => isNumber r || (r.getLast? == some '\n' && isNumber r.dropLast)
  | _ => false

def cut (cs : List Char) : String × Option (List Char) :=
  (String.ofList (cs.takeWhile (· != '=')), (cs.dropWhile (· != '=')).tail?)

/-- A word in long form.  The form may be cut short, and a form that is spelled out is meant. -/
def ofLong? (s : String) : Except Stop (Option Word) :=
  let (form, attached) := cut s.toList
  match Flag.ofLong? form with
  | some f => .ok (some (.flag f false attached))
  | none =>
    match Flag.all.filter fun f => form.isPrefixOf f.long with
    | [] => .ok none
    | [f] => .ok (some (.flag f false attached))
    | fs =>
      .error (.misuse ("ambiguous option: " ++ s ++ " could match " ++
        ", ".intercalate (fs.map Flag.long)))

def ofShort? (c : Char) (rest : List Char) : Option Word := do
  let f ← Flag.ofLetter? c
  return .flag f true <|
    match rest with
    | [] => none
    | '=' :: r => some r
    | r => some r

/-- **One argument.** -/
def ofArgument (s : String) : Except Stop Word := do
  let flag? ← match s.toList with
    | '-' :: '-' :: _ => ofLong? s
    | '-' :: c :: rest => pure (ofShort? c rest)
    | _ => pure (some (.plain s))
  match flag? with
  | some w => return w
  | none => return if isNegative s.toList || s.toList.contains ' ' then .plain s else .unknown s

/-- **All arguments.** -/
def ofArguments : List String → Except Stop (List Word)
  | [] => .ok []
  | s :: r =>
    if s = "--" then .ok (.divider :: r.map .plain)
    else do return (← ofArgument s) :: (← ofArguments r)

def text : Word → String
  | .plain s => s
  | .divider => "--"
  | .flag f short _ => if short then f.short else f.long
  | .unknown s => s

end Word

/-! ### Items -/

/-- **Items.** Words that belong together. -/
inductive Item where
  /-- Words that are no flags. -/
  | group (words : List Word)
  /-- The flags of one word, each with its value. -/
  | flags (uses : List (Flag × Option String))
  | unknown (text : String)
  | mistake (message : String)
deriving DecidableEq, Repr

/-- The flags of a word to which something is attached: it is the flag's value, or holds the letters of
further flags if the flag is in short form and takes none. -/
def spread : List Char → Flag → Bool → Except String (List (Flag × Option String))
  | [], f, _ => if f.takesValue then .ok [(f, some "")] else .error (f.refuse [])
  | c :: rest, f, short =>
    if f.takesValue then .ok [(f, some (String.ofList (c :: rest)))]
    else
      match if short then Flag.ofLetter? c else none with
      | none => .error (f.refuse (c :: rest))
      | some g =>
        if rest.isEmpty then .ok [(f, none), (g, none)]
        else do return (f, none) :: (← spread rest g true)

def waiting? (uses : List (Flag × Option String)) : Option Flag :=
  match uses.getLast? with
  | some (f, none) => if f.takesValue then some f else none
  | _ => none

def joinGroup (w : Word) : List Item → List Item
  | .group ws :: r => .group (w :: ws) :: r
  | r => .group [w] :: r

def Word.uses? : Word → Option (Except String (List (Flag × Option String)))
  | .flag f _ none => some (.ok [(f, none)])
  | .flag f short (some attached) => some (spread attached f short)
  | _ => none

/-- **Grouping.** A flag that waits for a value takes the next word. -/
def items : List Word → List Item
  | [] => []
  | .unknown s :: r => .unknown s :: items r
  | w :: r =>
    match w.uses? with
    | none => joinGroup w (items r)
    | some (.error m) => [.mistake m]
    | some (.ok uses) =>
      match waiting? uses with
      | none => .flags uses :: items r
      | some f =>
        match r with
        | .plain v :: r => .flags (uses.dropLast ++ [(f, some v)]) :: items r
        | _ => [.mistake (f.mistake "expected one argument")]

/-! ### Settings -/

/-- **Settings.** What the arguments say. -/
structure Settings where
  language : Option String := none
  /-- The word for the file, if it was met, and what it means. -/
  file : Option (Option String) := none
  outdir : Option String := none
  check : Bool := false
  noLint : Bool := false
  optimize : Bool := false
  filter : Option String := none
  /-- The first group of words has been met. -/
  placed : Bool := false
  /-- What has not been recognised. -/
  extras : List String := []
deriving DecidableEq, Repr

namespace Settings

def meant (value : Option String) : Option String :=
  value.filter (· != "--")

def use (s : Settings) : Flag × Option String → Except Stop Settings
  | (.help, _) => .error .help
  | (.version, _) => .error .version
  | (.check, _) => .ok { s with check := true }
  | (.noLint, _) => .ok { s with noLint := true }
  | (.optimize, _) => .ok { s with optimize := true }
  | (.filter, v) => .ok { s with filter := meant v }

def checkLanguage (l : String) : Except Stop Unit :=
  if languages.contains l then .ok ()
  else .error (.misuse ("argument lang: invalid choice: " ++ Text.quote l ++ " (choose from " ++
    ", ".intercalate (languages.map Text.quote) ++ ")"))

/-- What a group holds beyond its first `n` plain words and the dividers around them. -/
def beyond : Nat → List Word → List Word
  | 0, ws => ws.dropWhile (· = .divider)
  | _ + 1, [] => []
  | n + 1, .plain _ :: r => beyond n r
  | n + 1, _ :: r => beyond (n + 1) r

/-- **A group of words**: the file; the language and the file; or these two and the directory. -/
def place (s : Settings) (words : List Word) : Except Stop Settings := do
  if s.placed then return { s with extras := s.extras ++ words.map Word.text }
  match (words.filter (· ≠ .divider)).map Word.text with
  | [] => return s
  | [file] => return { s with file := some (meant file), placed := true }
  | language :: file :: more =>
    checkLanguage language
    return { s with
      language := some language, file := some (meant file), outdir := meant more.head?, placed := true
      extras := s.extras ++ (beyond 3 words).map Word.text }

def settle (s : Settings) : Item → Except Stop Settings
  | .group words => s.place words
  | .flags uses => uses.foldlM Settings.use s
  | .unknown text => .ok { s with extras := s.extras ++ [text] }
  | .mistake message => .error (.misuse message)

/-- **Reading the arguments.** There must be a file, and nothing that is not recognised. -/
def ofArguments (args : List String) : Except Stop (Settings × Option String) := do
  let words ← Word.ofArguments args
  let s ← (items words).foldlM Settings.settle {}
  match s.file with
  | none => throw (.misuse "the following arguments are required: file")
  | some file =>
    if s.extras.isEmpty then return (s, file)
    else throw (.misuse ("unrecognized arguments: " ++ " ".intercalate s.extras))

end Settings

end BitSchema.Command
