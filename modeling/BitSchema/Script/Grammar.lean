import BitSchema.Script.Token
import Std.Data.HashMap

/-!
# Grammars

A grammar is a list of rules; a rule has alternatives, which are tried in order, and the first one that fits
is taken.  An alternative is a sequence of items:

* a sign or a reserved word in quotes, a class of tokens in capitals, a certain name after `^`, or the name of
  a rule;
* `x?`, `x*`, `x+` for an item that may be there, is there several times, or at least once, and `x,` for
  one that is there at least once, with commas between;
* `( x | y )` for a choice;
* `&x` and `!x` for what must or must not follow, without reading it;
* `~` after which no other alternative is tried;
* `=x` for a sign whose absence is a flaw by itself.

An alternative that fits builds a tree with a label, hands on its only part, or *refuses* the script: such an
alternative describes a mistake and has words for it.  The item that a complaint is about is marked by `@`.
Rules that describe mistakes have names that start with `wrong`; where such a rule is all of an alternative, it
is looked at only once it is known that the script is not in order.

A rule can also *grow*: what has been read is the first part of what its further alternatives build.
-/

namespace BitSchema.Script

/-- **Items.** -/
inductive Item where
  /-- A sign or a reserved word. -/
  | sign (text : String)
  | kind (k : TokenKind)
  /-- A certain name, which is a word of the language in some places. -/
  | word (text : String)
  /-- Any such name. -/
  | soft
  | rule (index : Nat)
  | optional (i : Item)
  | many (i : Item)
  | some (i : Item)
  | listed (i : Item)
  | choice (alternatives : List (List Item))
  | ahead (wanted : Bool) (i : Item)
  | commit
  | forced (text : String)
  | marked (i : Item)

instance : Inhabited Item := ⟨.commit⟩

/-- What a refusal says: its words, in which `%k`, `%n` and `%t` stand for the kind, the line and the text of
the marked item, and whether it is about the place of that item. -/
structure Refusal where
  kind : SourceFlaw := .grammar
  words : String
  there : Bool := true

inductive Action where
  | build (label : String)
  | pass
  | refuse (r : Refusal)
  /-- Looks closer, by the name of the question. -/
  | judge (question : String)

structure Alternative where
  items : List (Item × Bool)
  action : Action
  /-- Whether the alternative is just a rule about mistakes. -/
  wrong : Bool

/-- **Rules.** -/
structure Rule where
  /-- Whether what was read is remembered. -/
  remembered : Bool
  /-- Whether rules about mistakes are left out below the rule. -/
  quiet : Bool
  alternatives : List Alternative
  growth : List Alternative

instance : Inhabited Rule := ⟨⟨false, false, [], []⟩⟩

/-! ### Notation -/

structure Line where
  pattern : String
  action : Action

structure Written where
  name : String
  lines : List Line
  growth : List Line := []
  remembered : Bool := false
  quiet : Bool := false

/-- The signs in front of what is done where a pattern fits; behind `>>` stands what an indented block must follow. -/
def actions : List (String × (String → Action)) := [
  ("->", .build), ("=>", fun words => .refuse { words }), ("=.", fun words => .refuse { words, there := false }),
  ("??", .judge),
  (">>", fun start => .refuse {
    kind := .indentation, there := false
    words := "expected an indented block" ++ if start.isEmpty then "" else " after " ++ start ++ " on line %n" })]

def Line.ofWords (ws : List String) : Line :=
  let pattern := ws.takeWhile fun w => (actions.lookup w).isNone
  let text := " ".intercalate (ws.drop (pattern.length + 1))
  let action := (ws[pattern.length]?).bind fun sign => (actions.lookup sign).map (· text)
  ⟨" ".intercalate pattern, action.getD .pass⟩

def addLine (rules : List Written) (line : String) : List Written :=
  match (line.splitOn " ").filter (· != ""), rules with
  | [], rules => rules
  | word :: ws, rules =>
    if word.endsWith ":" && !word.startsWith "'" then
      { name := String.ofList (word.toList.filter fun c => !(['*', '~', ':'].contains c)), lines := [.ofWords ws]
        remembered := word.toList.contains '*', quiet := word.toList.contains '~' } :: rules
    else match rules with
      | [] => []
      | r :: rules =>
        if word == "+" then { r with growth := r.growth ++ [.ofWords ws] } :: rules
        else { r with lines := r.lines ++ [.ofWords (word :: ws)] } :: rules

/-- **Reads rules**, which have a line for each alternative.  Behind the name of a rule stands `*` if it is remembered
and `~` if it is quiet, and further alternatives with which it grows begin with `+`. -/
def rulesOf (text : String) : List Written := ((text.splitOn "\n").foldl addLine []).reverse

def classWords : List (String × Item) := [
  ("NAME", .kind .name), ("NUMBER", .kind .number), ("TEXT", .kind .text), ("NEWLINE", .kind .newline),
  ("INDENT", .kind .indent), ("DEDENT", .kind .dedent), ("END", .kind .finish), ("SOFT", .soft),
  ("BRACE", .sign "\x7b"), ("UNBRACE", .sign "\x7d"), ("~", .commit)]

def addLead (lead : List Char) (i : Item) : Item :=
  lead.foldr (fun c i =>
    match c, i with
    | '&', i => .ahead true i
    | '!', i => .ahead false i
    | '@', i => .marked i
    | '=', .sign s => .forced s
    | _, i => i) i

def addTail (tail : List Char) (i : Item) : Item :=
  tail.foldl (fun i c =>
    match c with
    | '?' => .optional i
    | '*' => .many i
    | '+' => .some i
    | ',' => .listed i
    | _ => i) i

def isLead (c : Char) : Bool := c = '&' || c = '!' || c = '@' || c = '='

def isTail (c : Char) : Bool := c = '?' || c = '*' || c = '+' || c = ','

def core (index : String → Nat) (cs : List Char) : Item :=
  match cs with
  | '\'' :: r => .sign (String.ofList r.dropLast)
  | '^' :: r => .word (String.ofList r)
  | cs =>
    let s := String.ofList cs
    (classWords.lookup s).getD (.rule (index s))

/-- Groups that are being read: what stands before the group, its alternatives so far, and the items of the
current one, each latest first. -/
abbrev Groups := List (List Char × List (List Item) × List Item)

def addWord (index : String → Nat) (groups : Groups) (word : String) : Groups :=
  let cs := word.toList
  let lead := cs.takeWhile isLead
  let rest := cs.drop lead.length
  let add := fun (i : Item) (groups : Groups) => match groups with
    | (l, alternatives, items) :: r => (l, alternatives, i :: items) :: r
    | [] => []
  match rest, groups with
  | ['('], groups => (lead, [], []) :: groups
  | ['|'], (l, alternatives, items) :: r => (l, items.reverse :: alternatives, []) :: r
  | ')' :: tail, (l, alternatives, items) :: r =>
    add (addLead l (addTail tail (.choice (items.reverse :: alternatives).reverse))) r
  | rest, groups =>
    let quoted := rest.head? = some '\''
    let tail := if quoted then (rest.reverse.takeWhile (· != '\'')).reverse
      else (rest.reverse.takeWhile isTail).reverse
    let body := rest.take (rest.length - tail.length)
    add (addLead lead (addTail tail (core index body))) groups

/-- **Reads an alternative.** -/
def readItems (index : String → Nat) (pattern : String) : List Item :=
  match ((pattern.splitOn " ").filter (· != "")).foldl (addWord index) [([], [], [])] with
  | (_, _, items) :: _ => items.reverse
  | [] => []

mutual

def Item.isPart : Item → Bool
  | .sign _ | .word _ | .soft | .ahead _ _ | .commit | .forced _ => false
  | .kind k => k = .name || k = .number || k = .text
  | .rule _ => true
  | .optional i | .many i | .some i | .listed i | .marked i => i.isPart
  | .choice alternatives => Item.anyPart alternatives

def Item.anyPart : List (List Item) → Bool
  | [] => false
  | items :: r => Item.someParts items || Item.anyPart r

def Item.someParts : List Item → Bool
  | [] => false
  | i :: r => i.isPart || Item.someParts r

end

def Item.isWrong (isWrong : Nat → Bool) : Item → Bool
  | .rule k => isWrong k
  | .marked (.rule k) => isWrong k
  | _ => false

structure Grammar where
  rules : Array Rule
  index : Std.HashMap String Nat

/-- **The grammar of written rules.** -/
def Grammar.ofRules (written : List Written) : Grammar :=
  let index : Std.HashMap String Nat :=
    written.zipIdx.foldl (fun m (w, k) => m.insert w.name k) {}
  let names := (written.map Written.name).toArray
  let wrongRule := fun (k : Nat) => ((names[k]?).map fun n => "wrong".isPrefixOf n).getD false
  let alternative := fun (l : Line) =>
    let items := readItems (fun s => index.getD s written.length) l.pattern
    { items := items.map fun i => (i, i.isPart), action := l.action,
      wrong := items.length = 1 && items.any (Item.isWrong wrongRule) : Alternative }
  let rules := written.map fun w =>
    { remembered := w.remembered || !w.growth.isEmpty, quiet := w.quiet,
      alternatives := w.lines.map alternative, growth := w.growth.map alternative : Rule }
  { rules := rules.toArray, index }

end BitSchema.Script
