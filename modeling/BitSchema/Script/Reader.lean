import BitSchema.Script.Grammar.Expressions
import BitSchema.Script.Grammar.Mistakes
import BitSchema.Script.Grammar.Statements
import BitSchema.Script.Lexer
import BitSchema.Script.Texts

/-!
# Reading scripts

`Script.read` reads the text of a script into a tree, or tells what is wrong with it.
-/

namespace BitSchema.Script

def grammar : Grammar :=
  Grammar.ofRules (lineRules ++ blockRules ++ matchRules ++ operatorRules ++ primaryRules ++ targetRules ++ parameterRules "def" ")" ++
    parameterRules "lambda" ":" ++ parameterRulesApart ++ expressionMistakes ++ statementMistakes)

/-! ### Looking closer -/

def kindWords : List (String × String) := [
  ("tuple in brackets", "tuple"), ("call", "function call"), ("call with", "function call"),
  ("generator", "generator expression"), ("yield", "yield expression"),
  ("yield from", "yield expression"), ("await", "await expression"), ("dict", "dict literal"),
  ("set", "set display"), ("joined", "f-string expression"), ("text", "literal"), ("bytes", "literal"),
  ("numeral", "literal"), ("none", "None"), ("true", "True"), ("false", "False"),
  ("compare", "comparison"), ("conditional", "conditional expression"), ("walrus", "named expression"),
  ("or", "expression"), ("and", "expression"), ("not", "expression"), ("plus", "expression"),
  ("minus", "expression"), ("invert", "expression"), ("|", "expression"), ("^", "expression"),
  ("&", "expression"), ("<<", "expression"), (">>", "expression"), ("+", "expression"),
  ("-", "expression"), ("*", "expression"), ("/", "expression"), ("//", "expression"),
  ("%", "expression"), ("@", "expression"), ("**", "expression")]

def kindOf (t : Tree) : String := (kindWords.lookup t.label).getD t.label

mutual

/-- The things in a tree, without the bundles they stand in. -/
def Tree.things : Tree → List Tree
  | .token t => [.token t]
  | .node label line parts =>
    if label == "" || label == "?" || label == "many" then thingsIn parts else [.node label line parts]

def thingsIn : List Tree → List Tree
  | [] => []
  | t :: r => t.things ++ thingsIn r

end

def Tree.elements (t : Tree) : List Tree := thingsIn t.parts

inductive TargetUse where
  | assigned | looped | deleted
deriving DecidableEq

/-- The part of an expression that cannot be a target; containers are searched `fuel` levels deep. -/
def notTarget? (use : TargetUse) : Nat → Tree → Option Tree
  | 0, _ => none
  | fuel + 1, t =>
    match t.label with
    | "list" | "tuple" | "tuple in brackets" => t.elements.findSome? (notTarget? use fuel)
    | "starred" =>
      if use = .deleted then some t else (t.elements.head?).bind (notTarget? use fuel)
    | "compare" =>
      if use = .looped then
        match t.elements with
        | left :: op :: _ => if op.label == "in" then notTarget? use fuel left else none
        | _ => none
      else some t
    | "name" | "subscript" | "attribute" => none
    | _ => some t

/-- Refuses an expression with a part that cannot be a target. -/
def checkTarget (use : TargetUse) (t : Tree) : Except Flaw Unit :=
  match notTarget? use 200 t with
  | none => .ok ()
  | some bad =>
    let verb := if use = .deleted then "cannot delete " else "cannot assign to "
    .error ⟨.grammar, verb ++ kindOf bad, bad.line⟩

/-- The arguments of a call without names. -/
def plainArguments (args : Tree) : List Tree :=
  args.elements.flatMap fun t =>
    if t.label == "kwargs" then t.elements.filter fun k => k.label == "starred" else [t]

/-- Whether one of the arguments of a call is a spread of named ones. -/
def hasSpread (args : Tree) : Bool :=
  args.elements.any fun t => t.label == "kwargs" && t.elements.any fun k => k.label == "spread"

def legacyWords : List String := ["print", "exec"]

/-- Whether a tree is the name of a former statement. -/
def isLegacy (t : Tree) : Bool :=
  match t with
  | .token t => legacyWords.contains t.text
  | .node label _ parts => label == "name" && parts.any fun p => legacyWords.contains p.label

/-- Looks closer at what may be a mistake. -/
def judge (question : String) (marked : Tree) (last : Token) (lastLine : Nat) : Except Flaw Unit :=
  let refuse := fun (text : String) (line : Nat) => Except.error ⟨SourceFlaw.grammar, text, line⟩
  match question with
  | "target" => checkTarget .assigned marked
  | "loop target" => checkTarget .looped marked
  | "deleted" => checkTarget .deleted marked
  | "bare generator" =>
    match (plainArguments marked).reverse with
    | a :: _ :: _ => refuse "Generator expression must be parenthesized" a.line
    | _ => .ok ()
  | "argument order" =>
    if hasSpread marked then refuse "positional argument follows keyword argument unpacking" lastLine
    else refuse "positional argument follows keyword argument" lastLine
  | "legacy" =>
    if isLegacy marked then
      refuse ("Missing parentheses in call to '" ++ marked.label ++ "'. Did you mean " ++ marked.label ++
        "(...)?") marked.line
    else .ok ()
  | "comma" =>
    if isLegacy marked || last.depth = 0 then .ok ()
    else refuse "invalid syntax. Perhaps you forgot a comma?" marked.line
  | _ => .ok ()

/-! ### Literals -/

/-- The most digits of a decimal numeral. -/
def maxDigits : Nat := 4300

def checkNumeral (lead : String) (t : Tree) : Except Flaw Tree :=
  let s := (t.parts.head?.getD default).label
  let digits := s.toList.filter (· != '_')
  if digits.all Char.isDigit && digits.length > maxDigits then
    .error ⟨.grammar, lead ++ "Exceeds the limit (" ++ toString maxDigits ++
      " digits) for integer string conversion: value has " ++ toString digits.length ++
      " digits; use sys.set_int_max_str_digits() to increase the limit" ++
      " - Consider hexadecimal for huge integer literals to avoid decimal conversion limits.", t.line⟩
  else .ok t

def tokensOf (ts : List Tree) : List Token :=
  ts.filterMap fun t => match t with
    | .token t => some t
    | .node _ _ _ => none

/-- What stands before complaints about the expression of a field. -/
def fieldLead : String := "f-string: "

/-- How to look closer; fields may stand in fields `depth` times. -/
def judgement : Nat → String → Reading.Judgement
  | 0, _ => { judge := fun _ _ _ _ _ => .ok (), settle := fun _ t _ => .ok t, kindOf }
  | depth + 1, lead => {
      judge := fun question marked _ last lastLine => judge question marked last lastLine
      settle := fun label t lastLine =>
        match label with
        | "texts" =>
          let expression := fun (line : Nat) (e : List Char) =>
            ({ grammar, tokens := tokensAfter (line - 1) e, judgement := judgement depth fieldLead,
               lead := fieldLead : Reading.Setting }).run "star_expressions"
          Texts.read { lead, lastLine, expression } t.line (tokensOf t.elements)
        | "numeral" => checkNumeral lead t
        | _ => .ok t
      kindOf }

def maxFieldDepth : Nat := 100

/-- **Reads a script.** -/
def read (s : String) : Except Flaw Tree :=
  ({ grammar, tokens := tokens s, judgement := judgement maxFieldDepth "", lead := "" : Reading.Setting }).run
    "file"

end BitSchema.Script
