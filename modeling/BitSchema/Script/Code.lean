import BitSchema.Script.Reader

/-!
# Code

What the tree of a script means: expressions and statements.  `Code.ofTree` gives the statements of a script.
Parts of the language that only matter to programs which wait for something, or which match patterns, are kept
by name (`Expr.other`, `Stmt.other`); they are not carried out.
-/

namespace BitSchema.Script

inductive BinaryOp where
  | add | sub | mul | div | floorDiv | mod | pow | matMul | shiftLeft | shiftRight | bitOr | bitXor | bitAnd
deriving DecidableEq, Repr

inductive UnaryOp where
  | plus | minus | invert | not
deriving DecidableEq, Repr

inductive CompareOp where
  | eq | ne | lt | le | gt | ge | within | notWithin | same | notSame
deriving DecidableEq, Repr

inductive ParamKind where
  /-- Told by its place only. -/
  | placed
  | plain
  /-- Takes all further arguments without a name. -/
  | rest
  /-- Told by its name only. -/
  | named
  /-- Takes all further arguments with a name. -/
  | namedRest
deriving DecidableEq, Repr

structure Parameter (α : Type) where
  kind : ParamKind
  name : String
  line : Nat
  annotation : Option α
  fallback : Option α

inductive Gathering where
  | list | set | dict | generator
deriving DecidableEq, Repr

/-- **Expressions.** -/
inductive Expr where
  | none
  | ellipsis
  | bool (b : Bool)
  | int (n : Int)
  | float (x : Float)
  | text (s : String)
  | bytes (bs : List UInt8)
  | name (id : String)
  /-- A text with fields. -/
  | joined (parts : List Expr)
  | field (e : Expr) (shown : Option Char) (format : Option Expr)
  | tuple (items : List Expr)
  | list (items : List Expr)
  | set (items : List Expr)
  /-- Pairs of keys and values; a value without a key is spread. -/
  | dict (entries : List (Option Expr × Expr))
  | starred (e : Expr)
  | unary (op : UnaryOp) (e : Expr)
  | binary (op : BinaryOp) (a b : Expr)
  | both (es : List Expr)
  | either (es : List Expr)
  | compare (first : Expr) (rest : List (CompareOp × Expr))
  | conditional (yes condition no : Expr)
  | walrus (id : String) (e : Expr)
  | function (params : List (Parameter Expr)) (body : Expr)
  | attr (e : Expr) (id : String)
  | subscript (e index : Expr)
  | slice (start stop step : Option Expr)
  /-- A call; an argument has a name, or is spread, or neither. -/
  | call (f : Expr) (args : List Expr) (named : List (Option String × Expr))
  /-- The element, its value in a dictionary, and the clauses: targets, sources and conditions. -/
  | gather (kind : Gathering) (element : Expr) (value : Option Expr)
      (clauses : List (Expr × Expr × List Expr))
  | other (what : String)

instance : Inhabited Expr := ⟨.none⟩

/-- **Statements.** -/
inductive Stmt where
  | expr (e : Expr)
  | assign (targets : List Expr) (value : Expr)
  | augment (target : Expr) (op : BinaryOp) (value : Expr)
  /-- An annotation of a target, which may be a plain name. -/
  | annotate (target : Expr) (plain : Bool) (type : Expr) (value : Option Expr)
  | delete (targets : List Expr)
  | pass
  | stop
  | next
  | give (value : Option Expr)
  | raise (e cause : Option Expr)
  | assert (e : Expr) (what : Option Expr)
  /-- Modules with the names they get. -/
  | bring (names : List (String × Option String))
  /-- Names from a module, so many levels up. -/
  | bringFrom (level : Nat) (unit : String) (names : List (String × Option String))
  | bringAll (level : Nat) (unit : String)
  | global (names : List String)
  | outer (names : List String)
  | branch (condition : Expr) (yes no : List Stmt)
  | loop (condition : Expr) (body last : List Stmt)
  | each (target source : Expr) (body last : List Stmt)
  | during (items : List (Expr × Option Expr)) (body : List Stmt)
  /-- Handlers have what they catch, a name for it, and their statements. -/
  | attempt (body : List Stmt) (handlers : List (Option Expr × Option String × List Stmt))
      (last final : List Stmt)
  | define (decorators : List Expr) (id : String) (params : List (Parameter Expr)) (result : Option Expr)
      (body : List Stmt)
  | makeClass (decorators : List Expr) (id : String) (bases : List Expr)
      (named : List (Option String × Expr)) (body : List Stmt)
  | other (what : String)

instance : Inhabited Stmt := ⟨.pass⟩

/-- **Private names.**  Inside a class a name that starts with two underscores and does not end with two
gets the name of the class in front; underscores at the start of the name of the class do not count. -/
def mangle (title name : String) : String :=
  let owner := title.toList.dropWhile (· = '_')
  let cs := name.toList
  if cs.take 2 == ['_', '_'] && cs.reverse.take 2 != ['_', '_'] && !owner.isEmpty then
    String.ofList ('_' :: owner ++ cs)
  else name

namespace Code

/-! ### Numerals -/

def digitsValue (base : Nat) (cs : List Char) : Nat :=
  cs.foldl (fun v c => match Text.digitValue? base c with
    | some d => base * v + d
    | none => v) 0

/-- A decimal fraction: the digits, how many of them stand after the point, and the exponent. -/
def fractionValue (cs : List Char) : Float :=
  let mantissa := cs.takeWhile fun c => c != 'e' && c != 'E'
  let exponent := cs.drop (mantissa.length + 1)
  let digits := mantissa.filter Char.isDigit
  let after := ((mantissa.dropWhile (· != '.')).filter Char.isDigit).length
  let size := digitsValue 10 (exponent.filter Char.isDigit)
  let e : Int := (if exponent.head? = some '-' then -(size : Int) else size) - after
  Float.ofScientific (digitsValue 10 digits) (e < 0) e.natAbs

def numeral (s : String) : Expr :=
  match s.toList.filter (· != '_') with
  | '0' :: x :: r =>
    if x = 'x' || x = 'X' then .int (digitsValue 16 r)
    else if x = 'o' || x = 'O' then .int (digitsValue 8 r)
    else if x = 'b' || x = 'B' then .int (digitsValue 2 r)
    else plain ('0' :: x :: r)
  | cs => plain cs
where
  /-- A numeral in base ten. -/
  plain (cs : List Char) : Expr :=
    if cs.all Char.isDigit then .int (digitsValue 10 cs)
    else if cs.getLast? = some 'j' || cs.getLast? = some 'J' then .other "complex"
    else .float (fractionValue cs)

/-! ### Operators -/

def binarySigns : List (String × BinaryOp) := [
  ("+", .add), ("-", .sub), ("*", .mul), ("/", .div), ("//", .floorDiv), ("%", .mod), ("**", .pow),
  ("@", .matMul), ("<<", .shiftLeft), (">>", .shiftRight), ("|", .bitOr), ("^", .bitXor), ("&", .bitAnd)]

def unaryLabels : List (String × UnaryOp) := [
  ("plus", .plus), ("minus", .minus), ("invert", .invert), ("not", .not)]

def compareSigns : List (String × CompareOp) := [
  ("==", .eq), ("!=", .ne), ("<", .lt), ("<=", .le), (">", .gt), (">=", .ge), ("in", .within),
  ("not in", .notWithin), ("is", .same), ("is not", .notSame)]

/-! ### Expressions -/

def option (t : Tree) : Option Tree := t.things.head?

def paramsOf {α : Type} (build : Tree → α) (kind : ParamKind) (ts : List Tree) : List (Parameter α) :=
  ts.filterMap fun t =>
    let single := fun (p : Tree) (d : Option Tree) =>
      match p.elements with
      | .token id :: annotation => some ⟨kind, id.text, id.line, annotation.head?.map build, d.map build⟩
      | _ => none
    match t.label, t.elements with
    | "plain", [p] => if p.label == "param" then single p none else none
    | "plain", .token id :: annotation => some ⟨kind, id.text, id.line, annotation.head?.map build, none⟩
    | "defaulted", [p, d] => single p (some d)
    | "maybe", p :: d => single p d.head?
    | _, _ => none

def params {α : Type} (build : Tree → α) (t : Tree) : List (Parameter α) :=
  t.elements.flatMap fun part =>
    let inner := part.elements
    match part.label with
    | "slash" => paramsOf build .placed inner
    | "star" =>
      match inner with
      | first :: more => paramsOf build .rest [first] ++ after more
      | [] => []
    | "bare star" => after inner
    | "only keywords" => paramsOf build .namedRest inner
    | _ => paramsOf build .plain [part]
where
  /-- Parameters after a star: one that can have no default takes all further named arguments. -/
  after (ts : List Tree) : List (Parameter α) :=
    ts.flatMap fun t => paramsOf build (if t.label == "plain" then .namedRest else .named) [t]

def arguments (build : Tree → Expr) (t : Option Tree) : List Expr × List (Option String × Expr) :=
  let all : List Tree := match t with
    | none => []
    | some t => t.elements.flatMap fun a => if a.label == "kwargs" then a.elements else [a]
  let named := all.filterMap fun a =>
    match a.label, a.elements with
    | "kwarg", [.token id, e] => some (some id.text, build e)
    | "spread", [e] => some (none, build e)
    | _, _ => none
  ((all.filter fun a => a.label != "kwarg" && a.label != "spread").map build, named)

def clauses (build : Tree → Expr) (t : Tree) : List (Expr × Expr × List Expr) :=
  t.elements.filterMap fun c =>
    match c.elements with
    | target :: source :: conditions => some (build target, build source, conditions.map build)
    | _ => none

def slice (build : Tree → Expr) (parts : List Tree) : Expr :=
  match parts with
  | [a, b, c] => .slice ((option a).map build) ((option b).map build) ((option c).map build)
  | _ => .slice none none none

def field (build : Tree → Expr) (parts : List Tree) : Expr :=
  match parts with
  | e :: letter :: format => .field (build e) letter.label.toList.head? ((format.flatMap Tree.things).head?.map build)
  | _ => .other "field"

def spelled (spell : String → String) (ps : List (Parameter Expr)) : List (Parameter Expr) :=
  ps.map fun p => { p with name := spell p.name }

/-- **The expression of a tree**, which is so many levels deep, with names spelled as a class wants it. -/
def expr (spell : String → String) : Nat → Tree → Expr
  | 0, _ => .other "depth"
  | fuel + 1, t =>
    let build := expr spell fuel
    let es := t.elements
    match t with
    | .token t => .name (spell t.text)
    | .node label _ parts =>
      match label, es with
      | "name", [.token id] => .name (spell id.text)
      | "none", _ => .none
      | "true", _ => .bool true
      | "false", _ => .bool false
      | "ellipsis", _ => .ellipsis
      | "numeral", [.token s] => numeral s.text
      | "text", [.token s] => .text s.text
      | "bytes", [.token s] => .bytes (s.text.toList.map fun c => UInt8.ofNat c.toNat)
      | "joined", es => .joined (es.map build)
      | "field", _ => field build parts
      | "tuple", es | "tuple in brackets", es | "slices", es => .tuple (es.map build)
      | "list", es => .list (es.map build)
      | "set", es => .set (es.map build)
      | "dict", es => .dict (es.map fun p => match p.elements with
        | [k, v] => (some (build k), build v)
        | [v] => (none, build v)
        | _ => (none, .none))
      | "starred", [e] => .starred (build e)
      | "or", es => .either (es.map build)
      | "and", es => .both (es.map build)
      | "compare", first :: rest =>
        .compare (build first) (rest.filterMap fun c => do
          return (← compareSigns.lookup c.label, build (← c.elements.head?)))
      | "conditional", [yes, condition, no] => .conditional (build yes) (build condition) (build no)
      | "walrus", [.token id, e] => .walrus (spell id.text) (build e)
      | "lambda", es =>
        match es with
        | [body] => .function [] (build body)
        | [ps, body] => .function (spelled spell (params build ps)) (build body)
        | _ => .other label
      | "attribute", [e, .token id] => .attr (build e) (spell id.text)
      | "subscript", [e, index] => .subscript (build e) (build index)
      | "slice", _ => slice build parts
      | "call", f :: args =>
        let (plain, named) := arguments build args.head?
        .call (build f) plain (named.map fun (id, e) => (id.map spell, e))
      | "call with", [f, g] => .call (build f) [build g] []
      | "list comprehension", [e, cs] => .gather .list (build e) none (clauses build cs)
      | "set comprehension", [e, cs] => .gather .set (build e) none (clauses build cs)
      | "generator", [e, cs] => .gather .generator (build e) none (clauses build cs)
      | "dict comprehension", [p, cs] =>
        match p.elements with
        | [k, v] => .gather .dict (build k) (some (build v)) (clauses build cs)
        | _ => .other label
      | label, es =>
        match unaryLabels.lookup label, binarySigns.lookup label, es with
        | some op, _, [e] => .unary op (build e)
        | _, some op, [a, b] => .binary op (build a) (build b)
        | _, _, _ => .other label

/-! ### Statements -/

def dotted : Nat → Tree → String
  | 0, _ => ""
  | fuel + 1, t =>
    match t.elements with
    | [.token id] => id.text
    | [before, .token id] => dotted fuel before ++ "." ++ id.text
    | _ => ""

def namings (ts : List Tree) : List (String × Option String) :=
  ts.map fun t =>
    match t.elements with
    | [.token id] => (id.text, none)
    | [.token id, .token new] => (id.text, some new.text)
    | [d] => (dotted 1000 d, none)
    | [d, .token new] => (dotted 1000 d, some new.text)
    | _ => ("", none)

def brought (level : Nat) (unit : String) (targets : Tree) : Stmt :=
  if targets.label == "everything" then .bringAll level unit
  else .bringFrom level unit (namings targets.elements)

def levels (dots : List Tree) : Nat := (dots.map fun t => if t.label == "..." then 3 else 1).foldr (· + ·) 0

def maxDepth : Nat := 20000

/-- **The statements of a tree**, which is so many levels deep, with names spelled as a class wants it. -/
def stmts : Nat → (String → String) → Tree → List Stmt
  | 0, _, _ => [.other "depth"]
  | fuel + 1, spell, t =>
    let build := expr spell maxDepth
    let block := stmts fuel spell
    let inClass := fun (title : String) => stmts fuel (mangle title)
    let es := t.elements
    let tokens := tokensOf es
    match t.label, es with
    | "module", es | "block", es | "line", es => es.flatMap block
    | "expression", [e] => [.expr (build e)]
    | "annotate", .token id :: type :: value =>
      [.annotate (.name (spell id.text)) true (build type) (value.head?.map build)]
    | "annotate member", target :: type :: value =>
      [.annotate (build target) false (build type) (value.head?.map build)]
    | "assign", es => [.assign (es.dropLast.map build) (build (es.getLast?.getD default))]
    | "augment", [target, op, value] =>
      [.augment (build target) ((binarySigns.lookup op.label).getD .add) (build value)]
    | "return", es => [.give (es.head?.map build)]
    | "raise", es => [.raise (es.head?.map build) ((es.drop 1).head?.map build)]
    | "pass", _ => [.pass]
    | "break", _ => [.stop]
    | "continue", _ => [.next]
    | "global", _ => [.global (tokens.map fun t => spell t.text)]
    | "nonlocal", _ => [.outer (tokens.map fun t => spell t.text)]
    | "delete", es => [.delete (es.map build)]
    | "assert", e :: what => [.assert (build e) (what.head?.map build)]
    | "import", es => [.bring ((namings es).map fun (id, new) => (id, new.map spell))]
    | "from", es =>
      match es.reverse with
      | targets :: unit :: dots => [brought (levels dots) (dotted 1000 unit) targets]
      | _ => []
    | "from dots", es =>
      match es.reverse with
      | targets :: dots => [brought (levels dots) "" targets]
      | _ => []
    | "if", condition :: yes :: no => [.branch (build condition) (block yes) (no.flatMap block)]
    | "while", condition :: body :: last => [.loop (build condition) (block body) (last.flatMap block)]
    | "for", target :: source :: body :: last =>
      [.each (build target) (build source) (block body) (last.flatMap block)]
    | "with", es =>
      match es.reverse with
      | body :: items =>
        [.during (items.reverse.map fun i => match i.elements with
          | [e, target] => (build e, some (build target))
          | [e] => (build e, none)
          | _ => (.none, none)) (block body)]
      | [] => []
    | "try finally", [body, final] => [.attempt (block body) [] [] (block final)]
    | "try", _ =>
      match t.parts with
      | [body, handlers, last, final] =>
        [.attempt (block body) (handlers.things.map fun h => match h.label, h.elements with
          | "except all", [b] => (none, none, block b)
          | _, [e, b] => (some (build e), none, block b)
          | _, [e, .token id, b] => (some (build e), some (spell id.text), block b)
          | _, _ => (none, none, [])) (last.things.flatMap block) (final.things.flatMap block)]
      | _ => []
    | "def", _ | "async def", _ => definition spell block inClass [] t
    | "class", _ => definition spell block inClass [] t
    | "decorated", es =>
      match es.reverse with
      | d :: decorators => definition spell block inClass (decorators.reverse.map build) d
      | [] => []
    | label, _ => [.other label]
where
  /-- A function or a class. -/
  definition (spell : String → String) (block : Tree → List Stmt) (inClass : String → Tree → List Stmt)
      (decorators : List Expr) (t : Tree) : List Stmt :=
    let build := expr spell maxDepth
    match t.label, t.parts with
    | "def", [.token id, ps, result, body] =>
      [.define decorators (spell id.text) (spelled spell (((option ps).map (params build)).getD []))
        ((option result).map build) (block body)]
    | "async def", [.token id, ps, result, _] =>
      [.define decorators (spell id.text) (spelled spell (((option ps).map (params build)).getD []))
        ((option result).map build) [.other "async def"]]
    | "class", [.token id, args, body] =>
      let (bases, named) := arguments build (option args)
      [.makeClass decorators (spell id.text) bases named (inClass id.text body)]
    | label, _ => [.other label]

/-- **The statements of a script.** -/
def ofTree (t : Tree) : List Stmt := stmts maxDepth (fun id => id) t

end Code

end BitSchema.Script
