import BitSchema.Script.Code

/-!
# Where things may stand

Some statements and expressions are fine by the grammar and yet only make sense in certain places: a `return`
in a function, a `break` in a loop, a star in a list.  `Places.check` refuses the others, in the order in which
a script is carried out.
-/

namespace BitSchema.Script.Places

inductive BlockKind where
  | script | classBody | function | gathering
deriving DecidableEq

structure Place where
  block : BlockKind := .script
  inLoop : Bool := false

def Place.inFunction (p : Place) : Bool := p.block ≠ .script && p.block ≠ .classBody

def refuse (text : String) (line : Nat) : Except Flaw Unit := .error ⟨.grammar, text, line⟩

def fixedName : String := "__debug__"

def checkName (verb name : String) (line : Nat) : Except Flaw Unit :=
  if name == fixedName then refuse (verb ++ " " ++ fixedName) line else .ok ()

def checkNamed : List Tree → List String → Except Flaw Unit
  | [], _ => .ok ()
  | a :: r, seen =>
    match a.label, a.elements with
    | "kwarg", .token id :: _ => do
      checkName "cannot assign to" id.text a.line
      checkNamed r (id.text :: seen)
    | _, _ => checkNamed r seen

def checkRepeated : List Tree → List String → Except Flaw Unit
  | [], _ => .ok ()
  | a :: r, seen =>
    match a.label, a.elements with
    | "kwarg", .token id :: _ => do
      if seen.contains id.text then refuse ("keyword argument repeated: " ++ id.text) a.line
      checkRepeated r (id.text :: seen)
    | _, _ => checkRepeated r seen

def displays : List String := ["list", "tuple", "tuple in brackets", "set", "slices"]

def gatherings : List String := ["list comprehension", "set comprehension", "dict comprehension", "generator"]

def store (read : Tree → Except Flaw Unit) : Nat → Tree → Except Flaw Unit
  | 0, _ => .ok ()
  | fuel + 1, t => do
    match t.label, t.elements with
    | "name", [.token id] => checkName "cannot assign to" id.text id.line
    | "attribute", [e, .token id] =>
      read e
      checkName "cannot assign to" id.text t.line
    | "list", es | "tuple", es | "tuple in brackets", es =>
      if (es.filter fun e => e.label == "starred").length > 1 then
        refuse "multiple starred expressions in assignment" t.line
      es.forM fun e =>
        if e.label == "starred" then e.elements.forM (store read fuel) else store read fuel e
    | "starred", _ => refuse "starred assignment target must be in a list or tuple" t.line
    | _, _ => read t

def remove (read : Tree → Except Flaw Unit) : Nat → Tree → Except Flaw Unit
  | 0, _ => .ok ()
  | fuel + 1, t =>
    match t.label, t.elements with
    | "name", [.token id] => checkName "cannot delete" id.text id.line
    | "attribute", [e, .token id] => do
      read e
      checkName "cannot delete" id.text t.line
    | "list", es | "tuple", es | "tuple in brackets", es => es.forM (remove read fuel)
    | _, _ => read t

def clauses (read : Tree → Except Flaw Unit) (fuel : Nat) (isFirst : Bool) : List Tree → Except Flaw Unit
  | [] => .ok ()
  | c :: r => do
    match c.elements with
    | target :: source :: conditions =>
      if !isFirst then read source
      store read fuel target
      conditions.forM read
    | _ => pure ()
    clauses read fuel false r

/-- Checks something that goes through other things; the first source is read last and outside. -/
def gathering (read : Place → Tree → Except Flaw Unit) (fuel : Nat) (p : Place) (t : Tree) : Except Flaw Unit := do
  match t.elements with
  | [element, cs] =>
    let isFirst := cs.elements.head?
    let inside := read { block := .gathering }
    clauses inside fuel true cs.elements
    inside element
    (isFirst.bind fun c => (c.elements.drop 1).head?).forM (read p)
  | _ => .ok ()

/-- **Checks an expression** in a place, so many levels deep. -/
def load : Nat → Place → Tree → Except Flaw Unit
  | 0, _, _ => .ok ()
  | fuel + 1, p, t => do
    let read := load fuel p
    let spread := fun (e : Tree) => if e.label == "starred" then e.elements.forM read else read e
    match t.label, t.elements with
    | "starred", _ => refuse "can't use starred expression here" t.line
    | "call", f :: args =>
      checkCall args
      read f
      callParts read spread args
    | "lambda", es =>
      match es with
      | [body] => load fuel { block := .function } body
      | [ps, body] =>
        let ps := Code.params (fun t => t) ps
        ps.forM fun q => checkName "cannot assign to" q.name t.line
        ps.forM fun q => q.fallback.forM read
        load fuel { block := .function } body
      | _ => .ok ()
    | "conditional", [yes, condition, no] =>
      read condition
      read yes
      read no
    | "walrus", [.token id, e] =>
      read e
      checkName "cannot assign to" id.text id.line
    | "yield", es | "yield from", es =>
      if !p.inFunction then refuse "'yield' outside function" t.line
      es.forM read
    | "await", es =>
      if !p.inFunction then refuse "'await' outside function" t.line
      es.forM read
    | label, es =>
      if displays.contains label then es.forM spread
      else if gatherings.contains label then gathering (load fuel) fuel p t
      else es.forM read
where
  /-- All arguments of a call. -/
  arguments (args : List Tree) : List Tree :=
    args.flatMap fun a => a.elements.flatMap fun a => if a.label == "kwargs" then a.elements else [a]
  /-- Checks the named arguments of a call. -/
  checkCall (args : List Tree) : Except Flaw Unit := do
    checkNamed (arguments args) []
    checkRepeated (arguments args) []
  /-- Checks the arguments of a call, those without names first. -/
  callParts (read spread : Tree → Except Flaw Unit) (args : List Tree) : Except Flaw Unit := do
    let isNamed := fun (a : Tree) => a.label == "kwarg" || a.label == "spread"
    ((arguments args).filter fun a => !isNamed a).forM spread
    ((arguments args).filter isNamed).forM fun a => a.elements.forM read

def handlers (read : Tree → Except Flaw Unit) (execute : Tree → Except Flaw Unit) : List Tree → Except Flaw Unit
  | [] => .ok ()
  | h :: r => do
    match h.label, h.elements with
    | "except all", body =>
      if !r.isEmpty then refuse "default 'except:' must be last" h.line
      body.forM execute
    | _, e :: rest =>
      read e
      rest.forM fun t => match t with
        | .token id => checkName "cannot assign to" id.text id.line
        | t => execute t
    | _, [] => .ok ()
    handlers read execute r

/-! ### Statements -/

/-- **Checks a statement** in a place, so many levels deep. -/
def execute : Nat → Place → Tree → Except Flaw Unit
  | 0, _, _ => .ok ()
  | fuel + 1, p, t => do
    let run := execute fuel p
    let read := load Code.maxDepth p
    let assign := store read Code.maxDepth
    match t.label, t.elements with
    | "module", es | "block", es | "line", es => es.forM run
    | "expression", es => es.forM read
    | "assign", es =>
      es.getLast?.forM read
      es.dropLast.forM assign
    | "annotate", .token id :: type :: value =>
      value.forM read
      checkName "cannot assign to" id.text t.line
      if !p.inFunction then read type
    | "annotate member", target :: type :: value =>
      value.forM read
      if !value.isEmpty then assign target
      else if target.label == "name" then assign target
      else if target.label == "attribute" || target.label == "subscript" then
        target.elements.forM fun e => match e with
          | .token _ => .ok ()
          | e => read e
      if !p.inFunction then read type
    | "augment", [target, _, value] =>
      read target
      read value
      assign target
    | "return", es =>
      if p.block ≠ .function then refuse "'return' outside function" t.line
      es.forM read
    | "break", _ =>
      if !p.inLoop then refuse "'break' outside loop" t.line
    | "continue", _ =>
      if !p.inLoop then refuse "'continue' not properly in loop" t.line
    | "delete", es => es.forM (remove read Code.maxDepth)
    | "import", es =>
      for (dotted, new) in Code.namings es do
        checkName "cannot assign to" (new.getD dotted) t.line
    | "from", es | "from dots", es =>
      match es.getLast? with
      | some ts =>
        if ts.label != "everything" then
          for (name, new) in Code.namings ts.elements do
            checkName "cannot assign to" (new.getD name) t.line
      | none => .ok ()
    | "if", condition :: blocks =>
      read condition
      blocks.forM run
    | "while", condition :: body :: last =>
      read condition
      execute fuel { p with inLoop := true } body
      last.forM run
    | "for", target :: source :: body :: last =>
      read source
      assign target
      execute fuel { p with inLoop := true } body
      last.forM run
    | "with", es =>
      es.forM fun e =>
        match e.label, e.elements with
        | "with item", e :: target => do
          read e
          target.forM assign
        | _, _ => run e
    | "try", _ | "try group", _ =>
      match t.parts with
      | [body, hs, last, final] =>
        run body
        last.things.forM run
        handlers read run hs.things
        final.things.forM run
      | _ => .ok ()
    | "try finally", es => es.forM run
    | "decorated", es =>
      match es.reverse with
      | d :: decorators =>
        decorators.reverse.forM read
        run d
      | [] => .ok ()
    | "class", _ =>
      match t.parts with
      | [.token id, args, body] =>
        execute fuel { block := .classBody } body
        load.checkCall args.things
        load.callParts read (fun e => if e.label == "starred" then e.elements.forM read else read e) args.things
        checkName "cannot assign to" id.text t.line
      | _ => .ok ()
    | "def", _ | "async def", _ =>
      match t.parts with
      | [.token id, ps, result, body] =>
        let ps := ((Code.option ps).map (Code.params fun t => t)).getD []
        ps.forM fun q => checkName "cannot assign to" q.name t.line
        ps.forM fun q => q.fallback.forM read
        ps.forM fun q => q.annotation.forM fun a =>
          if a.label == "starred" then a.elements.forM read else read a
        (Code.option result).forM read
        execute fuel { block := .function } body
        checkName "cannot assign to" id.text t.line
      | _ => .ok ()
    | _, es =>
      es.forM fun e => match e with
        | .token _ => .ok ()
        | e => if e.label == "block" then run e else read e

/-- **Checks the places of a script.** -/
def check (t : Tree) : Except Flaw Unit := execute Code.maxDepth {} t

end BitSchema.Script.Places

namespace BitSchema.Script

/-- **Compiles a script**: its tree, which stands the checks.  A flaw of the text as a whole has no line. -/
def compile (s : String) : Except Flaw Tree := do
  if s.toList.any (fun c => c.toNat = 0) then
    throw ⟨.grammar, "source code string cannot contain null bytes", 0⟩
  let t ← read s
  Places.check t
  return t

end BitSchema.Script
