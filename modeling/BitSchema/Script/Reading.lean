import BitSchema.Script.Grammar

/-!
# Reading by a grammar

`Reading.Setting.run` reads the tokens of a script by a grammar.  Tokens are looked at one after the other; the number
of those looked at so far is kept, because complaints are often about the last one of them.

A script that does not follow the grammar is read a second time with the rules about mistakes.  If one of
them fits, its words are told; otherwise the script is called invalid where the first reading got stuck.  A
flaw of the tokens themselves goes before both, wherever it stands.
-/

namespace BitSchema.Script

/-- **Trees**: tokens, and parts with a label and the line on which they start. -/
inductive Tree where
  | token (t : Token)
  | node (label : String) (line : Nat) (parts : List Tree)

instance : Inhabited Tree := ⟨.node "" 0 []⟩

namespace Tree

def line : Tree → Nat
  | .token t => t.line
  | .node _ n _ => n

def label : Tree → String
  | .token t => t.text
  | .node l _ _ => l

def parts : Tree → List Tree
  | .token _ => []
  | .node _ _ ps => ps

end Tree

namespace Reading

structure Complaint where
  flaw : Flaw
  lastLine : Nat

structure State where
  place : Nat := 0
  /-- The number of tokens that have been looked at. -/
  seen : Nat := 0
  /-- Whether rules about mistakes count. -/
  strict : Bool := false
  /-- What was read by remembered rules, and where it ended. -/
  memory : Std.HashMap (Nat × Nat) (Option (Tree × Nat)) := {}

/-- **Steps of reading.** -/
abbrev Read (α : Type) := StateT State (Except Complaint) α

structure Judgement where
  /-- Whether the script is refused: the question, the marked item, the parts, the token read last, and the
  line of the last token that was looked at. -/
  judge : String → Tree → List Tree → Token → Nat → Except Flaw Unit
  /-- What a part with a label stands for; the line of the last token that was looked at is told. -/
  settle : String → Tree → Nat → Except Flaw Tree
  /-- The words for a kind of expression. -/
  kindOf : Tree → String

structure Setting where
  grammar : Grammar
  tokens : Tokens
  judgement : Judgement
  /-- What stands before all complaints. -/
  lead : String

namespace Setting

variable (s : Setting)

def lastLine (st : State) : Nat :=
  match st.seen with
  | 0 => 0
  | n + 1 => ((s.tokens.list[n]?).map Token.line).getD s.tokens.lastLine

def report {α : Type} (f : Flaw) : Read α := do throw ⟨f, s.lastLine (← get)⟩

def complain {α : Type} (f : Flaw) : Read α := s.report { f with text := s.lead ++ f.text }

def endFlaw : Flaw :=
  let f := s.tokens.endFlaw
  match s.tokens.ending with
  | .flaw f => f
  | _ => { f with text := s.lead ++ f.text }

def peek : Read Token := do
  modify fun st => { st with seen := max st.seen (st.place + 1) }
  match s.tokens.list[(← get).place]? with
  | some t => return t
  | none => s.report s.endFlaw

def expect (wanted : Token → Bool) : Read (Option Tree) := do
  let t ← s.peek
  if wanted t then
    modify fun st => { st with place := st.place + 1 }
    return some (.token t)
  else return none

def backTo (place : Nat) : Read Unit := modify fun st => { st with place }

def giveUp (place : Nat) : Read (Option Tree) := do
  backTo place
  return none

def softWords : List String := ["_", "case", "match"]

def bundle (line : Nat) (parts : List Tree) : Tree :=
  match parts with
  | [t] => t
  | parts => .node "" line parts

def wording (r : Refusal) (item : Option Tree) : String :=
  match item with
  | none => r.words
  | some t =>
    ((r.words.replace "%k" (s.judgement.kindOf t)).replace "%n" (toString t.line)).replace "%t" t.label

inductive Outcome where
  /-- The parts, and the marked item. -/
  | fits (parts : List Tree) (marked : Option Tree)
  | fails
  /-- No other alternative is tried. -/
  | committed

def sequence (read : Item → Read (Option Tree)) : List (Item × Bool) → Bool → List Tree → Option Tree →
    Read Outcome
  | [], _, parts, marked => return .fits parts.reverse marked
  | (i, isPart) :: r, committed, parts, marked => do
    match i with
    | .commit => sequence read r true parts marked
    | i =>
      match ← read i with
      | none => return (if committed then .committed else .fails)
      | some t =>
        let marked := match i with
          | .marked _ => some t
          | _ => marked
        sequence read r committed (if isPart then t :: parts else parts) marked

def conclude (a : Alternative) (line : Nat) (parts : List Tree) (marked : Option Tree) : Read (Option Tree) := do
  match a.action with
  | .pass => return some (bundle line parts)
  | .build label =>
    let t := Tree.node label line parts
    match s.judgement.settle label t (s.lastLine (← get)) with
    | .ok t => return some t
    | .error f => s.report f
  | .refuse r =>
    let last := s.lastLine (← get)
    let line := if r.there then (marked.map Tree.line).getD last else last
    s.complain ⟨r.kind, s.wording r marked, line⟩
  | .judge question =>
    let st ← get
    let before := (s.tokens.list[st.place - 1]?).getD default
    match s.judgement.judge question (marked.getD default) parts before (s.lastLine st) with
    | .ok _ => return none
    | .error f => s.complain f

def first (read : Item → Read (Option Tree)) (before : List Tree) (line : Nat) : List Alternative → Read (Option Tree)
  | [] => return none
  | a :: r => do
    let st ← get
    if a.wrong && !st.strict then first read before line r
    else
      match ← sequence read a.items false [] none with
      | .fits parts marked =>
        match ← s.conclude a line (before ++ parts) marked with
        | some t => return some t
        | none => giveUp st.place
      | .committed => giveUp st.place
      | .fails =>
        backTo st.place
        first read before line r

def again (read : Read (Option Tree)) : Nat → List Tree → Read (List Tree)
  | 0, found => return found.reverse
  | n + 1, found => do
    let place := (← get).place
    match ← read with
    | some t => again read n (t :: found)
    | none =>
      backTo place
      return found.reverse

def afterComma (read : Read (Option Tree)) : Read (Option Tree) := do
  match ← s.expect (fun t => t.text == "," && t.kind = .sign) with
  | some _ => read
  | none => return none

def grow (read : Item → Read (Option Tree)) (growth : List Alternative) (line : Nat) :
    Nat → Tree → Read Tree
  | 0, t => return t
  | n + 1, t => do
    match ← s.first read [t] line growth with
    | some t => grow read growth line n t
    | none => return t

def fresh (read : Item → Read (Option Tree)) (r : Rule) : Read (Option Tree) := do
  let st ← get
  let line := (← s.peek).line
  if r.quiet then modify fun st => { st with strict := false }
  let found ← s.first read [] line r.alternatives
  let found ← match found with
    | some t => some <$> s.grow read r.growth line (s.tokens.list.size + 1) t
    | none => pure none
  if r.quiet then modify fun now => { now with strict := st.strict }
  return found

def rule (read : Item → Read (Option Tree)) (index : Nat) : Read (Option Tree) := do
  let r := s.grammar.rules[index]?.getD default
  if r.remembered then
    let st ← get
    match st.memory[(index, st.place)]? with
    | some (some (t, place)) =>
      modify fun st => { st with place }
      return some t
    | some none => return none
    | none =>
      let found ← s.fresh read r
      modify fun now =>
        { now with memory := now.memory.insert (index, st.place) (found.map fun t => (t, now.place)) }
      return found
  else s.fresh read r

def choose (read : Item → Read (Option Tree)) (line : Nat) : List (List Item) → Read (Option Tree)
  | [] => return none
  | items :: r => do
    let place := (← get).place
    match ← sequence read (items.map fun i => (i, i.isPart)) false [] none with
    | .fits parts marked =>
      return some (match parts, marked with
        | [], some t => t
        | parts, _ => bundle line parts)
    | .committed => giveUp place
    | .fails =>
      backTo place
      choose read line r

/-- **Reads an item**; rules lead to others `fuel` times. -/
def item : Nat → Item → Read (Option Tree)
  | 0, _ => s.complain ⟨.grammar, "too many nested parentheses", 0⟩
  | fuel + 1, i => do
    let read := item fuel
    match i with
    | .sign text => s.expect fun t => t.text == text && (t.kind = .sign || t.kind = .keyword)
    | .kind k => s.expect fun t => t.kind = k
    | .word text => s.expect fun t => t.kind = .name && t.text == text
    | .soft => s.expect fun t => t.kind = .name && softWords.contains t.text
    | .rule index => s.rule read index
    | .optional i =>
      let line := (← s.peek).line
      let place := (← get).place
      match ← read i with
      | some t => return some (.node "?" line [t])
      | none =>
        backTo place
        return some (.node "?" line [])
    | .many i =>
      let line := (← s.peek).line
      return some (.node "many" line (← again (read i) (s.tokens.list.size + 1) []))
    | .some i =>
      let line := (← s.peek).line
      match ← again (read i) (s.tokens.list.size + 1) [] with
      | [] => return none
      | ts => return some (.node "many" line ts)
    | .listed i =>
      let line := (← s.peek).line
      match ← read i with
      | none => return none
      | some t => return some (.node "many" line (t :: (← again (s.afterComma (read i)) (s.tokens.list.size + 1) [])))
    | .choice alternatives => choose read (← s.peek).line alternatives
    | .ahead wanted i =>
      let place := (← get).place
      let found ← read i
      modify fun st => { st with place }
      return (if found.isSome == wanted then some default else none)
    | .commit => return some default
    | .forced text =>
      match ← s.expect (fun t => t.text == text && t.kind = .sign) with
      | some t => return some t
      | none => s.complain ⟨.grammar, "expected '" ++ text ++ "'", (← s.peek).line⟩
    | .marked i => read i

end Setting

def maxDepth : Nat := 20000

namespace Setting

variable (s : Setting)

/-- What is wrong with a script after all: a flaw of the tokens goes before a complaint, and so does a bracket
that was opened on an earlier line than the last token that was looked at and never closed. -/
def settled (c : Complaint) : Flaw :=
  if c.flaw == s.endFlaw then c.flaw
  else
    match s.tokens.ending, s.tokens.bracket with
    | .flaw f, _ => f
    | .stopped _, some b =>
      let f := Flaw.unclosed b
      if b.2 < c.lastLine then { f with text := s.lead ++ f.text } else c.flaw
    | _, _ => c.flaw

/-- What is wrong with a script that no rule about mistakes fits: the token at which the first reading got
stuck is told, and the last line that the second reading looked at. -/
def stuck (last : Token) (lastLine : Nat) : Flaw :=
  match last.kind with
  | .indent => ⟨.indentation, s.lead ++ "unexpected indent", lastLine⟩
  | .dedent => ⟨.indentation, s.lead ++ "unexpected unindent", lastLine⟩
  | _ => s.settled ⟨⟨.grammar, s.lead ++ "invalid syntax", last.line⟩, lastLine⟩

/-- **Reads the tokens** by a rule of the grammar. -/
def run (start : String) : Except Flaw Tree :=
  let read := s.item maxDepth (.rule (s.grammar.index.getD start s.grammar.rules.size))
  match read.run {} with
  | .error c => .error (s.settled c)
  | .ok (some t, _) => .ok t
  | .ok (none, st) =>
    match read.run { strict := true, seen := st.seen } with
    | .error c => .error (s.settled c)
    | .ok (_, st') =>
      .error (s.stuck ((s.tokens.list[st.seen - 1]?).getD default) (s.lastLine st'))

end Setting

end Reading

end BitSchema.Script
