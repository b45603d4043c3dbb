/-!
# Packed texts

Long lists of names are kept packed.  The text is a row of bits, six for each character, and packing is arithmetic
coding: before each bit there is a chance that it is set, a part of the range as large as the chance stands for a set
bit, and the packed text is a number of the range that is left at the end, in base 88.

The chance comes from what was unpacked before (`View.marks`) and what followed it the last times.  Each context has a
slot for each bit, with the chance of the bit among 65536, or nothing yet.  The chances of the contexts are added up as
steps from the even chance (`leaning`), with weights that grow for the contexts that were right.  There are several rows
of weights, and two of them decide together.
-/

namespace BitSchema.Text.Packed

def alphabet : Array Char := "AEIOUYHW; -:\n~NRLMSTZCDKGPBFVJQX0123456789".toList.toArray

def digits : List Char :=
  "0123456789ABCDEFGHIJKLMNOPQRSTUVWXYZabcdefghijklmnopqrstuvwxyz!#$%&()*+,./:;<=>?@[]^_|~ ".toList

/-! ### Chances -/

/-- Odds that are even at first and grow by a part of 64 in each step. -/
def odds : Nat → Nat
  | 0 => 1048576
  | k + 1 => odds k * 65 / 64

/-- The chances among 4096 that grow with the odds. -/
def chances : Array UInt32 := ((List.range 541).map fun k => (4096 * odds k / (odds k + 1048576)).toUInt32).toArray

def chance (steps : Int32) : UInt32 :=
  let above := chances.getD (min steps.abs 540).toUInt32.toNat 4095
  if steps < 0 then max 1 (4096 - above) else min 4095 above

/-- The steps from the even chance to a chance of at least 2048. -/
def stepsTo (p : Nat) : Int32 := .ofNat ((chances.findIdx? (p.toUInt32 ≤ ·)).getD 540)

def leanings : Array Int32 :=
  ((List.range 4096).map fun p => if p < 2048 then -stepsTo (4096 - p) else stepsTo p).toArray

def leaning (slot : UInt32) : Int32 := if slot = 0 then 0 else leanings.getD (slot / 16).toNat 0

def learn (slot : UInt32) (set : Bool) : UInt32 :=
  if slot = 0 then if set then 65536 - 1024 else 1024
  else if set then min (65536 - 17) (slot + (65536 - slot) / 3) else max 16 (slot - slot / 3)

/-! ### Contexts -/

def mark (seed : Nat) (cs : List Char) : UInt32 :=
  cs.foldl (fun h c => (h + c.val + 1) * 0x2f0b4c47) (seed.toUInt32 * 0x2f0b4c47)

/-- What was unpacked, and its end, nearest first: all of it, and the present name.  The name before goes on behind the
present place with `above`, and behind the word before with `line`, each with the character before. -/
structure View where
  text : Array Char := #[]
  before : List Char := []
  name : List Char := []
  line : List Char := []
  above : List Char := []
  /-- Where the text went on behind five characters. -/
  seen : Array Nat := Array.replicate 4194304 0
  /-- A place where it went on so before, and for how long it has been the same. -/
  ahead : Nat := 0
  same : Nat := 0

namespace View

def word (v : View) : List Char := v.before.takeWhile Char.isAlphanum

/-- The marks of the contexts of the next character. -/
def marks (v : View) : Array UInt32 :=
  let last := v.before.take 1
  #[mark 1 last, mark 2 (v.before.take 2), mark 3 (v.before.take 3), mark 4 (v.before.take 6), mark 5 v.word,
    mark 6 (v.above.take 4 ++ v.word), mark 7 (v.above.take 2 ++ last),
    mark (8 + min 15 v.same) [v.text.getD v.ahead ' ']]

/-- The row of weights for the next character. -/
def row (v : View) : Nat := 4 * min 15 v.word.length + min 3 ((v.same + 7) / 8)

def push (v : View) (c : Char) : View :=
  let ⟨text, before, name, line, above, seen, ahead, same⟩ := v
  let same := if same > 0 && text.getD ahead ' ' = c then same + 1 else 0
  let text := text.push c
  let before := c :: before
  let place := (mark 0 (before.take 5) >>> 10).toNat
  let again := seen.getD place 0
  let (ahead, same) := if same = 0 then (again, min 1 again) else (ahead + 1, same)
  let seen := seen.set! place text.size
  if [';', ':', '\n'].contains c then
    let line := c :: name.reverse
    ⟨text, before, [], line, line, seen, ahead, same⟩
  else if c.isAlphanum then ⟨text, before, c :: name, line, above.tail, seen, ahead, same⟩
  else
    let line := line.tail.dropWhile Char.isAlphanum
    ⟨text, before, c :: name, line, line, seen, ahead, same⟩

end View

/-- The place of the slot for the bit behind the bits of `node`. -/
def place (mark : UInt32) (node : Nat) : Nat := ((mark >>> 9) ^^^ node.toUInt32).toNat

/-! ### Unpacking -/

structure State where
  /-- The digits that are left. -/
  rest : List Char
  /-- The packed number, counted from where the range starts. -/
  code : Nat
  range : Nat
  slots : Array UInt32
  weights : Array Int32

namespace State

def start (packed : List Char) : State where
  rest := packed.drop 6
  code := (packed.take 6).foldl (fun v c => v * 88 + digits.idxOf c) 0
  range := Nat.pow 88 6
  slots := Array.replicate 8388608 0
  weights := Array.replicate 1024 16384

def widen (s : State) : State :=
  if s.range < Nat.pow 88 4 then
    { s with rest := s.rest.tail, code := s.code * 88 + (s.rest.head?.map digits.idxOf).getD 0, range := s.range * 88 }
  else s

/-- The next bit, behind the bits of `node`. -/
def bit (s : State) (marks : Array UInt32) (row node : Nat) : Bool × State :=
  let ⟨rest, code, range, slots, weights⟩ := s
  let places := marks.map (place · node)
  let steps := places.map fun i => leaning (slots.getD i 0)
  let leads := [8 * row, 512 + 8 * node].map fun row =>
    (row, Nat.fold 8 (fun j _ sum => sum + weights.getD (row + j) 0 * steps.getD j 0) 0 >>> 16)
  let part := range * (chance ((leads.map Prod.snd).foldl (· + ·) 0 >>> 1)).toNat / 4096
  let set := code < part
  let slots := places.foldl (fun slots i => slots.modify i (learn · set)) slots
  let weights := leads.foldl (fun weights (row, lead) =>
    let miss := (if set then 4096 else 0) - (chance lead).toInt32
    Nat.fold 8 (fun j _ weights => weights.modify (row + j) (· + (steps.getD j 0 * miss) >>> 10)) weights) weights
  let s : State :=
    if set then ⟨rest, code, part, slots, weights⟩ else ⟨rest, code - part, range - part, slots, weights⟩
  (set, s.widen.widen)

def letter (s : State) (marks : Array UInt32) (row : Nat) : Char × State :=
  let (node, s) := (List.range 6).foldl (fun (node, s) _ =>
    let (set, s) := s.bit marks row node
    (2 * node + set.toNat, s)) (1, s)
  (alphabet.getD (node - 64) ' ', s)

/-- The text up to some more characters. -/
def text (v : View) : Nat → State → String
  | 0, _ => String.ofList v.text.toList
  | n + 1, s =>
    let (c, s) := s.letter v.marks v.row
    text (v.push c) n s

end State

/-- **The packed text** of some length. -/
def unpack (length : Nat) (packed : String) : String := (State.start packed.toList).text {} length

end BitSchema.Text.Packed
