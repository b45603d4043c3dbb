import BitSchema.Target.Names
import BitSchema.Schema.Size
import BitSchema.Token

/-!
# Blocks of output

The text written for a schema is a tree of blocks.  A block writes strings, which are joined by its
separator; a block inside another one contributes its joined text as a single string, and nothing if it
has written no string.

* `Line` is a single step of writing: a new string, or something added to the last one.
* `Block` is the tree.  A group of blocks writes the closing lines of its members after all of them, in
  reverse order, so what was opened last is closed first.
* `Block.write` writes a block.  What had been written before a failure is kept.
-/

namespace BitSchema

/-- **Lines.** A step of writing.  An indentation that is not given is that of the block. -/
inductive Line where
  | text (s : String) (indent : Option Int)
  /-- More of the last string, after a separator. -/
  | tail (s : String) (separator : String)
  | comment (content : String) (indent : Option Int)
  /-- Lines of documentation; no lines if there is no content. -/
  | doc (contents : List String) (indent : Option Int)
  /-- A comment at the end of the last string that says how many bits something takes. -/
  | bits (nbits : Except Fault Nat)

/-- **Blocks.** -/
inductive Block where
  | lines (indent : Int) (ls : List Line)
  /-- Lines, and others that close what they have opened. -/
  | closing (indent : Int) (ls : List Line) (close : List Line)
  | group (separator : String) (blocks : List Block)
  | around (indent : Int) (before : List Line) (inner : Option Block) (after : List Line)
  /-- A block that is written only if a condition holds. -/
  | when (condition : Bool) (inner : Block)

instance : Inhabited Block := ⟨.lines 0 []⟩

/-- **Writing.** The state holds the strings written so far, the last one first; it survives a
failure. -/
abbrev Writing (α : Type) := ExceptT Fault (StateM (List String)) α

namespace Writing

def ofExcept {α : Type} : Except Fault α → Writing α
  | .ok a => pure a
  | .error f => throw f

def push (s : String) : Writing Unit := modify (s :: ·)

def extend (s separator : String) : Writing Unit := do
  match ← get with
  | [] => throw (.indexRange .list)
  | t :: r => set ((t ++ separator ++ s) :: r)

def nested (separator : String) (run : Writing Unit) : Writing Unit := fun written =>
  let (r, own) := run []
  match r with
  | .error f => (.error f, written)
  | .ok _ =>
    (.ok (), if own.isEmpty then written else separator.intercalate own.reverse :: written)

end Writing

namespace Dialect

def indented (l : Dialect) (indent : Int) (s : String) : Except Fault String := do
  if indent > 0 then return String.join (List.replicate indent.toNat (← l.indentUnit)) ++ s
  else return s

end Dialect

namespace Line

def put (l : Dialect) (block : Int) (own : Option Int) (s : String) : Writing Unit := do
  Writing.push (← Writing.ofExcept (l.indented (own.getD block) s))

def write (l : Dialect) (block : Int) : Line → Writing Unit
  | .text s indent => put l block indent s
  | .tail s separator => Writing.extend s separator
  | .comment content indent => do
    put l block indent (← Writing.ofExcept (l.comment content))
  | .doc [] _ => return ()
  | .doc contents indent => do
    (← Writing.ofExcept (l.docstring contents)).forM (put l block indent)
  | .bits nbits => do
    let n ← Writing.ofExcept nbits
    Writing.extend (← Writing.ofExcept (l.comment s!"{n}bit")) " "

def writeAll (l : Dialect) (block : Int) (ls : List Line) : Writing Unit :=
  ls.forM (write l block)

end Line

namespace Block

def separator : Block → String
  | .group s _ => s
  | _ => "\n"

def writeClose (l : Dialect) : Block → Writing Unit
  | .closing indent _ close => Writing.nested "\n" (Line.writeAll l indent close)
  | _ => return ()

end Block

mutual

/-- **Writing a block.** -/
def Block.write (l : Dialect) : Block → Writing Unit
  | .lines indent ls => Line.writeAll l indent ls
  | .closing indent ls _ => Line.writeAll l indent ls
  | .group _ blocks => do
    writeBlocks l blocks
    blocks.reverse.forM (Block.writeClose l)
  | .around indent before none after => do
    Line.writeAll l indent before
    Line.writeAll l indent after
  | .around indent before (some b) after => do
    Line.writeAll l indent before
    Writing.nested b.separator (b.write l)
    Line.writeAll l indent after
  | .when true b => Writing.nested b.separator (b.write l)
  | .when false _ => return ()

def writeBlocks (l : Dialect) : List Block → Writing Unit
  | [] => return ()
  | b :: bs => do
    Writing.nested b.separator (b.write l)
    writeBlocks l bs

end

namespace Block

def strings (l : Dialect) (b : Block) : List String × Option Fault :=
  let (r, written) := (b.write l).run []
  (written.reverse,
   match r with
   | .ok _ => none
   | .error f => some f)

/-- **The text of a block.** -/
def text (l : Dialect) (b : Block) : Except Fault String :=
  match b.strings l with
  | (ss, none) => .ok (b.separator.intercalate ss)
  | (_, some f) => .error f

/-! ### Common blocks -/

def ofLines (ls : List Line) : Block := .lines 0 ls

def paragraphs (blocks : List Block) : Block := .group "\n\n" blocks

def stacked (blocks : List Block) : Block := .group "\n" blocks

def notice (indent : Int) : Block :=
  .lines indent [.comment "Code generated by bitproto. DO NOT EDIT." none]

end Block

namespace Line

def of (s : String) : Line := .text s none

def inset (indent : Int) (s : String) : Line := .text s (some indent)

def comments (d : Def) (indent : Option Int) : List Line :=
  d.header.comments.map fun c => .comment (commentContent c.source) indent

def docOf (d : Def) (indent : Option Int) : Line :=
  .doc (d.header.comments.map fun c => commentContent c.source) indent

/-- How many bits a definition takes, as a comment at the end of the last string. -/
def bitsOf (env : Env) (d : Def) : Line :=
  .bits <|
    match d with
    | .enumField _ _ => (env.enumOf d).map Def.nbits
    | .field _ t _ => .ok t.nbits
    | d => .ok d.nbits

end Line

end BitSchema
