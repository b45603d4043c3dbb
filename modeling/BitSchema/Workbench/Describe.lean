import BitSchema.Token
import BitSchema.Workbench.Basic

/-!
# Descriptions of pieces

Every piece has a description, such as `<type uint3>` or `<message Order>`.  Kinds without a form of
their own are described by all their attributes.  In a text a comment stands for what it says; every
other piece stands as its description.

* `Work.quoted` is the description of a content,
* `Work.shown` is a content as it stands in a text,
* `Work.failAbout` is a report about a piece.
-/

namespace BitSchema.Work

inductive Form where
  | shown | quoted
deriving DecidableEq, Repr

def commentText (token : Content) : Except Fault String :=
  match token with
  | .text s => .ok (commentContent s)
  | .tuple _ | .list _ => .error (token.lacks "strip")
  | c => .error (.mismatch ("'" ++ c.sort ++ "' object is not subscriptable"))

def isListed : Kind → Bool
  | .node | .definition | .option | .constant | .bool | .byte | .uint | .int | .array | .typeAlias
  | .enumField | .enum | .messageField | .message | .proto => false
  | _ => true

/-- What stands between the angle brackets of a description: texts, and attributes as they stand in a
text. -/
def bracketed (k : Kind) : List (String ⊕ String) :=
  let named := fun (word : String) => [Sum.inl (word ++ " "), Sum.inr "name"]
  match k with
  | .bool => [.inl "type bool"]
  | .byte => [.inl "byte"]
  | .uint => [.inl "type uint", .inr "cap"]
  | .int => [.inl "type int", .inr "cap"]
  | .array => [.inl "type array (", .inr "element_type", .inl ", cap=", .inr "cap", .inl ")"]
  | .typeAlias => named "alias"
  | .enum => named "enum"
  | .message => named "message"
  | .proto => named "bitproto"
  | .option => named "option" ++ [.inl "=", .inr "value"]
  | .constant => named "constant" ++ [.inl "=", .inr "value"]
  | .enumField => named "enum-field" ++ [.inl "=", .inr "value"]
  | .messageField => named "message-field" ++ [.inl "=", .inr "number"]
  | .definition => named ("<class 'bitproto._ast." ++ k.label ++ "'>")
  | k => [.inl ("<class 'bitproto._ast." ++ k.label ++ "'>")]

def describeOrdered (describe : Content → Work String) (entries : List (Content × Content)) :
    Work String := do
  if entries.isEmpty then return "OrderedDict()"
  return "OrderedDict(" ++ (← describe (.list (entries.map fun e => .tuple [e.1, e.2]))) ++ ")"

/-- A description by all attributes, each of them described by `describe`. -/
def listSlots (describe : Content → Work String) (k : Kind) (n : Nat) : Work String := do
  let attributes ← k.slots.mapM fun s => do
    let text ← match s.name, ← attributeOf n s.name with
      | "members", .table entries => describeOrdered describe entries
      | _, c => describe c
    return (s.name, text)
  return listAttributes k.label attributes

/-- A content in one of the two forms, references followed `depth` times. -/
def write : Nat → Form → Content → Work String
  | 0, _, _ => throw .tooDeep
  | depth + 1, form, c => do
    match c with
    | .text s => return if form = .shown then s else Text.quote s
    | .tuple items => return listShown (← items.mapM (write depth .quoted))
    | .list items =>
      return "[" ++ ", ".intercalate (← items.mapM (write depth .quoted)) ++ "]"
    | .table entries =>
      let parts ← entries.mapM fun e => do
        return (← write depth .quoted e.1) ++ ": " ++ (← write depth .quoted e.2)
      return "\x7b" ++ ", ".intercalate parts ++ "\x7d"
    | .piece .comment n =>
      if form = .shown then ofExcept (commentText (← attributeOf n "token"))
      else listSlots (write depth .quoted) .comment n
    | .piece k n =>
      if isListed k then listSlots (write depth .quoted) k n
      else
        let parts ← (bracketed k).mapM fun
          | .inl text => pure text
          | .inr name => do write depth .shown (← attributeOf n name)
        let mark ← if k = .array || k = .message then attributeOf n "extensible" else pure .none
        return "<" ++ String.join parts ++ extensibleMark mark.truth ++ ">"
    | c => ofExcept c.plain

/-- **A content in a text.** -/
def shown (c : Content) : Work String := do write (2 * (← depth)) .shown c

/-- **The description** of a content. -/
def quoted (c : Content) : Work String := do write (2 * (← depth)) .quoted c

def shownIfTrue (c : Content) : Work String :=
  if c.truth then shown c else return ""

/-- **A report about a piece.** -/
def failAbout {α : Type} (problem : Problem) (n : Nat) (note : String) : Work α := do
  let file ← shownIfTrue (← attributeOf n "filepath")
  let token ← shown (← attributeOf n "token")
  let line ← shown (← attributeOf n "lineno")
  throw (.report { problem, note, file, token, line := .word line })

end BitSchema.Work
