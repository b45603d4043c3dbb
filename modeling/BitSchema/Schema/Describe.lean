import BitSchema.Schema.Members

/-!
# Short descriptions

How types and definitions are named in diagnostics, such as `<type uint3>` or `<message Order'>`.  A
quote marks what is extensible.  Types that are not determined, and options and constants with a
known kind of value, are described by all their attributes (`Env.shown`).
-/

namespace BitSchema

open Text

def extensibleMark (ext : Bool) : String := if ext then "'" else ""

/-- A truth value in a description. -/
def shownBool (b : Bool) : String := if b then "True" else "False"

/-- A description by attributes: `Kind(attribute=value, …)`. -/
def listAttributes (kind : String) (attributes : List (String × String)) : String :=
  kind ++ "(" ++ ", ".intercalate (attributes.map fun a => a.1 ++ "=" ++ a.2) ++ ")"

/-- Several descriptions in parentheses; a single one is followed by a comma. -/
def listShown : List String → String
  | [x] => "(" ++ x ++ ",)"
  | xs => "(" ++ ", ".intercalate xs ++ ")"

namespace Origin

def attributes (o : Origin) : List (String × String) :=
  [("token", quote o.token), ("lineno", toString o.line), ("filepath", quote o.file)]

end Origin

namespace Comment

def shown (c : Comment) : String :=
  listAttributes "Comment" (Origin.attributes ⟨c.source, c.line, c.file⟩)

end Comment

mutual

/-- The short description of a type. -/
def Ty.shown : Ty → String
  | .unknown o missing =>
    listAttributes "Type" (o.attributes ++ [("_is_missing", shownBool missing)])
  | .bool _ => "<type bool>"
  | .byte _ => "<byte>"
  | .uint _ cap => "<type uint" ++ toString cap ++ ">"
  | .int _ cap => "<type int" ++ toString cap ++ ">"
  | .array _ element cap ext =>
    "<type array (" ++ element.shown ++ ", cap=" ++ toString cap ++ ")" ++ extensibleMark ext ++ ">"
  | .named d => d.shown

/-- The short description of a definition. -/
def Def.shown : Def → String
  | .option h _ v => "<option " ++ h.name ++ "=" ++ v.shown ++ ">"
  | .constant h _ v => "<constant " ++ h.name ++ "=" ++ v.shown ++ ">"
  | .typeAlias h _ => "<alias " ++ h.name ++ ">"
  | .enum h _ _ _ => "<enum " ++ h.name ++ ">"
  | .enumField h v => "<enum-field " ++ h.name ++ "=" ++ toString v ++ ">"
  | .message h ext _ => "<message " ++ h.name ++ extensibleMark ext ++ ">"
  | .field h _ n => "<message-field " ++ h.name ++ "=" ++ toString n ++ ">"
  | .proto h _ => "<bitproto " ++ h.name ++ ">"

end

def Literal.attribute : Literal → String
  | .str s => quote s
  | v => v.shown

namespace Env

/-- The short description of the scope with the given serial number. -/
def scopeShown (env : Env) (id : Nat) : String :=
  match env.scope? id with
  | some d => d.shown
  | none => ""

def attributes (env : Env) (h : Header) : List (String × String) :=
  h.origin.attributes ++
    [("name", quote h.name),
     ("scope_stack", listShown (h.scopes.map fun s => env.scopeShown s.id)),
     ("comment_block", listShown (h.comments.map Comment.shown)),
     ("indent", toString h.indent),
     ("_bound", (h.bound.map env.scopeShown).getD "None")]

/-- **Description** of a definition. -/
def shown (env : Env) : Def → String
  | .option h (some k) v =>
    listAttributes (optionKind (some k)).label (env.attributes h ++ [("value", v.attribute)])
  | .constant h (some k) v =>
    listAttributes (constantKind (some k)).label (env.attributes h ++ [("value", v.attribute)])
  | d => d.shown

/-- Description of a type or definition. -/
def shownNode (env : Env) : Ty → String
  | .named d => env.shown d
  | t => t.shown

/-- The node itself, if it is of the wanted kind. -/
def require (env : Env) (k : Kind) (t : Ty) : Except Fault Ty :=
  if t.isA k then .ok t
  else .error (.wrongKind (env.shownNode t) ("<class 'bitproto._ast." ++ k.label ++ "'>"))

end Env

end BitSchema
