import BitSchema.Loading.Object
import BitSchema.Loading.Written
import BitSchema.Script.Token

/-!
# Ordinary modules

Names, texts and comments of a schema stand in the module that is written for it.  In an ordinary module none of
them can be taken for anything else: no name is a word of the language or one that the module uses in its own
sense, no name is given twice, no text ends before its last quote, and no comment has quotes.  Its imports lead to
the modules of the imported files.  What such a module does is known without carrying it out.
-/

namespace BitSchema.Loading

open PythonLibrary

/-! ### Names -/

/-- Names that every module uses outside its classes or inside their functions. -/
def moduleWords : List String := [
  "bp", "json", "List", "Dict", "ClassVar", "field", "dataclass", "int", "bool", "str", "bytearray", "range",
  "len", "self", "di", "lshift", "rshift", "b", "s", "ctx", "field_processors"]

/-- Names that the class of a message uses. -/
def classWords : List String := memberNames ++ ["bp", "List", "ClassVar", "field", "int", "bool", "bytearray"]

def isPlainName (name : String) : Bool :=
  (match name.toList with
    | [] => false
    | c :: r => c.isAlpha && r.all fun c => c.isAlphanum || c = '_') &&
  !Script.keywords.contains name

def allDifferent : List String → Bool
  | [] => true
  | n :: r => !r.contains n && allDifferent r

/-! ### Texts and comments -/

def staysQuoted : List Char → Bool
  | [] => true
  | '\\' :: c :: r => c != '\n' && staysQuoted r
  | c :: r => c != '"' && c != '\\' && c != '\n' && staysQuoted r

def quietComments (d : Def) : Bool :=
  d.header.comments.all fun c => (commentContent c.source).toList.all fun c => c != '"' && c != '\\'

/-! ### Types -/

/-- Whether a type belongs to the file itself or to a file that it imports. -/
def isNear : Ty → Bool
  | .array _ element _ _ => isNear element
  | .named d => (d.header.scopes.filter fun s => s.kind == .proto).length ≤ 2
  | _ => true

namespace Written

def names (w : Written) : Except Fault (List String × List String) := do
  let found ← (← w.file.ownDefinitions).mapM fun d => do
    match d with
    | .enum _ _ _ _ =>
      return ((← Dialect.python.enumName w.env d) :: (← d.enumFields.mapM (Dialect.python.ownName w.env)),
        [← nameMap w.env d, ← processorName w.env d])
    | .typeAlias _ _ =>
      return ([← Dialect.python.ownName w.env d], [← processorName w.env d, ← aliasFactory w.env d])
    | .message _ _ _ => return ([← Dialect.python.ownName w.env d], [])
    | .constant _ _ _ => return ([← Dialect.python.ownName w.env d], [])
    | _ => return ([], [])
  return (w.file.imports.map (·.1) ++ found.flatMap (·.1), found.flatMap (·.2))

def isOrdinaryDefinition (names : List String) : Def → Bool
  | .constant _ _ (.str s) => staysQuoted s.toList && (Text.unescape s.toList).isOk
  | .typeAlias _ target => isNear target
  | .message h ext ms =>
    let d := Def.message h ext ms
    let fields := d.fields.map Def.name
    quietComments d && allDifferent fields && (d.fields.all fun f => isNear (f.ty?.getD default)) &&
      fields.all fun n => isPlainName n && !classWords.contains n && !names.contains n
  | _ => true

def isOrdinaryImport (file : Def) : Bool :=
  match Dialect.pythonModule file with
  | .ok path => path == file.outputName "" && isPlainName path
  | .error _ => false

/-- **Whether a module is ordinary.** -/
def isOrdinary (w : Written) : Bool :=
  match w.names, w.file.ownDefinitions with
  | .ok (names, own), .ok ds =>
    (names.all fun n => isPlainName n && !moduleWords.contains n) && allDifferent (names ++ own) &&
      ds.all (isOrdinaryDefinition names) && quietComments w.file &&
      w.file.imports.all (fun i => isOrdinaryImport i.2) && !w.name.toList.contains '.' &&
      w.text.toList.all fun c => c != '\r' && c.toNat != 0
  | _, _ => false

end Written

end BitSchema.Loading
