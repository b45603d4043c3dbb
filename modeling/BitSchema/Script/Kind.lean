import BitSchema.Script.Value

/-!
# Kinds of values

Every value belongs to a type, which has a name and stands below other types.  `Run.typeOf` gives the type of
a value, `Run.lineOf` the types in which a name is looked up, and `Run.kindWord` the word for a value's type.
-/

namespace BitSchema.Script

/-! ### Types of the language and its library -/

def problemKinds : List (String × String) := [
  ("BaseException", "object"), ("Exception", "BaseException"), ("SystemExit", "BaseException"),
  ("KeyboardInterrupt", "BaseException"), ("GeneratorExit", "BaseException"),
  ("StopIteration", "Exception"), ("StopAsyncIteration", "Exception"), ("ArithmeticError", "Exception"),
  ("FloatingPointError", "ArithmeticError"), ("OverflowError", "ArithmeticError"),
  ("ZeroDivisionError", "ArithmeticError"), ("AssertionError", "Exception"),
  ("AttributeError", "Exception"), ("BufferError", "Exception"), ("EOFError", "Exception"),
  ("ImportError", "Exception"), ("ModuleNotFoundError", "ImportError"), ("LookupError", "Exception"),
  ("IndexError", "LookupError"), ("KeyError", "LookupError"), ("MemoryError", "Exception"),
  ("NameError", "Exception"), ("UnboundLocalError", "NameError"), ("OSError", "Exception"),
  ("FileNotFoundError", "OSError"), ("FileExistsError", "OSError"), ("PermissionError", "OSError"),
  ("IsADirectoryError", "OSError"), ("NotADirectoryError", "OSError"), ("TimeoutError", "OSError"),
  ("ConnectionError", "OSError"), ("ReferenceError", "Exception"), ("RuntimeError", "Exception"),
  ("NotImplementedError", "RuntimeError"), ("RecursionError", "RuntimeError"),
  ("SyntaxError", "Exception"), ("IndentationError", "SyntaxError"), ("TabError", "IndentationError"),
  ("SystemError", "Exception"), ("TypeError", "Exception"), ("ValueError", "Exception"),
  ("UnicodeError", "ValueError"), ("UnicodeDecodeError", "UnicodeError"),
  ("UnicodeEncodeError", "UnicodeError"), ("Warning", "Exception"), ("UserWarning", "Warning"),
  ("DeprecationWarning", "Warning"), ("SyntaxWarning", "Warning"), ("RuntimeWarning", "Warning"),
  ("bp.Error", "Exception"), ("bp.NotEnoughBytes", "bp.Error")]

def plainTypes : List (String × String) := [
  ("bool", "int"), ("int", "object"), ("float", "object"), ("complex", "object"), ("str", "object"),
  ("bytes", "object"), ("bytearray", "object"), ("list", "object"), ("tuple", "object"), ("dict", "object"),
  ("set", "object"), ("frozenset", "object"), ("range", "object"), ("slice", "object"), ("type", "object"),
  ("property", "object"), ("staticmethod", "object"), ("classmethod", "object"), ("super", "object"),
  ("enumerate", "object"), ("zip", "object"), ("map", "object"), ("filter", "object"),
  ("reversed", "object"), ("memoryview", "object"), ("NoneType", "object"), ("ellipsis", "object"),
  ("NotImplementedType", "object"), ("function", "object"), ("builtin_function_or_method", "object"),
  ("method", "object"), ("method_descriptor", "object"), ("module", "object"), ("generator", "object"),
  ("mappingproxy", "object"), ("_GenericAlias", "object"), ("GenericAlias", "object"), ("_SpecialForm", "object"),
  ("_SpecialGenericAlias", "object"), ("Field", "object"), ("_MISSING_TYPE", "object"), ("_Feature", "object"),
  ("bp.ProcessContext", "object"), ("bp.DataIndexer", "object"), ("bp.Accessor", "object"),
  ("bp.NilAccessor", "bp.Accessor"), ("bp.IntAccessor", "bp.Accessor"), ("bp.MessageBase", "bp.Accessor"),
  ("bp.Processor", "object"), ("bp.Bool", "bp.Processor"), ("bp.Int", "bp.Processor"),
  ("bp.Uint", "bp.Processor"), ("bp.Byte", "bp.Processor"), ("bp.Array", "bp.Processor"),
  ("bp.EnumProcessor", "bp.Processor"), ("bp.AliasProcessor", "bp.Processor"),
  ("bp.MessageFieldProcessor", "bp.Processor"), ("bp.MessageProcessor", "bp.Processor")]

def typeAbove? (name : String) : Option String :=
  match problemKinds.lookup name with
  | some above => some above
  | none => plainTypes.lookup name

def isType (name : String) : Bool := name == "object" || (typeAbove? name).isSome

def knownTypes : List String := [
  "int", "bool", "float", "complex", "str", "bytes", "bytearray", "list", "tuple", "dict", "set",
  "frozenset", "range", "slice", "type", "property", "staticmethod", "classmethod", "super", "enumerate",
  "zip", "map", "filter", "reversed", "memoryview", "object"]

def knownFunctions : List String := [
  "abs", "all", "any", "ascii", "bin", "callable", "chr", "delattr", "dir", "divmod", "format", "getattr",
  "globals", "hasattr", "hash", "hex", "id", "isinstance", "issubclass", "iter", "len", "locals", "max",
  "min", "next", "oct", "ord", "pow", "print", "repr", "round", "setattr", "sorted", "sum", "vars",
  "eval", "exec", "compile", "open", "input", "exit", "quit", "breakpoint", "help", "__import__",
  "aiter", "anext", "copyright", "credits", "license", "__build_class__"]

/-- **What a name means in every script.** -/
def known? (name : String) : Option Val :=
  match name with
  | "Ellipsis" => some .ellipsis
  | "NotImplemented" => some .notImplemented
  | "__debug__" => some (.bool true)
  | "EnvironmentError" | "IOError" => some (.tool "OSError")
  | name =>
    if knownTypes.contains name || knownFunctions.contains name ||
        ((problemKinds.lookup name).isSome && !name.toList.contains '.') then some (.tool name)
    else none

def lastPart (name : String) : String := ((name.splitOn ".").getLast?).getD name

namespace Run

/-! ### Types of values -/

def toolType (name : String) : String :=
  if isType name then "type"
  else if name == "typing.ClassVar" then "_SpecialForm"
  else if name.startsWith "typing." then "_SpecialGenericAlias"
  else if name.startsWith "__future__." then "_Feature"
  else if name == "dataclasses.MISSING" then "_MISSING_TYPE"
  else if ["dataclasses.field", "dataclasses.dataclass", "json.dumps", "json.loads", "bp.int8", "bp.int16",
      "bp.int32", "bp.int64", "dataclasses.asdict"].contains name then "function"
  else if name.startsWith "bp." then "function"
  else if knownFunctions.contains name || name.startsWith "math." || name.startsWith "os." then
    "builtin_function_or_method"
  else "method_descriptor"

/-- **The type of a value.** -/
def typeOf (v : Val) : Run Val := do
  match v with
  | .none => return .tool "NoneType"
  | .ellipsis => return .tool "ellipsis"
  | .notImplemented => return .tool "NotImplementedType"
  | .bool _ => return .tool "bool"
  | .int _ => return .tool "int"
  | .float _ => return .tool "float"
  | .text _ => return .tool "str"
  | .bytes _ => return .tool "bytes"
  | .tuple _ => return .tool "tuple"
  | .slice _ _ _ => return .tool "slice"
  | .span _ _ _ => return .tool "range"
  | .tool name => return .tool (toolType name)
  | .method _ _ => return .tool "function"
  | .bound (.tool _) _ => return .tool "builtin_function_or_method"
  | .bound _ _ => return .tool "method"
  | .generic (.tool name) _ => return .tool (if name.startsWith "typing." then "_GenericAlias" else "GenericAlias")
  | .generic _ _ => return .tool "_GenericAlias"
  | .problem kind _ => return kind
  | .ref k =>
    match ← read k with
    | .list _ => return .tool "list"
    | .bytearray _ => return .tool "bytearray"
    | .dict _ => return .tool "dict"
    | .set _ frozen => return .tool (if frozen then "frozenset" else "set")
    | .function _ => return .tool "function"
    | .classOf _ => return .tool "type"
    | .thing kind _ => return kind
    | .unit _ _ => return .tool "module"
    | .frame _ => return .tool "mappingproxy"
    | .iterator _ => return .tool "generator"

def typeName (t : Val) : Run String := do
  match t with
  | .tool name => return lastPart name
  | .ref k =>
    match ← read k with
    | .classOf c => return c.name
    | _ => return "object"
  | _ => return "object"

def kindWord (v : Val) : Run String := do typeName (← typeOf v)

def toolLine : Nat → String → List Val
  | 0, _ => []
  | n + 1, name =>
    .tool name ::
      match typeAbove? name with
      | some above => toolLine n above
      | none => []

/-- **The types in which a name is looked up**, from a type upwards. -/
def lineOf (t : Val) : Run (List Val) := do
  match t with
  | .tool name => return toolLine 10 name
  | .ref k =>
    match ← read k with
    | .classOf c => return t :: c.line
    | _ => return []
  | _ => return []

def sameType : Val → Val → Bool
  | .tool a, .tool b => a == b
  | .ref j, .ref k => j == k
  | _, _ => false

def isBelow (t above : Val) : Run Bool := do return (← lineOf t).any (sameType above)

def belongs (v above : Val) : Run Bool := do isBelow (← typeOf v) above

def isTypeValue (v : Val) : Run Bool := do
  match v with
  | .tool name => return isType name
  | .ref k =>
    match ← read k with
    | .classOf _ => return true
    | _ => return false
  | _ => return false

def same : Val → Val → Bool
  | .none, .none | .ellipsis, .ellipsis | .notImplemented, .notImplemented => true
  | .bool a, .bool b => a == b
  | .int a, .int b => a == b
  | .text a, .text b => a == b
  | .bytes a, .bytes b => a == b
  | .tuple [], .tuple [] => true
  | .tool a, .tool b => a == b
  | .ref a, .ref b => a == b
  | _, _ => false

end Run

end BitSchema.Script
