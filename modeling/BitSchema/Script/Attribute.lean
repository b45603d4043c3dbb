import BitSchema.Script.Kind

/-!
# Members of values

A name after a point asks a value for a member: its own, or one of its type.  A function that is found in a
type is bound to the value.

* `Run.getAttr`, `Run.setAttr` and `Run.deleteAttr` look at, give and take away members.
* `Run.lookUp` looks for a member of a type.
-/

namespace BitSchema.Script

def typeMembers : List (String × String) := [
  ("str", "capitalize casefold center count encode endswith expandtabs find format format_map index " ++
    "isalnum isalpha isascii isdecimal isdigit isidentifier islower isnumeric isprintable isspace istitle " ++
    "isupper join ljust lower lstrip maketrans partition removeprefix removesuffix replace rfind rindex " ++
    "rjust rpartition rsplit rstrip split splitlines startswith strip swapcase title translate upper zfill " ++
    "__add__ __mul__ __rmul__ __mod__ __len__ __contains__ __getitem__ __iter__"),
  ("int", "bit_length bit_count conjugate to_bytes from_bytes as_integer_ratio __add__ __sub__ __mul__ " ++
    "__floordiv__ __mod__ __pow__ __neg__ __abs__ __and__ __or__ __xor__ __lshift__ __rshift__ __invert__ " ++
    "__bool__ __int__ __index__ __float__ __truediv__"),
  ("float", "is_integer conjugate as_integer_ratio hex fromhex __add__ __sub__ __mul__ __truediv__ " ++
    "__floordiv__ __mod__ __pow__ __neg__ __abs__ __bool__ __int__ __float__"),
  ("bytes", "decode hex join split find startswith endswith upper lower strip lstrip rstrip replace count " ++
    "index fromhex title isdigit isalpha __add__ __mul__ __len__ __contains__ __getitem__ __iter__"),
  ("bytearray", "decode hex join split find startswith endswith upper lower strip replace count index " ++
    "fromhex append extend insert pop remove reverse clear copy __add__ __mul__ __len__ __contains__ " ++
    "__getitem__ __setitem__ __delitem__ __iter__ __iadd__"),
  ("list", "append extend insert pop remove reverse sort index count clear copy __add__ __mul__ __len__ " ++
    "__contains__ __getitem__ __setitem__ __delitem__ __iter__ __iadd__"),
  ("tuple", "index count __add__ __mul__ __len__ __contains__ __getitem__ __iter__"),
  ("dict", "get keys values items pop popitem setdefault update clear copy fromkeys __len__ __contains__ " ++
    "__getitem__ __setitem__ __delitem__ __iter__ __or__"),
  ("set", "add remove discard pop clear copy union intersection difference symmetric_difference update " ++
    "issubset issuperset isdisjoint __len__ __contains__ __iter__ __or__ __and__ __sub__ __xor__"),
  ("frozenset", "copy union intersection difference symmetric_difference issubset issuperset isdisjoint " ++
    "__len__ __contains__ __iter__ __or__ __and__ __sub__ __xor__"),
  ("range", "index count __len__ __contains__ __getitem__ __iter__"),
  ("slice", "indices"),
  ("generator", "send throw close __next__ __iter__"),
  ("property", "getter setter deleter"),
  ("type", "mro __call__"),
  ("BaseException", "with_traceback add_note"),
  ("object", "__init__ __new__ __repr__ __str__ __eq__ __ne__ __lt__ __le__ __gt__ __ge__ __hash__ " ++
    "__format__ __setattr__ __getattribute__ __delattr__ __dir__ __sizeof__ __reduce__ __reduce_ex__ " ++
    "__init_subclass__ __subclasshook__ __getstate__")]

def libraryMembers : List (String × String) := [
  ("bp.DataIndexer", "is_valid i index_stack_up index_stack_down index_stack_replace"),
  ("bp.Accessor", "bp_set_byte bp_get_byte bp_get_accessor"),
  ("bp.NilAccessor", "bp_set_byte bp_get_byte bp_get_accessor"),
  ("bp.IntAccessor", "bp_set_byte bp_get_byte bp_get_accessor"),
  ("bp.MessageBase", "to_dict to_json"), ("bp.Processor", "flag process"), ("bp.Bool", "flag process"),
  ("bp.Int", "flag process"), ("bp.Uint", "flag process"), ("bp.Byte", "flag process"),
  ("bp.Array", "flag process"), ("bp.EnumProcessor", "flag process"), ("bp.AliasProcessor", "flag process"),
  ("bp.MessageFieldProcessor", "flag process"), ("bp.MessageProcessor", "flag process")]

def typeWords : List (String × List String) := typeMembers.map fun (type, words) => (type, words.splitOn " ")

def libraryWords : List (String × List String) := libraryMembers.map fun (type, words) => (type, words.splitOn " ")

def toolMember? (type name : String) : Option Val :=
  if ((typeWords.lookup type).getD []).contains name then some (.tool (type ++ "." ++ name))
  else if ((libraryWords.lookup type).getD []).contains name then some (.method (type ++ "." ++ name) [])
  else
    match type, name with
    | "bp.IntAccessor", "data" | "bp.ProcessContext", "i" => some (.int 0)
    | "int", "__doc__" | "str", "__doc__" | "object", "__doc__" => some (.text "")
    | _, _ => none

namespace Run

def ownMember? (t : Val) (name : String) : Run (Option Val) := do
  match t with
  | .tool type => return toolMember? type name
  | .ref k =>
    match ← read k with
    | .classOf c => return c.names.lookup name
    | _ => return none
  | _ => return none

def memberAmong? (name : String) : List Val → Run (Option Val)
  | [] => return none
  | t :: r => do
    match ← ownMember? t name with
    | some v => return some v
    | none => memberAmong? name r

/-- **Looks for a member** of a type. -/
def lookUp (t : Val) (name : String) : Run (Option Val) := do memberAmong? name (← lineOf t)

inductive Wrapper where
  | property | staticMember | classMember
deriving DecidableEq

def wrapped? (v : Val) : Run (Option (Wrapper × Names)) := do
  match ← object? v with
  | some (.thing (.tool "property") names) => return some (.property, names)
  | some (.thing (.tool "staticmethod") names) => return some (.staticMember, names)
  | some (.thing (.tool "classmethod") names) => return some (.classMember, names)
  | _ => return none

def inner (names : Names) : Val := (names.lookup "fget").getD .none

def binds (v : Val) : Run Bool := do
  match v with
  | .method _ _ => return true
  | .tool name => return toolType name == "method_descriptor"
  | .ref k =>
    match ← read k with
    | .function _ => return true
    | _ => return false
  | _ => return false

def bindTo (call : Caller) (self type v : Val) : Run Val := do
  match ← wrapped? v with
  | some (.property, names) => call (inner names) [self] []
  | some (.staticMember, names) => return inner names
  | some (.classMember, names) => return .bound (inner names) type
  | none => return (if ← binds v then .bound v self else v)

def bindToType (type v : Val) : Run Val := do
  match ← wrapped? v with
  | some (.staticMember, names) => return inner names
  | some (.classMember, names) => return .bound (inner names) type
  | _ => return v

def typeTitle (t : Val) : Run (String × String) := do
  match t with
  | .tool name =>
    if name.startsWith "bp." then return ("bitprotolib.bp", lastPart name)
    return ((if name == "Field" then "dataclasses" else "builtins"), name)
  | .ref k =>
    match ← read k with
    | .classOf c => return (c.home, c.title)
    | _ => return ("", "")
  | _ => return ("", "")

def typeSpecial? (t : Val) (name : String) : Run (Option Val) := do
  match name with
  | "__name__" => return some (.text (← typeName t))
  | "__qualname__" => return some (.text (← typeTitle t).2)
  | "__module__" => return some (.text (← typeTitle t).1)
  | "__mro__" => return some (.tuple (← lineOf t))
  | "__bases__" =>
    match ← object? t with
    | some (.classOf c) => return some (.tuple c.bases)
    | _ => return some (.tuple ((← lineOf t).drop 1 |>.take 1))
  | "__base__" => return (← lineOf t).drop 1 |>.head?
  | "__class__" => return some (.tool "type")
  | "__doc__" => return some .none
  | "__dict__" =>
    match t with
    | .ref k => return some (← alloc (.frame (← namesOf k)))
    | _ => beyond
  | _ => return none

def functionMember? (f : Val) (name : String) : Run (Option Val) := do
  match ← object? f, name with
  | some (.function f), "__name__" => return some (.text f.name)
  | some (.function f), "__qualname__" => return some (.text f.title)
  | some (.function f), "__doc__" => return some f.doc
  | some (.function f), "__module__" =>
    match ← read f.unit with
    | .unit home _ => return some (.text home)
    | _ => return none
  | _, _ =>
    match f, name with
    | .tool tool, "__name__" => return some (.text (lastPart tool))
    | .method tool _, "__name__" => return some (.text (lastPart tool))
    | .tool tool, "__qualname__" => return some (.text tool)
    | .tool _, "__doc__" => return some .none
    | _, _ => return none

def lacks {α : Type} (v : Val) (name : String) : Run α := do
  if ← isTypeValue v then
    fail "AttributeError" ("type object '" ++ (← typeName v) ++ "' has no attribute '" ++ name ++ "'")
  match v with
  | .ref k =>
    match ← read k with
    | .unit home _ =>
      if (← get).busy.contains k then
        fail "AttributeError" ("partially initialized module '" ++ home ++ "' has no attribute '" ++ name ++
          "' (most likely due to a circular import)")
      fail "AttributeError" ("module '" ++ home ++ "' has no attribute '" ++ name ++ "'")
    | _ => pure ()
  | _ => pure ()
  fail "AttributeError" ("'" ++ (← kindWord v) ++ "' object has no attribute '" ++ name ++ "'")

def plainMember? (v : Val) (name : String) : Option Val :=
  match v, name with
  | .int n, "real" | .int n, "numerator" => some (.int n)
  | .int _, "imag" => some (.int 0)
  | .int _, "denominator" => some (.int 1)
  | .bool b, "real" | .bool b, "numerator" => some (.int (if b then 1 else 0))
  | .bool _, "imag" => some (.int 0)
  | .bool _, "denominator" => some (.int 1)
  | .float x, "real" => some (.float x)
  | .float _, "imag" => some (.float 0)
  | .span a _ _, "start" => some (.int a)
  | .span _ b _, "stop" => some (.int b)
  | .span _ _ c, "step" => some (.int c)
  | .slice a _ _, "start" => some a
  | .slice _ b _, "stop" => some b
  | .slice _ _ c, "step" => some c
  | .problem _ args, "args" => some (.tuple args)
  | .problem _ _, "__cause__" | .problem _ _, "__context__" | .problem _ _, "__traceback__" => some .none
  | .problem _ (v :: _), "value" | .problem _ (v :: _), "code" => some v
  | .bound _ self, "__self__" => some self
  | .bound f _, "__func__" => some f
  | .generic origin _, "__origin__" => some origin
  | .generic _ params, "__args__" => some (.tuple params)
  | _, _ => none

/-- **The member of a value.** -/
def getAttr (call : Caller) (v : Val) (name : String) : Run Val := do
  if ← isTypeValue v then
    match ← lookUp v name with
    | some m => return ← bindToType v m
    | none => pure ()
    match ← typeSpecial? v name with
    | some m => return m
    | none => pure ()
    match ← lookUp (.tool "type") name with
    | some m => return .bound m v
    | none => lacks v name
  let type ← typeOf v
  let found ← lookUp type name
  match found with
  | some m =>
    match ← wrapped? m with
    | some (.property, _) => return ← bindTo call v type m
    | _ => pure ()
  | none => pure ()
  match v with
  | .ref k =>
    match (← namesOf k).lookup name with
    | some m => return m
    | none => pure ()
  | _ => pure ()
  match plainMember? v name with
  | some m => return m
  | none => pure ()
  match ← functionMember? v name with
  | some m => return m
  | none => pure ()
  match v with
  | .bound f _ =>
    match ← functionMember? f name with
    | some m => return m
    | none => pure ()
  | _ => pure ()
  match found with
  | some m => return ← bindTo call v type m
  | none => pure ()
  match name, v with
  | "__class__", _ => return type
  | "__dict__", .ref k =>
    match ← read k with
    | .thing _ names | .unit _ names =>
      alloc (.dict (names.toArray.map fun (n, v) => (.text n, v)))
    | _ => lacks v name
  | "__doc__", _ => return ((← typeSpecial? type name).getD .none)
  | "__module__", .ref k =>
    match ← read k with
    | .thing _ _ => return ((← typeSpecial? type name).getD .none)
    | _ => lacks v name
  | _, _ =>
    match ← lookUp type "__getattr__" with
    | some f => call f [v, .text name] []
    | none => lacks v name

def attr? (call : Caller) (v : Val) (name : String) : Run (Option Val) :=
  tryCatch (some <$> getAttr call v name) fun e => do
    match e with
    | .raised p => if ← belongs p (.tool "AttributeError") then return none else throw e
    | e => throw e

/-- **Gives a value a member.** -/
def setAttr (call : Caller) (v : Val) (name : String) (x : Val) : Run Unit := do
  match v with
  | .ref k =>
    match ← read k with
    | .thing type _ =>
      match ← lookUp type "__setattr__" with
      | some (.tool _) | none =>
        match ← lookUp type name with
        | some m =>
          match ← wrapped? m with
          | some (.property, names) =>
            match names.lookup "fset" with
            | some f => let _ ← call f [v, x] []; return
            | none =>
              fail "AttributeError" ("property '" ++ name ++ "' of '" ++ (← kindWord v) ++
                "' object has no setter")
          | _ => changeNames k (·.put name x)
        | none => changeNames k (·.put name x)
      | some f => let _ ← call f [v, .text name, x] []
    | .unit _ _ | .classOf _ => changeNames k (·.put name x)
    | .function _ => pure ()
    | _ => lacks v name
  | .tool type =>
    if isType type then
      mismatch ("cannot set '" ++ name ++ "' attribute of immutable type '" ++ lastPart type ++ "'")
    else lacks v name
  | _ => lacks v name

/-- **Takes a member away from a value.** -/
def deleteAttr (v : Val) (name : String) : Run Unit := do
  match v with
  | .ref k =>
    if ((← namesOf k).lookup name).isSome then changeNames k (·.without name)
    else
      match ← read k with
      | .classOf c =>
        fail "AttributeError" ("type object '" ++ c.name ++ "' has no attribute '" ++ name ++ "'")
      | _ => lacks v name
  | _ => lacks v name

end Run

end BitSchema.Script
