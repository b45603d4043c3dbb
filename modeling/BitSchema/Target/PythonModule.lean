import BitSchema.Target.Plan
import BitSchema.Target.Types

/-!
# Python modules

The Python module of a schema file: enums as constants with a map of names, messages as classes whose
fields the library reaches byte by byte.  Aliases and messages have default factories, since a default
value must not be shared.
-/

namespace BitSchema

open Text

namespace PythonLibrary

def boolText (b : Bool) : String := if b then "True" else "False"

/-! ### Default values -/

def aliasFactory (env : Env) (d : Def) : Except Fault String :=
  Dialect.python.derivedName env d (fun n => .ok (s!"bp_default_factory_{n}")) none

def messageFactory (env : Env) (d : Def) : Except Fault String := Dialect.python.messageType env d

def arrayDefault (element : Ty) (cap : Nat) (inner : Except Fault String) : Except Fault String :=
  match element with
  | .byte _ => .ok s!"bytearray({cap})"
  | _ => do
    let value ← inner
    return s!"[{value} for _ in range({cap})]"

/-- **The default value of a type.** -/
def defaultValue (env : Env) : Ty → Except Fault String
  | .bool _ => .ok "False"
  | .byte _ => .ok "bp.byte(0)"
  | .uint _ _ => .ok "0"
  | .int _ _ => .ok "0"
  | .array _ element cap _ => arrayDefault element cap (defaultValue env element)
  | .named d =>
    match d with
    | .enum _ _ _ _ => .ok "0"
    | .message _ _ _ => do return (← messageFactory env d) ++ "()"
    | .typeAlias _ _ => do return (← aliasFactory env d) ++ "()"
    | d => .error (.internal ("format_default_value got unexpected type " ++ env.shown d))
  | .unknown o m =>
    .error (.internal ("format_default_value got unexpected type " ++ (Ty.unknown o m).shown))

def hasDefault : Ty → Bool
  | .unknown _ _ => false
  | .named (.enum _ _ _ _) => true
  | .named (.message _ _ _) => true
  | .named (.typeAlias _ _) => true
  | .named _ => false
  | _ => true

def defaultValueOf (env : Env) (described : Except Fault String) (node : Ty) : Except Fault String :=
  if hasDefault node then defaultValue env node
  else do throw (.internal ("format_default_value got unexpected type " ++ (← described)))

def madeBy (factory : String) : String := s!"field(default_factory={factory})"

def arrayFactory (env : Env) (t : Ty) : Except Fault String := do
  return "lambda: " ++ (← defaultValue env t)

def fieldDefaultOf (env : Env) (described : Except Fault String) (node : Ty) : Except Fault String :=
  match node with
  | .bool _ => .ok "False"
  | .byte _ => .ok "bp.byte(0)"
  | .uint _ _ => .ok "0"
  | .int _ _ => .ok "0"
  | .array _ _ _ _ => madeBy <$> arrayFactory env node
  | .named (.enum _ _ _ _) => .ok "0"
  | .named (.message h e ms) => madeBy <$> messageFactory env (.message h e ms)
  | .named (.typeAlias h target) => madeBy <$> aliasFactory env (.typeAlias h target)
  | _ => do throw (.internal ("format_field_default_value got unexpected type " ++ (← described)))

/-- **The default value of a field.** -/
def fieldDefault (env : Env) (t : Ty) : Except Fault String :=
  fieldDefaultOf env (.ok (env.shownNode t)) t

/-! ### Processors -/

def processorName (env : Env) (d : Def) : Except Fault String :=
  Dialect.python.derivedName env d (fun n => .ok (s!"bp_processor_{n}")) none

def intProcessor (t : Ty) : String := s!"bp.Int({t.nbits})"

def uintProcessor (t : Ty) : String := s!"bp.Uint({t.nbits})"

def messageProcessor (env : Env) (d : Def) : Except Fault String := do
  return (← Dialect.python.ownName env d) ++ "().bp_processor()"

/-- **The processor of a type.** -/
def processor (env : Env) : Ty → Except Fault String
  | .bool _ => .ok "bp.Bool()"
  | .byte _ => .ok "bp.Byte()"
  | .int o cap => .ok (intProcessor (.int o cap))
  | .uint o cap => .ok (uintProcessor (.uint o cap))
  | .array _ element cap ext => do
    let inner ← processor env element
    return s!"bp.Array({boolText ext}, {cap}, {inner})"
  | .named d =>
    match d with
    | .enum _ _ _ _ => do return (← processorName env d) ++ "()"
    | .typeAlias _ _ => do return (← processorName env d) ++ "()"
    | .message _ _ _ => messageProcessor env d
    | _ => .error (.internal "format_bp_type got unexpected t")
  | .unknown _ _ => .error (.internal "format_bp_type got unexpected t")

def nameMap (env : Env) (d : Def) : Except Fault String := do
  let name ← Dialect.python.enumName env d
  return upperCase s!"_{name}_VALUE_TO_NAME_MAP"

end PythonLibrary

namespace PythonModule

open PythonLibrary

/-! ### Imports -/

def generalImports : Block :=
  .ofLines [
    .of "import json",
    .of "from dataclasses import dataclass, field",
    .of "from typing import ClassVar, Dict, List",
    .of "",
    .of "from bitprotolib import bp"]

def imports (file : Def) : Except Fault Block := do
  return .stacked (← file.imports.mapM fun m => do
    return .ofLines [.of (← Dialect.python.importStatement m.2 (some m.1))])

/-! ### Aliases, constants and enums -/

def giving (signature value : String) : Block :=
  .ofLines [.of s!"def {signature}:", .inset 4 s!"return {value}"]

def typeAlias (env : Env) (d : Def) (target : Ty) : Except Fault Block := do
  let name ← Dialect.python.ownName env d
  let type ← Dialect.python.typeText env (some name) target
  let processorName ← processorName env d
  let inner ← processor env target
  let factory ← aliasFactory env d
  let value ← defaultValue env target
  return .paragraphs [
    .ofLines (Line.comments d none ++ [.of s!"{name} = {type}", .bitsOf env d]),
    giving s!"{processorName}() -> bp.Processor" s!"bp.AliasProcessor({inner})",
    giving s!"{factory}() -> {name}" value]

def constant (env : Env) (d : Def) : Except Fault Block := do
  let name ← Dialect.python.ownName env d
  let type ← Dialect.python.constantType env (.named d)
  let value ← Dialect.python.literal (d.literal?.getD (.int 0))
  return .ofLines (Line.comments d none ++ [.of s!"{name}: {type} = {value}"])

def enumField (env : Env) (d : Def) : Except Fault Block := do
  let name ← Dialect.python.ownName env d
  let type ← Dialect.python.enumType env (← env.enumOf d)
  return .ofLines (Line.comments d none ++ [.of s!"{name}: {type} = {d.value}"])

def nameEntry (env : Env) (d : Def) : Except Fault Block := do
  let name ← Dialect.python.ownName env d
  return .lines 4 [.of s!"{d.value}: \"{name}\","]

def enum (env : Env) (d : Def) (type : Ty) : Except Fault Block := do
  let name ← Dialect.python.enumName env d
  let fields ← d.enumFields.mapM (enumField env)
  let entries ← d.enumFields.mapM (nameEntry env)
  let map ← nameMap env d
  let processorName ← processorName env d
  return .paragraphs [
    .around 0 (Line.comments d none ++ [.of s!"{name} = int", .bitsOf env d])
      (some (.stacked fields)) [],
    .around 0 [.of s!"{map}: Dict[{name}, str] = \x7b"] (some (.stacked entries)) [.of "\x7d"],
    giving s!"{processorName}() -> bp.Processor" s!"bp.EnumProcessor({uintProcessor type})"]

/-! ### Fields of messages -/

def field (env : Env) (d : Def) (t : Ty) : Except Fault Block := do
  let name ← Dialect.python.fieldName d
  let type ← Dialect.python.typeText env (some name) t
  let value ← fieldDefault env t
  return .lines 4 (Line.comments d none ++ [.of s!"{name}: {type} = {value}", .bitsOf env d])

/-- A field behind `depth` arrays. -/
def fieldReference (name : String) (depth : Nat) : String :=
  s!"self.{name}" ++ String.join ((List.range depth).map fun k => s!"[di.i({k})]")

mutual

/-- What is behind the arrays and aliases of a type, and the number of arrays. -/
def coreOf (depth : Nat) : Ty → Ty × Nat
  | .array _ element _ _ => coreOf (depth + 1) element
  | .named d => coreOfDef depth d
  | t => (t, depth)

def coreOfDef (depth : Nat) : Def → Ty × Nat
  | .typeAlias _ target => coreOf depth target
  | d => (.named d, depth)

end

def fieldCase (number : Nat) (statement : String) : List Line :=
  [.of s!"if di.field_number == {number}:", .inset 12 statement]

/-- The case of a field in the method that sets a byte; none if the field holds messages. -/
def setByteCase (env : Env) (d : Def) (t : Ty) : Except Fault (List Line) := do
  let (core, depth) := coreOf 0 t
  if !core.isA .singleType then return []
  let left := fieldReference (← Dialect.python.fieldName d) depth
  let type ← Dialect.python.typeText env none core
  match core with
  | .bool _ => return fieldCase d.number s!"{left} = bool(b)"
  | .int _ _ =>
    let width ← Dialect.integerBits core
    return fieldCase d.number s!"{left} |= bp.int{width}(({type}(b) << lshift))"
  | _ => return fieldCase d.number s!"{left} |= ({type}(b) << lshift)"

/-- The case of a field in the method that gives a byte; none if the field holds messages. -/
def getByteCase (d : Def) (t : Ty) : Except Fault (List Line) := do
  let (core, depth) := coreOf 0 t
  if !core.isA .singleType then return []
  let data := fieldReference (← Dialect.python.fieldName d) depth
  let value := match core with
    | .bool _ => s!"int({data})"
    | _ => data
  return fieldCase d.number s!"return ({value} >> rshift) & 255"

/-- The case of a field in the method that enters a message; none if the field holds no messages. -/
def accessorCase (d : Def) (t : Ty) : Except Fault (List Line) := do
  let (core, depth) := coreOf 0 t
  if !core.isA .message then return []
  return fieldCase d.number ("return " ++ fieldReference (← Dialect.python.fieldName d) depth)

/-! ### Messages -/

def caseMethod (signature : String) (cases : List (List Line)) (last : String) : Block :=
  .around 4 [.of s!"def {signature}:"]
    (some (.stacked (cases.map (Block.lines 8) ++ [.lines 8 [.of last]]))) []

def processorMethod (env : Env) (d : Def) : Except Fault Block := do
  let fields ← d.forFields fun f t => do
    let inner ← processor env t
    return Block.lines 12 [.of s!"bp.MessageFieldProcessor({f.number}, {inner}),"]
  let close := if d.fields.isEmpty then Line.tail "]" "" else .inset 8 "]"
  return .around 4 [
      .of "def bp_processor(self) -> bp.Processor:",
      .inset 8 "field_processors: List[bp.Processor] = ["]
    (some (.stacked fields)) [
      close,
      .inset 8 s!"return bp.MessageProcessor({boolText d.ext}, {d.nbits}, field_processors)"]

def encodeMethod : Block :=
  .lines 4 [
    .of "def encode(self) -> bytearray:",
    .doc ["Encode this object to bytearray."] (some 8),
    .inset 8 "s = bytearray(self.BYTES_LENGTH)",
    .inset 8 "ctx = bp.ProcessContext(True, s)",
    .inset 8 "self.bp_processor().process(ctx, bp.NIL_DATA_INDEXER, self)",
    .inset 8 "return ctx.s"]

def decodeMethod : Block :=
  .lines 4 [
    .of "def decode(self, s: bytearray) -> None:",
    .doc ["Decode given bytearray s to this object.",
          ":param s: A bytearray with length at least `BYTES_LENGTH`."] (some 8),
    .inset 8 "assert len(s) >= self.BYTES_LENGTH, bp.NotEnoughBytes()",
    .inset 8 "ctx = bp.ProcessContext(False, s)",
    .inset 8 "self.bp_processor().process(ctx, bp.NIL_DATA_INDEXER, self)"]

def message (env : Env) (d : Def) : Except Fault Block := do
  let name ← Dialect.python.ownName env d
  let nbytes ← d.nbytes
  let fields ← d.forFields (field env)
  return .paragraphs [
    .around 0 [
        .of "@dataclass",
        .of s!"class {name}(bp.MessageBase):",
        .docOf d (some 4)]
      (some (.paragraphs [
        .lines 4 [
          .comment s!"Number of bytes to serialize class {name}" none,
          .of s!"BYTES_LENGTH: ClassVar[int] = {nbytes}"],
        .stacked fields])) [],
    ← processorMethod env d,
    caseMethod "bp_set_byte(self, di: bp.DataIndexer, lshift: int, b: bp.byte) -> None"
      (← d.forFields (setByteCase env)) "return",
    caseMethod "bp_get_byte(self, di: bp.DataIndexer, rshift: int) -> bp.byte"
      (← d.forFields getByteCase) "return bp.byte(0)  # Won't reached",
    caseMethod "bp_get_accessor(self, di: bp.DataIndexer) -> bp.Accessor"
      (← d.forFields accessorCase) "return bp.NilAccessor() # Won't reached",
    encodeMethod,
    decodeMethod]

/-! ### The file -/

def definition (env : Env) (d : Def) : Except Fault (Option Block) :=
  match d with
  | .typeAlias _ target => some <$> typeAlias env d target
  | .constant _ _ _ => some <$> constant env d
  | .enum _ o cap _ => some <$> enum env d (.uint o cap)
  | .message _ _ _ => some <$> message env d
  | _ => .ok none

/-- **The Python module of a schema file.** -/
def block (p : OutputPlan) : Except Fault Block := do
  let ds ← p.file.ownDefinitions
  return .group "\n\n\n" [
    .notice 0,
    .ofLines [.docOf p.file none],
    .paragraphs [generalImports, ← imports p.file],
    .group "\n\n\n" (← Block.forDefinitions ds (definition p.env))]

end PythonModule

end BitSchema
