import BitSchema.Target.ByteCopy
import BitSchema.Target.Plan

/-!
# Go packages

The Go file of a schema file: types with their methods.  Messages reach their fields byte by byte through
methods that the library calls, or are packed and unpacked by statements written out.
-/

namespace BitSchema

open Text

namespace GoLibrary

def boolText (b : Bool) : String := if b then "true" else "false"

def intProcessor (t : Ty) : String := s!"bp.NewInt({t.nbits})"

def uintProcessor (t : Ty) : String := s!"bp.NewUint({t.nbits})"

def aliasProcessor (env : Env) (d : Def) : Except Fault String := do
  let name ← Dialect.go.ownName env d
  match d.ty? with
  | some (.bool _) => return s!"({name}(false)).BpProcessor()"
  | some (.byte _) => return s!"({name}(0)).BpProcessor()"
  | some (.uint _ _) => return s!"({name}(0)).BpProcessor()"
  | some (.int _ _) => return s!"({name}(0)).BpProcessor()"
  | some (.named (.enum _ _ _ _)) => return s!"({name}(0)).BpProcessor()"
  | some (.array _ _ _ _) => return s!"({name}\x7b\x7d).BpProcessor()"
  | _ => throw (.internal "format_bp_alias got unexpected alias type")

def enumProcessor (env : Env) (d : Def) : Except Fault String := do
  let name ← Dialect.go.enumName env d
  return s!"({name}(0)).BpProcessor()"

def messageProcessor (env : Env) (d : Def) : Except Fault String := do
  let name ← Dialect.go.ownName env d
  return s!"(&{name}\x7b\x7d).BpProcessor()"

/-- **The processor of a type.** -/
def processor (env : Env) : Ty → Except Fault String
  | .bool _ => .ok "bp.NewBool()"
  | .byte _ => .ok "bp.NewByte()"
  | .int o cap => .ok (intProcessor (.int o cap))
  | .uint o cap => .ok (uintProcessor (.uint o cap))
  | .array _ element cap ext => do
    let inner ← processor env element
    return s!"bp.NewArray({boolText ext}, {cap}, {inner})"
  | .named d =>
    match d with
    | .enum _ _ _ _ => enumProcessor env d
    | .typeAlias _ _ => aliasProcessor env d
    | .message _ _ _ => messageProcessor env d
    | _ => .error (.internal "format_bp_type got unexpected t")
  | .unknown _ _ => .error (.internal "format_bp_type got unexpected t")

end GoLibrary

namespace GoPackage

open GoLibrary

/-! ### Imports -/

def package (file : Def) : Block :=
  .ofLines (Line.comments file none ++ [.of s!"package {file.name}"])

def generalImports (optimized : Bool) : Block :=
  .ofLines <|
    [.of "import (", .inset 1 "\"strconv\"", .inset 1 "\"encoding/json\""] ++
    (if optimized then [] else [.of "", .inset 1 "bp \"github.com/hit9/bitproto/lib/go\""]) ++
    [.of ")", .of "", .comment "Avoid possible golang import not used error" none,
     .of "var formatInt = strconv.FormatInt", .of "var jsonMarshal = json.Marshal"] ++
    (if optimized then [] else [.of "var _ = bp.Useless"])

def imports (file : Def) : Except Fault Block := do
  return .stacked (← file.imports.mapM fun m => do
    return .ofLines [.of (← Dialect.go.importStatement m.2 (some m.1))])

/-! ### Aliases, constants and enums -/

def aliasType (env : Env) (d : Def) (target : Ty) : Except Fault Block := do
  let name ← Dialect.go.ownName env d
  let type ← Dialect.go.typeText env (some name) target
  return .ofLines (Line.comments d none ++ [.of s!"type {name} {type}", .bitsOf env d])

def typeAlias (env : Env) (d : Def) (target : Ty) : Except Fault Block := do
  let name ← Dialect.go.ownName env d
  let receiver := match target with
    | .named (.message _ _ _) => "*" ++ name
    | _ => name
  let inner ← processor env target
  return .paragraphs [
    ← aliasType env d target,
    .ofLines [
      .of s!"func (m {receiver}) BpProcessor() bp.Processor \x7b",
      .inset 1 s!"return bp.NewAliasProcessor({inner})",
      .of "\x7d"]]

def constant (env : Env) (d : Def) : Except Fault Block := do
  let name ← Dialect.go.ownName env d
  let type ← Dialect.go.constantType env (.named d)
  let value ← Dialect.go.literal (d.literal?.getD (.int 0))
  return .ofLines (Line.comments d none ++ [.of s!"const {name} {type} = {value}"])

def enumField (env : Env) (d : Def) (position : Nat) : Except Fault Block := do
  let name ← Dialect.go.ownName env d
  let type ← Dialect.go.enumType env (← env.enumOf d)
  let line := if position = 0 then s!"{name} {type} = {d.value}" else s!"{name} = {d.value}"
  return .lines 1 (Line.comments d none ++ [.of line])

def enumCase (env : Env) (d : Def) : Except Fault Block := do
  let name ← Dialect.go.ownName env d
  return .lines 1 [.of s!"case {d.value}:", .inset 2 s!"return \"{name}\""]

def enum (p : OutputPlan) (d : Def) (type : Ty) : Except Fault Block := do
  let name ← Dialect.go.enumName p.env d
  let uint ← Dialect.go.uintType type
  let fields ← d.enumFields.zipIdx.mapM fun (f, k) => enumField p.env f k
  let cases ← d.enumFields.mapM (enumCase p.env)
  let unknown := Block.lines 1 [.of "default:",
    .inset 2 s!"return \"{name}(\" + formatInt(int64(v), 10) + \")\""]
  return .paragraphs <| [
      .ofLines (Line.comments d none ++ [.of s!"type {name} {uint}", .bitsOf p.env d]),
      .around 0 [.of "const ("] (some (.stacked fields)) [.of ")"]] ++
    (if p.optimized then [] else [
      .ofLines [
        .of s!"func (m {name}) BpProcessor() bp.Processor \x7b",
        .inset 1 s!"return bp.NewEnumProcessor({uintProcessor type})",
        .of "\x7d"]]) ++ [
      .around 0 [
        .comment "String returns the name of this enum item." none,
        .of s!"func (v {name}) String() string \x7b",
        .inset 1 "switch v \x7b"]
        (some (.stacked (cases ++ [unknown])))
        [.inset 1 "\x7d", .of "\x7d"]]

/-! ### Fields of messages -/

def field (env : Env) (d : Def) (t : Ty) : Except Fault Block := do
  let name ← Dialect.go.fieldName d
  let type ← Dialect.go.typeText env (some name) t
  let key := snakeCase name
  return .lines 1 (Line.comments d none ++
    [.of s!"{name} {type} `json:\"{key}\"`", .bitsOf env d])

/-- A field behind `depth` arrays. -/
def fieldReference (name : String) (depth : Nat) : String :=
  s!"m.{name}" ++ String.join ((List.range depth).map fun k => s!"[di.I({k})]")

/-- What is behind the arrays of a field: the leaf or message, the alias directly around a leaf, and the
number of arrays. -/
structure FieldCore where
  core : Ty
  via : Option Ty
  depth : Nat

mutual

def coreOf (via : Option Ty) (depth : Nat) : Ty → FieldCore
  | .array _ element _ _ => coreOf none (depth + 1) element
  | .named d => coreOfDef via depth d
  | t => ⟨t, via, depth⟩

def coreOfDef (via : Option Ty) (depth : Nat) : Def → FieldCore
  | .typeAlias h target => coreOf (some (.named (.typeAlias h target))) depth target
  | d => ⟨.named d, via, depth⟩

end

def setByteCase (env : Env) (d : Def) (t : Ty) : Except Fault (List Line) := do
  let ⟨core, via, depth⟩ := coreOf none 0 t
  if !core.isA .singleType then return []
  let left := fieldReference (← Dialect.go.fieldName d) depth
  let type ← Dialect.go.typeText env none (via.getD core)
  let value := match core, via with
    | .bool _, none => "= bp.Byte2bool(b)"
    | .bool _, some _ => s!"= {type}(bp.Byte2bool(b))"
    | _, _ => s!"|= ({type}(b) << lshift)"
  return [.of s!"case {d.number}:", .inset 3 s!"{left} {value}"]

def getByteCase (d : Def) (t : Ty) : Except Fault (List Line) := do
  let ⟨core, via, depth⟩ := coreOf none 0 t
  if !core.isA .singleType then return []
  let data := fieldReference (← Dialect.go.fieldName d) depth
  let value := match core, via with
    | .bool _, none => s!"bp.Bool2byte({data}) >> rshift"
    | .bool _, some _ => s!"bp.Bool2byte(bool({data})) >> rshift"
    | _, _ => s!"byte({data} >> rshift)"
  return [.of s!"case {d.number}:", .inset 3 s!"return {value}"]

/-- The case of a field in the method that enters a message; none if the field holds no messages. -/
def accessorCase (d : Def) (t : Ty) : Except Fault (List Line) := do
  let ⟨core, _, depth⟩ := coreOf none 0 t
  if !core.isA .message then return []
  let data := fieldReference (← Dialect.go.fieldName d) depth
  return [.of s!"case {d.number}:", .inset 2 s!"return &({data})"]

/-! ### Messages -/

def switchMethod (signature : String) (indent : Int) (cases : List (List Line)) (last : String) :
    Block :=
  .around 0 [.of s!"func {signature} \x7b", .inset 1 "switch di.F() \x7b"]
    (some (.stacked (cases.map (Block.lines indent) ++
      [.lines indent [.of "default:", .inset (indent + 1) last]])))
    [.inset 1 "\x7d", .of "\x7d"]

def method (comments : List String) (signature : String) (body : List String) : Block :=
  .ofLines (comments.map (Line.comment · none) ++ [.of s!"func {signature} \x7b"] ++
    body.map (Line.inset 1) ++ [.of "\x7d"])

def processorMethod (env : Env) (name : String) (d : Def) : Except Fault Block := do
  let fields ← d.forFields fun f t => do
    let inner ← processor env t
    return Block.lines 2 [.of s!"bp.NewMessageFieldProcessor({f.number}, {inner}),"]
  let close := if d.fields.isEmpty then Line.tail "\x7d" "" else .inset 1 "\x7d"
  return .around 0 [
      .of s!"func (m *{name}) BpProcessor() bp.Processor \x7b",
      .inset 1 "fieldDescriptors := []*bp.MessageFieldProcessor\x7b"]
    (some (.stacked fields)) [
      close,
      .inset 1 s!"return bp.NewMessageProcessor({boolText d.ext}, {d.nbits}, fieldDescriptors)",
      .of "\x7d"]

def libraryMethods (env : Env) (name : String) (d : Def) : Except Fault (List Block) := do
  return [
    method [s!"Encode struct {name} to bytes buffer."] s!"(m *{name}) Encode() []byte" [
      "ctx := bp.NewEncodeContext(int(m.Size()))",
      "m.BpProcessor().Process(ctx, nil, m)",
      "return ctx.Buffer()"],
    method [] s!"(m *{name}) Decode(s []byte)" [
      "ctx := bp.NewDecodeContext(s)",
      "m.BpProcessor().Process(ctx, nil, m)"],
    ← processorMethod env name d,
    switchMethod s!"(m *{name}) BpGetAccessor(di *bp.DataIndexer) bp.Accessor" 1
      (← d.forFields accessorCase) "return nil  // Won't reached",
    switchMethod s!"(m *{name}) BpSetByte(di *bp.DataIndexer, lshift int, b byte)" 2
      (← d.forFields (setByteCase env)) "return",
    switchMethod s!"(m *{name}) BpGetByte(di *bp.DataIndexer, rshift int) byte" 2
      (← d.forFields getByteCase) "return byte(0) // Won't reached"]

def plainMethods (env : Env) (name : String) (d : Def) : Except Fault (List Block) := do
  let nbytes ← d.nbytes
  let pack ← Dialect.go.messageStatements env true d
  let unpack ← Dialect.go.messageStatements env false d
  return [
    method [s!"Encode struct {name} to bytes buffer."] s!"(m *{name}) Encode() []byte"
      ([s!"s := make([]byte, {nbytes})"] ++ pack ++ ["return s"]),
    method [] s!"(m *{name}) Decode(s []byte)" unpack]

def message (p : OutputPlan) (d : Def) : Except Fault Block := do
  let name ← Dialect.go.ownName p.env d
  let nbytes ← d.nbytes
  let fields ← d.forFields (field p.env)
  let sizeName := "BYTES_LENGTH_" ++ upperCase (snakeCase name)
  let methods ←
    if p.optimized then
      if p.includes d then plainMethods p.env name d else pure []
    else libraryMethods p.env name d
  return .paragraphs <| [
    .around 0 (Line.comments d none ++ [.of s!"type {name} struct \x7b"]) (some (.stacked fields))
      [.of "\x7d"],
    .ofLines [
      .comment s!"Number of bytes to serialize struct {name}" none,
      .of s!"const {sizeName} uint32 = {nbytes}"],
    .ofLines [.of s!"func (m *{name}) Size() uint32 \x7b return {nbytes} \x7d"],
    method [s!"Returns string representation for struct {name}."] s!"(m *{name}) String() string"
      ["v, _ := jsonMarshal(m)", "return string(v)"]] ++ methods

/-! ### The file -/

def definition (p : OutputPlan) (d : Def) : Except Fault (Option Block) :=
  match d with
  | .typeAlias _ target =>
    some <$> (if p.optimized then aliasType p.env d target else typeAlias p.env d target)
  | .constant _ _ _ => some <$> constant p.env d
  | .enum _ o cap _ => some <$> enum p d (.uint o cap)
  | .message _ _ _ => some <$> message p d
  | _ => .ok none

def conversions : List Block := [
  .ofLines [
    .of "func bool2byte(b bool) byte \x7b",
    .inset 1 "if b \x7b",
    .inset 2 "return 1",
    .inset 1 "\x7d",
    .inset 1 "return 0",
    .of "\x7d"],
  .ofLines [
    .of "func byte2bool(b byte) bool \x7b",
    .inset 1 "if b > 0 \x7b",
    .inset 2 "return true",
    .inset 1 "\x7d",
    .inset 1 "return false",
    .of "\x7d"]]

/-- **The Go file of a schema file.** -/
def block (p : OutputPlan) : Except Fault Block := do
  let ds ← p.file.ownDefinitions
  return .paragraphs <| [
    .notice 0, package p.file, generalImports p.optimized, ← imports p.file,
    .paragraphs (← Block.forDefinitions ds (definition p))] ++
    (if p.optimized then conversions else [])

end GoPackage

end BitSchema
