import BitSchema.Target.CLibrary
import BitSchema.Target.Plan

/-!
# C header files

The header of a schema file declares its types and the functions on its messages.  With statements
written out (`plain`), there are fewer functions and the library is not needed; a list of names then
restricts the functions to messages with these names.
-/

namespace BitSchema

open Text

namespace CHeader

def sizeConstant (message : String) : String :=
  "BYTES_LENGTH_" ++ upperCase (snakeCase message)

/-! ### Signatures -/

def encodeSignature (name type : String) : String :=
  s!"int Encode{name}({type} *m, unsigned char *s)"

def decodeSignature (name type : String) : String :=
  s!"int Decode{name}({type} *m, unsigned char *s)"

def jsonSignature (name type : String) : String :=
  s!"int Json{name}({type} *m, char *s)"

def processorSignature (function : String) : String :=
  s!"void {function}(void *data, struct BpProcessorContext *ctx)"

def formatterSignature (function : String) : String :=
  s!"void {function}(void *data, struct BpJsonFormatContext *ctx)"

def fieldsInitSignature (function type : String) : String :=
  s!"void {function}({type} *m, struct BpMessageFieldDescriptor *fds)"

/-! ### Types -/

def constant (env : Env) (d : Def) : Except Fault Block := do
  let name ← Dialect.c.ownName env d
  let value ← Dialect.c.literal (d.literal?.getD (.int 0))
  return .ofLines (Line.comments d none ++ [.of s!"#define {name} {value}"])

def typeAlias (env : Env) (d : Def) (target : Ty) : Except Fault Block := do
  let name ← Dialect.c.ownName env d
  let type ← Dialect.c.typeText env (some name) target
  let line := match target with
    | .array _ _ _ _ => s!"typedef {type};"
    | _ => s!"typedef {type} {name};"
  return .ofLines (Line.comments d none ++ [.of line, .bitsOf env d])

def enumField (env : Env) (d : Def) : Except Fault Block := do
  let name ← Dialect.c.ownName env d
  return .ofLines (Line.comments d none ++ [.of s!"#define {name} {d.value}"])

def enum (env : Env) (d : Def) (type : Ty) : Except Fault Block := do
  let name ← Dialect.c.enumName env d
  let uint ← Dialect.c.uintType type
  let fields ← d.enumFields.mapM (enumField env)
  return .paragraphs [
    .ofLines (Line.comments d none ++ [.of s!"typedef {uint} {name};", .bitsOf env d]),
    .stacked fields]

def field (env : Env) (d : Def) (t : Ty) : Except Fault Block := do
  let name ← Dialect.c.fieldName d
  let type ← Dialect.c.typeText env (some name) t
  let line := match t with
    | .array _ _ _ _ => s!"{type};"
    | _ => s!"{type} {name};"
  return .lines 4 (Line.comments d none ++ [.of line, .bitsOf env d])

def message (p : OutputPlan) (d : Def) : Except Fault Block := do
  let name ← Dialect.c.ownName p.env d
  let nbytes ← d.nbytes
  let fields ← d.forFields (field p.env)
  let alignment ← p.file.intOption "c.struct_packing_alignment"
  let packing := s!"__attribute__((packed, aligned({alignment})))"
  return .paragraphs [
    .ofLines [
      .comment s!"Number of bytes to encode struct {name}" none,
      .of s!"#define {sizeConstant name} {nbytes}"],
    .around 0 (Line.comments d none ++ [.of s!"struct {name} \x7b"])
      (some (.stacked fields))
      ([.of "\x7d"] ++ (if alignment > 0 then [.tail packing " "] else []) ++ [.tail ";" ""])]

def types (p : OutputPlan) (d : Def) : Except Fault (Option Block) :=
  match d with
  | .typeAlias _ target => some <$> typeAlias p.env d target
  | .constant _ _ _ => some <$> constant p.env d
  | .enum _ o cap _ => some <$> enum p.env d (.uint o cap)
  | .message _ _ _ => some <$> message p d
  | _ => .ok none

/-! ### Functions -/

def userFunctions (p : OutputPlan) (d : Def) : Except Fault Block := do
  let name ← Dialect.c.ownName p.env d
  let type ← Dialect.c.messageType p.env d
  let declare := fun (comment signature : String) =>
    Block.ofLines [.comment comment none, .of s!"{signature};"]
  return .stacked <| [
    declare s!"Encode struct {name} to given buffer s." (encodeSignature name type),
    declare s!"Decode struct {name} from given buffer s." (decodeSignature name type)] ++
    (if p.optimized then []
     else [declare s!"Format struct {name} to a json format string." (jsonSignature name type)])

def libraryFunctions (env : Env) (d : Def) : Except Fault Block := do
  let processor ← CLibrary.functionName CLibrary.processorStart env d
  let formatter ← CLibrary.functionName CLibrary.jsonStart env d
  return .stacked [
    .ofLines [.of s!"{processorSignature processor};"],
    .ofLines [.of s!"{formatterSignature formatter};"]]

/-! ### The file -/

def guard (file : Def) : Block :=
  let name := s!"__BITPROTO__{upperCase (snakeCase file.name)}_H__"
  .closing 0 [.of s!"#ifndef {name}", .of s!"#define {name} 1"] [.of "#endif"]

def generalHeaders : Block :=
  .ofLines [
    .of "#include <inttypes.h>",
    .of "#include <stddef.h>",
    .of "#include <stdint.h>",
    .of "#ifndef __cplusplus",
    .of "#include <stdbool.h>",
    .of "#endif"]

def libraryHeaders : Block :=
  .around 0 [] (some generalHeaders) [.of "", .of "#include \"bitproto.h\""]

def linkage : Block :=
  .closing 0
    [.of "#if defined(__cplusplus)", .of "extern \"C\" \x7b", .of "#endif"]
    [.of "#if defined(__cplusplus)", .of "\x7d", .of "#endif"]

def imports (file : Def) : Except Fault Block := do
  return .stacked (← file.imports.mapM fun m => do
    return .ofLines [.of (← Dialect.c.importStatement m.2 none)])

/-- **The header of a schema file.** -/
def block (p : OutputPlan) : Except Fault Block := do
  let ds ← p.file.ownDefinitions
  let messages := ds.filter fun d => d.isA .message
  let callbacks := ds.filter fun d => d.isA .message || d.isA .typeAlias
  let start := [Block.notice 0, .ofLines (Line.comments p.file none), guard p.file]
  let types := Block.paragraphs (← Block.forDefinitions ds (types p))
  if p.optimized then
    let functions ← (messages.filter p.includes).mapM (userFunctions p)
    return .paragraphs <| start ++ [
      generalHeaders, linkage, ← imports p.file,
      .ofLines [.of "#define BITPROTO_OPTIMIZATION_MODE 1"],
      types, .paragraphs functions]
  else
    return .paragraphs <| start ++ [
      libraryHeaders, linkage, ← imports p.file, types,
      .paragraphs (← messages.mapM (userFunctions p)),
      .paragraphs (← callbacks.mapM (libraryFunctions p.env))]

end CHeader

end BitSchema
