import BitSchema.Target.ByteCopy
import BitSchema.Target.CHeader

/-!
# C source files

The source file of a schema file defines the functions its header declares: with calls to the library, or
with packing and unpacking written out as statements.
-/

namespace BitSchema.CSource

open CHeader

def function (signature : String) (body : List String) : Block :=
  .ofLines ([.of s!"{signature} \x7b"] ++ body.map (Line.inset 4) ++ [.of "\x7d"])

/-! ### Functions the library calls back -/

def arrayFunction (env : Env) (t : Ty) (signature call : String) : Except Fault Block := do
  let descriptor ← CLibrary.arrayDescriptor env t
  return function signature [
    s!"struct BpArrayDescriptor descriptor = {descriptor};", s!"{call}(&descriptor, ctx, data);"]

def arrayProcessor (env : Env) (t : Ty) (d : Def) : Except Fault (List Block) :=
  match t with
  | .array _ _ _ _ => do
    let name ← CLibrary.arrayProcessorName env d
    return [← arrayFunction env t (processorSignature name) "BpEndecodeArray"]
  | _ => .ok []

def arrayFormatter (env : Env) (t : Ty) (d : Def) : Except Fault (List Block) :=
  match t with
  | .array _ _ _ _ => do
    let name ← CLibrary.arrayJsonName env d
    return [← arrayFunction env t (formatterSignature name) "BpJsonFormatArray"]
  | _ => .ok []

def aliasFunction (env : Env) (d : Def) (signature call : String) : Except Fault Block := do
  let descriptor ← CLibrary.aliasDescriptor env d
  return function signature [
    s!"struct BpAliasDescriptor descriptor = {descriptor};", s!"{call}(&descriptor, ctx, data);"]

def typeAlias (env : Env) (d : Def) (target : Ty) : Except Fault Block := do
  let processor ← CLibrary.functionName CLibrary.processorStart env d
  let formatter ← CLibrary.functionName CLibrary.jsonStart env d
  return .paragraphs <|
    (← arrayProcessor env target d) ++ (← arrayFormatter env target d) ++ [
      ← aliasFunction env d (processorSignature processor) "BpEndecodeAlias",
      ← aliasFunction env d (formatterSignature formatter) "BpJsonFormatAlias"]

/-! ### Messages -/

def fieldDescriptor (env : Env) (d : Def) (t : Ty) (position : Nat) : Except Fault String := do
  let call ← CLibrary.typeCall env t (some d)
  let name ← Dialect.c.fieldName d
  return s!"fds[{position}] = BpMessageFieldDescriptor((void *)&(m->{name}), {call}, \"{d.name}\");"

def fieldsInit (env : Env) (d : Def) : Except Fault Block := do
  let name ← CLibrary.fieldsInitName env d
  let type ← Dialect.c.messageType env d
  let body ← d.sortedFields.zipIdx.mapM fun (f, k) =>
    fieldDescriptor env f (f.ty?.getD default) k
  return function (fieldsInitSignature name type) body

def descriptorFunction (env : Env) (d : Def) (signature call : String) : Except Fault Block := do
  let type ← Dialect.c.messageType env d
  let init ← CLibrary.fieldsInitName env d
  let descriptor := CLibrary.messageDescriptor d "field_descriptors"
  return function signature [
    s!"{type} *m = ({type} *)(data);",
    s!"struct BpMessageFieldDescriptor field_descriptors[{d.fields.length}];",
    s!"{init}(m, field_descriptors);",
    s!"struct BpMessageDescriptor descriptor = {descriptor};",
    s!"{call}(&descriptor, ctx, data);"]

def message (env : Env) (d : Def) : Except Fault Block := do
  let name ← Dialect.c.ownName env d
  let type ← Dialect.c.messageType env d
  let processor ← CLibrary.functionName CLibrary.processorStart env d
  let formatter ← CLibrary.functionName CLibrary.jsonStart env d
  let processors ← d.forFields fun f t => arrayProcessor env t f
  let formatters ← d.forFields fun f t => arrayFormatter env t f
  let pass := fun (packing : String) => [
    s!"struct BpProcessorContext ctx = BpProcessorContext({packing}, s);",
    s!"{processor}((void *)m, &ctx);",
    "return 0;"]
  return .paragraphs [
    .paragraphs processors.flatten,
    .paragraphs formatters.flatten,
    ← fieldsInit env d,
    ← descriptorFunction env d (processorSignature processor) "BpEndecodeMessage",
    ← descriptorFunction env d (formatterSignature formatter) "BpJsonFormatMessage",
    function (encodeSignature name type) (pass "true"),
    function (decodeSignature name type) (pass "false"),
    function (jsonSignature name type) [
      "struct BpJsonFormatContext ctx = BpJsonFormatContext(s);",
      s!"{formatter}((void *)m, &ctx);",
      "return ctx.n;"]]

def plainMessage (env : Env) (d : Def) : Except Fault Block := do
  let name ← Dialect.c.ownName env d
  let type ← Dialect.c.messageType env d
  let pack ← Dialect.c.messageStatements env true d
  let unpack ← Dialect.c.messageStatements env false d
  return .paragraphs [
    function (encodeSignature name type) (pack ++ ["return 0;"]),
    function (decodeSignature name type) (unpack ++ ["return 0;"])]

/-! ### The file -/

def functions (p : OutputPlan) (d : Def) : Except Fault (Option Block) :=
  match d with
  | .typeAlias _ target => if p.optimized then .ok none else some <$> typeAlias p.env d target
  | .message _ _ _ =>
    if p.optimized then
      if p.includes d then some <$> plainMessage p.env d else .ok none
    else some <$> message p.env d
  | _ => .ok none

/-- **The source of a schema file.** -/
def block (p : OutputPlan) : Except Fault Block := do
  let ds ← p.file.ownDefinitions
  let header := p.file.outputName ".h"
  let own := Line.of s!"#include \"{header}\""
  let includes := if p.optimized then [own] else [.of "#include \"bitproto.h\"", own]
  return .paragraphs [
    .notice 0, .ofLines includes, .paragraphs (← Block.forDefinitions ds (functions p))]

end BitSchema.CSource
