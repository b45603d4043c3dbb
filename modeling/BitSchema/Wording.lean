import BitSchema.Target
import BitSchema.Text.Template
import BitSchema.Wording.Basic

/-!
# Writing

`Wording.write` lets a dialect write something for its operands.  Operands need not be of the kinds that
one would expect: what goes wrong then is a fault like any other.
-/

namespace BitSchema

namespace Wording

/-- The statements of copies.  The operands are what is copied, its place, whether it is packed, and a
list that starts with the first bit of the buffer. -/
def copies (l : Dialect) (env : Env) (operands : List Operand) (copier : Bool → Copier) :
    Except Fault Sketch := do
  let operand := fun k => operands.getD k default
  let packing := (operand 2).content.truth
  let route : Route := ⟨← (operand 1).shown, []⟩
  let statements ← l.statements env packing (copier packing) route (← (operand 3).counter)
  return .list (statements.map .text)

def text (x : Except Fault String) : Except Fault Sketch := Sketch.text <$> x

def lines (x : Except Fault (List String)) : Except Fault Sketch :=
  (fun ss => .list (ss.map .text)) <$> x

def writeBasic (l : Dialect) (operands : List Operand) (a b : Operand) :
    Wording → Except Fault Sketch
  | .caseRules => (fun _ => .none) <$> l.caseRules
  | .indentUnit => text l.indentUnit
  | .importsMembers => Sketch.bool <$> l.importsMembers
  | .memberSeparator => .ok (.text Dialect.memberSeparator)
  | .nestSeparator => .ok (.text Dialect.nestSeparator)
  | .namePrefixOption => .ok (.text l.namePrefixOption)
  | .comment => text (do l.comment (← a.shown))
  | .docstring => lines (do l.docstring (← operands.mapM Operand.shown))
  | .boolValue => text (l.boolValue a.content.truth)
  | .strValue => text (do l.strValue (← a.shown))
  | .intValue => do
    discard (l.intValue 0)
    text a.shown
  | .value =>
    match a.content.literal? with
    | some v => text (l.literal v)
    | none => .ok .none
  | .leftShift => text (Dialect.leftShift <$> a.shown)
  | .rightShift => text (Dialect.rightShift <$> a.shown)
  | .shift => do
    if ← Content.compare .more a.content (.int 0) then text (Dialect.rightShift <$> a.shown)
    else return .text (Dialect.shift a.int)
  | .mask => do
    discard (Content.plus a.content b.content)
    return .int (← Wire.maskOf a.int b.int)
  | .boolType => text l.boolType
  | .byteType => text l.byteType
  | .integerValueType => text (l.valueType .integer)
  | .stringValueType => text (l.valueType .string)
  | .booleanValueType => text (l.valueType .boolean)
  | .cased => text (do l.cased (← a.shown) (b.kind.getD .node))
  | .messageVariable => text l.messageVariable
  | _ => .ok .none

def writeName (l : Dialect) (env : Env) (a b c : Operand) : Wording → Except Fault Sketch
  | .uintType => text (l.uintType a.node)
  | .intType => text (l.intType a.node)
  | .integerBits => do return .int (← Dialect.integerBits a.node)
  | .type => text (do l.typeText env (← b.name?) a.node)
  | .arrayType => do
    let name ← b.name?
    if l = .c ∧ name.isSome then a.ask "element_type"
    match a.node with
    | .array o element cap ext => text (l.typeText env name (.array o element cap ext))
    | t => text (l.typeText env name (.array {} t 0 false))
  | .enumType => text (l.enumType env a.definition)
  | .messageType => text (l.messageType env a.definition)
  | .constantType => text (l.constantTypeOf a.shown a.node)
  | .knownName => .ok (.text (env.knownName a.definition))
  | .nameStart => text (l.nameStart env a.definition)
  | .plainName => text (l.plainName env a.definition)
  | .innerName => text (l.innerName env a.definition b.caseKind?)
  | .name => text (l.name env a.definition b.caseKind?)
  | .derivedName =>
    let make := fun name =>
      match b.content with
      | .text template => Text.Template.fill template "definition_name" name
      | content => .error (content.lacks "format")
    text (l.derivedName env a.definition make c.caseKind?)
  | .enumName => text (l.enumName env a.definition)
  | .ownName => text (l.ownName env a.definition)
  | .fieldName => text (l.fieldName a.definition)
  | .locationMark => .ok (.text (Dialect.locationMark a.node.origin.line))
  | .outputName => do return .text (a.definition.outputName (← b.appended))
  | .importStatement => text (do l.importStatement a.definition (← b.name?))
  | _ => .ok .none

def writeCopy (l : Dialect) (env : Env) (operands : List Operand) (a b : Operand) :
    Wording → Except Fault Sketch :=
  let int := fun k => (operands.getD k default).int
  let copy := fun (packing : Bool) => do
    text (l.statement env packing ⟨⟨← a.shown, []⟩, b.node, int 2, int 3, int 4, int 5, int 6⟩)
  let t := a.node
  let d := a.definition
  fun
  | .fieldPlace => text (do return Dialect.fieldPlace (← a.start) (← l.fieldName b.definition))
  | .elementPlace => do return .text (Dialect.elementPlace (← a.start) (← b.shown))
  | .packStatement => copy true
  | .unpackStatement => copy false
  | .packByte => do
    text (l.statement env true (← ByteCopy.pack t ⟨← b.shown, []⟩ (int 2) (int 3) (int 4)))
  | .unpackByte => do
    text (l.statement env false (← ByteCopy.unpack t ⟨← b.shown, []⟩ (int 2) (int 3) (int 4)))
  | .packMessage => lines (l.messageStatements env true d)
  | .unpackMessage => lines (l.messageStatements env false d)
  | .leafCopies => copies l env operands fun packing => Copier.leaf l packing t
  | .fieldCopies => do
    if a.isA .singleType then a.ask "nbits"
    copies l env operands fun packing => t.copier l packing .field
  | .arrayCopies => copies l env operands fun packing => t.copier l packing .field
  | .messageCopies => copies l env operands fun packing => t.copier l packing .field
  | .aliasCopies => do
    let target := d.ty?.getD default
    if target.kind.within .singleType then a.ask "nbits"
    copies l env operands fun packing => target.copier l packing (.target t)
  | _ => .ok .none

def writeCall (env : Env) (operands : List Operand) (a b : Operand) :
    Wording → Except Fault Sketch :=
  let d := a.definition
  let owner := b.definition
  fun
  | .processorStart => .ok (.text CLibrary.processorStart)
  | .jsonStart => .ok (.text CLibrary.jsonStart)
  | .sizeOf => text (CLibrary.sizeOf <$> a.shown)
  | .boolCall => text (CLibrary.typeCall env (.bool {}) none)
  | .byteCall => text (CLibrary.typeCall env (.byte {}) none)
  | .typeCall => text (CLibrary.typeCall env a.node (if b.isNone then none else some owner))
  | .arrayCall => text (CLibrary.typeCall env a.node (some owner))
  | .intCall => text (CLibrary.intCall a.node)
  | .uintCall => text (CLibrary.uintCall a.node)
  | .enumCall => text (CLibrary.enumCall env d)
  | .messageCall => text (CLibrary.messageCall env d)
  | .aliasCall => text (CLibrary.aliasCall env d)
  | .enumDescriptor => text (CLibrary.enumDescriptor d)
  | .aliasDescriptor => text (CLibrary.aliasDescriptor env d)
  | .arrayDescriptor => text (CLibrary.arrayDescriptor env a.node)
  | .messageDescriptor => do
    let fields ← if operands.length < 2 then .ok "field_descriptors" else b.shown
    return .text (CLibrary.messageDescriptor d fields)
  | .fieldsInit => text (CLibrary.fieldsInitName env d)
  | .processorFunction => text (CLibrary.functionName CLibrary.processorStart env d)
  | .jsonFunction => text (CLibrary.functionName CLibrary.jsonStart env d)
  | .arrayProcessor => text (CLibrary.arrayProcessorName env owner)
  | .arrayJson => text (CLibrary.arrayJsonName env owner)
  | .fieldArrayProcessor => text (CLibrary.arrayProcessorName env owner)
  | .fieldArrayJson => text (CLibrary.arrayJsonName env owner)
  | .aliasArrayProcessor => text (CLibrary.functionName (CLibrary.processorStart ++ "Array") env owner)
  | .aliasArrayJson => text (CLibrary.functionName (CLibrary.jsonStart ++ "Array") env owner)
  | _ => .ok .none

def writeGoProcessor (env : Env) (a : Operand) : Wording → Except Fault Sketch
  | .boolProcessor => text (GoLibrary.processor env (.bool {}))
  | .byteProcessor => text (GoLibrary.processor env (.byte {}))
  | .intProcessor => .ok (.text (GoLibrary.intProcessor a.node))
  | .uintProcessor => .ok (.text (GoLibrary.uintProcessor a.node))
  | .enumProcessor => text (GoLibrary.enumProcessor env a.definition)
  | .aliasProcessor => text (GoLibrary.aliasProcessor env a.definition)
  | .messageProcessor => text (GoLibrary.messageProcessor env a.definition)
  | _ => text (GoLibrary.processor env a.node)

def writePythonProcessor (env : Env) (a : Operand) : Wording → Except Fault Sketch
  | .boolProcessor => text (PythonLibrary.processor env (.bool {}))
  | .byteProcessor => text (PythonLibrary.processor env (.byte {}))
  | .intProcessor => .ok (.text (PythonLibrary.intProcessor a.node))
  | .uintProcessor => .ok (.text (PythonLibrary.uintProcessor a.node))
  | .enumProcessor => do return .text ((← PythonLibrary.processorName env a.definition) ++ "()")
  | .aliasProcessor => do return .text ((← PythonLibrary.processorName env a.definition) ++ "()")
  | .messageProcessor => text (PythonLibrary.messageProcessor env a.definition)
  | .processorName => text (PythonLibrary.processorName env a.definition)
  | _ => text (PythonLibrary.processor env a.node)

def writeDefault (env : Env) (a : Operand) : Wording → Except Fault Sketch :=
  let d := a.definition
  fun
  | .boolDefault => text (PythonLibrary.defaultValue env (.bool {}))
  | .byteDefault => text (PythonLibrary.defaultValue env (.byte {}))
  | .integerDefault => text (PythonLibrary.defaultValue env (.uint {} 1))
  | .enumDefault => text (PythonLibrary.defaultValue env (.uint {} 1))
  | .messageDefault => do return .text ((← PythonLibrary.messageFactory env d) ++ "()")
  | .aliasDefault => do return .text ((← PythonLibrary.aliasFactory env d) ++ "()")
  | .arrayDefault => text (PythonLibrary.defaultValueOf env a.shown a.node)
  | .typeDefault => text (PythonLibrary.defaultValueOf env a.shown a.node)
  | .aliasFactory => text (PythonLibrary.aliasFactory env d)
  | .messageFactory => text (PythonLibrary.messageFactory env d)
  | .arrayFactory => text (PythonLibrary.arrayFactory env a.node)
  | .madeBy => text (PythonLibrary.madeBy <$> a.shown)
  | .aliasField => text (PythonLibrary.madeBy <$> PythonLibrary.aliasFactory env d)
  | .messageField => text (PythonLibrary.madeBy <$> PythonLibrary.messageFactory env d)
  | .arrayField => text (PythonLibrary.fieldDefaultOf env a.shown a.node)
  | .fieldDefault => text (PythonLibrary.fieldDefaultOf env a.shown a.node)
  | .nameMap => text (PythonLibrary.nameMap env d)
  | _ => .ok .none

/-- **Writes** a wording for its operands. -/
def write (w : Wording) (l : Dialect) (env : Env) (operands : List Operand) : Except Fault Sketch := do
  w.checkNeeds l operands
  let a := operands.getD 0 default
  let b := operands.getD 1 default
  let c := operands.getD 2 default
  match w with
  | .uintType | .intType | .integerBits | .type | .arrayType | .enumType | .messageType | .constantType
  | .knownName | .nameStart | .plainName | .innerName | .name | .derivedName | .enumName | .ownName
  | .fieldName | .locationMark | .outputName | .importStatement => writeName l env a b c w
  | .fieldPlace | .elementPlace | .packStatement | .unpackStatement | .packByte | .unpackByte
  | .packMessage | .unpackMessage | .leafCopies | .fieldCopies | .arrayCopies | .aliasCopies
  | .messageCopies => writeCopy l env operands a b w
  | .processorStart | .jsonStart | .sizeOf | .boolCall | .byteCall | .typeCall | .arrayCall | .intCall
  | .uintCall | .enumCall | .messageCall | .aliasCall | .enumDescriptor | .aliasDescriptor
  | .arrayDescriptor | .messageDescriptor | .fieldsInit | .processorFunction | .jsonFunction
  | .arrayProcessor | .arrayJson | .fieldArrayProcessor | .fieldArrayJson | .aliasArrayProcessor
  | .aliasArrayJson => writeCall env operands a b w
  | .boolProcessor | .byteProcessor | .intProcessor | .uintProcessor | .arrayProcessorOf
  | .enumProcessor | .aliasProcessor | .messageProcessor | .processor | .processorName =>
    if l = .go then writeGoProcessor env a w else writePythonProcessor env a w
  | .boolDefault | .byteDefault | .integerDefault | .enumDefault | .messageDefault | .aliasDefault
  | .arrayDefault | .typeDefault | .aliasFactory | .messageFactory | .arrayFactory | .madeBy | .aliasField
  | .messageField | .arrayField | .fieldDefault | .nameMap => writeDefault env a w
  | _ => writeBasic l operands a b w

end Wording

end BitSchema
