import BitSchema.Wording.Operand

/-!
# Wordings

Everything that a dialect can be asked to write.  A wording needs attributes of its operands
(`Wording.needs`); an operand that lacks one is the first thing that goes wrong.
-/

namespace BitSchema

/-- **Wordings.** -/
inductive Wording where
  -- Settings of the dialect.
  | caseRules | indentUnit | importsMembers | memberSeparator | nestSeparator | namePrefixOption
  -- Lines, values and shifts.
  | comment | docstring | boolValue | strValue | intValue | value | leftShift | rightShift | shift | mask
  -- Types.
  | boolType | byteType | uintType | intType | arrayType | type | enumType | messageType | integerBits
  | integerValueType | stringValueType | booleanValueType | constantType
  -- Names.
  | cased | knownName | nameStart | plainName | innerName | name | derivedName | enumName | ownName
  | fieldName | locationMark | outputName | importStatement
  -- Copies between bytes.
  | messageVariable | fieldPlace | elementPlace | packStatement | unpackStatement | packByte
  | unpackByte | packMessage | unpackMessage | leafCopies | fieldCopies | arrayCopies | aliasCopies
  | messageCopies
  -- Calls to the C library.
  | processorStart | jsonStart | sizeOf | boolCall | byteCall | typeCall | arrayCall | intCall | uintCall
  | enumCall | messageCall | aliasCall | enumDescriptor | aliasDescriptor | arrayDescriptor
  | messageDescriptor | fieldsInit | processorFunction | jsonFunction | arrayProcessor | arrayJson
  | fieldArrayProcessor | fieldArrayJson | aliasArrayProcessor | aliasArrayJson
  -- Processors.
  | boolProcessor | byteProcessor | intProcessor | uintProcessor | arrayProcessorOf | enumProcessor
  | aliasProcessor | messageProcessor | processor | processorName
  -- Default values.
  | boolDefault | byteDefault | integerDefault | enumDefault | messageDefault | aliasDefault
  | arrayDefault | typeDefault | aliasFactory | messageFactory | arrayFactory | madeBy | aliasField
  | messageField | arrayField | fieldDefault | nameMap
deriving DecidableEq, Repr

namespace Wording

def needs (l : Dialect) : Wording → List String × List String
  | .integerBits => (["nbytes"], [])
  | .uintType | .intType => (if l = .c ∨ l = .go then ["nbytes"] else [], [])
  | .importStatement =>
    (match l with
      | .neutral => []
      | .c => ["name"]
      | _ => ["get_option_as_string_or_raise"], [])
  | .arrayType => (if l = .go ∨ l = .python then ["element_type"] else [], [])
  | .intCall | .uintCall => (["nbits", "nbytes"], [])
  | .messageCall | .enumCall | .aliasCall => (["nbits", "scope_stack"], [])
  | .arrayCall => (["nbits", "element_type"], [])
  | .enumDescriptor | .aliasDescriptor | .aliasCopies => (["type"], [])
  | .messageDescriptor => (["extensible", "nfields", "nbits"], [])
  | .arrayDescriptor | .arrayCopies => (["element_type"], [])
  | .intProcessor | .uintProcessor | .leafCopies => (["nbits"], [])
  | .arrayProcessorOf => (["extensible", "cap", "element_type"], [])
  | .aliasProcessor => ("scope_stack" :: if l = .go then ["type"] else [], [])
  | .arrayDefault | .arrayFactory | .arrayField => (["cap", "element_type"], [])
  | .outputName => (["name", "filepath"], [])
  | .locationMark => (["lineno"], [])
  | .fieldName => (["name"], [])
  | .fieldPlace => ([], ["name"])
  | .packMessage | .unpackMessage => (if l = .c ∨ l = .go then ["sorted_fields"] else [], [])
  | .messageCopies => (["sorted_fields"], [])
  | .fieldArrayProcessor | .fieldArrayJson => ([], ["message", "number"])
  | .aliasArrayProcessor | .aliasArrayJson => ([], ["scope_stack"])
  | .enumType | .messageType | .knownName | .plainName | .innerName | .name | .derivedName | .enumName
  | .ownName | .fieldsInit | .processorFunction | .jsonFunction | .enumProcessor | .messageProcessor
  | .processorName | .messageDefault | .aliasDefault | .aliasFactory | .messageFactory | .aliasField
  | .messageField | .nameMap => (["scope_stack"], [])
  | _ => ([], [])

/-- **Asks the operands for what a wording needs of them.** -/
def checkNeeds (w : Wording) (l : Dialect) (operands : List Operand) : Except Fault Unit := do
  let (first, second) := w.needs l
  first.forM fun name => (operands.getD 0 default).ask name
  second.forM fun name => (operands.getD 1 default).ask name

end Wording

end BitSchema
