import BitSchema.Schema.Basic

/-!
# Kinds of nodes

A node of a schema is a type or a definition; aliases, enums and messages are both.  `Kind` names the
concrete kinds of nodes and the wider ones that gather them, and `Kind.within` is the relation between
the two: an enum, say, is a type of single values, a scope and a definition bound to a file.
-/

namespace BitSchema

/-- Concrete and wider kinds of nodes. -/
inductive Kind where
  | node
  | comment
  | type
  | singleType
  | compositeType
  | extensibleType
  | baseType
  | integer
  | bool
  | byte
  | uint
  | int
  | array
  | definition
  | boundDefinition
  | typeAlias
  | option
  | integerOption
  | booleanOption
  | stringOption
  | constant
  | integerConstant
  | booleanConstant
  | stringConstant
  | field
  | enumField
  | messageField
  | scope
  | boundScope
  | scopeWithOptions
  | enum
  | message
  | proto
deriving DecidableEq, Repr

namespace Kind

def wider : Kind → List Kind
  | .node => []
  | .comment => [.node]
  | .type => [.node]
  | .singleType => [.type, .node]
  | .compositeType => [.type, .node]
  | .extensibleType => [.type, .node]
  | .baseType => [.singleType, .type, .node]
  | .integer => [.baseType, .singleType, .type, .node]
  | .bool => [.baseType, .singleType, .type, .node]
  | .byte => [.baseType, .singleType, .type, .node]
  | .uint => [.integer, .baseType, .singleType, .type, .node]
  | .int => [.integer, .baseType, .singleType, .type, .node]
  | .array => [.compositeType, .extensibleType, .type, .node]
  | .definition => [.node]
  | .boundDefinition => [.definition, .node]
  | .typeAlias => [.type, .boundDefinition, .definition, .node]
  | .option => [.boundDefinition, .definition, .node]
  | .integerOption => [.option, .boundDefinition, .definition, .node]
  | .booleanOption => [.option, .boundDefinition, .definition, .node]
  | .stringOption => [.option, .boundDefinition, .definition, .node]
  | .constant => [.boundDefinition, .definition, .node]
  | .integerConstant => [.constant, .boundDefinition, .definition, .node]
  | .booleanConstant => [.constant, .boundDefinition, .definition, .node]
  | .stringConstant => [.constant, .boundDefinition, .definition, .node]
  | .field => [.boundDefinition, .definition, .node]
  | .enumField => [.field, .boundDefinition, .definition, .node]
  | .messageField => [.field, .boundDefinition, .definition, .node]
  | .scope => [.definition, .node]
  | .boundScope => [.scope, .boundDefinition, .definition, .node]
  | .scopeWithOptions => [.scope, .definition, .node]
  | .enum => [.boundScope, .scope, .boundDefinition, .definition, .singleType, .type, .node]
  | .message =>
    [.boundScope, .scopeWithOptions, .scope, .boundDefinition, .definition, .compositeType,
     .extensibleType, .type, .node]
  | .proto => [.scopeWithOptions, .scope, .definition, .node]

/-- Every node of kind `k` is a node of kind `w`. -/
def within (k w : Kind) : Bool := k == w || k.wider.contains w

/-- Kinds of nodes that are complete as soon as they are made. -/
def closesAtOnce : Kind → Bool
  | .comment | .bool | .byte | .uint | .int | .array | .typeAlias | .enumField | .messageField
  | .integerOption | .booleanOption | .stringOption | .integerConstant | .booleanConstant
  | .stringConstant => true
  | _ => false

def closes : Kind → Bool
  | .enum | .message | .proto => true
  | k => k.closesAtOnce

/-- **Labels.** All kinds with the names by which messages and requests call them. -/
def labels : List (String × Kind) := [
  ("Node", .node), ("Comment", .comment), ("Type", .type), ("SingleType", .singleType),
  ("CompositeType", .compositeType), ("ExtensibleType", .extensibleType), ("BaseType", .baseType),
  ("Integer", .integer), ("Bool", .bool), ("Byte", .byte), ("Uint", .uint), ("Int", .int),
  ("Array", .array), ("Definition", .definition), ("BoundDefinition", .boundDefinition),
  ("Alias", .typeAlias), ("Option", .option), ("IntegerOption", .integerOption),
  ("BooleanOption", .booleanOption), ("StringOption", .stringOption), ("Constant", .constant),
  ("IntegerConstant", .integerConstant), ("BooleanConstant", .booleanConstant),
  ("StringConstant", .stringConstant), ("Field", .field), ("EnumField", .enumField),
  ("MessageField", .messageField), ("Scope", .scope), ("BoundScope", .boundScope),
  ("ScopeWithOptions", .scopeWithOptions), ("Enum", .enum), ("Message", .message),
  ("Proto", .proto)]

def label (k : Kind) : String :=
  ((labels.find? fun l => l.2 = k).map (·.1)).getD ""

def ofLabel? (label : String) : Option Kind := labels.lookup label

end Kind

def optionKind : Option LiteralKind → Kind
  | none => .option
  | some .integer => .integerOption
  | some .boolean => .booleanOption
  | some .string => .stringOption

def constantKind : Option LiteralKind → Kind
  | none => .constant
  | some .integer => .integerConstant
  | some .boolean => .booleanConstant
  | some .string => .stringConstant

namespace Def

def kind : Def → Kind
  | .option _ k _ => optionKind k
  | .constant _ k _ => constantKind k
  | .typeAlias _ _ => .typeAlias
  | .enum _ _ _ _ => .enum
  | .enumField _ _ => .enumField
  | .message _ _ _ => .message
  | .field _ _ _ => .messageField
  | .proto _ _ => .proto

def isA (d : Def) (k : Kind) : Bool := d.kind.within k

/-- The kind of a definition, whatever kind of value it has. -/
def form : Def → Kind
  | .option _ _ _ => .option
  | .constant _ _ _ => .constant
  | d => d.kind

theorem isA_eq {k : Kind} (hk : (k.wider.contains .option || k.wider.contains .constant) = false) (d : Def) :
    d.isA k = d.form.within k := by
  cases d with
  | option _ l _ => rcases l with _ | (_ | _ | _) <;> cases k <;> first | rfl | cases hk
  | constant _ l _ => rcases l with _ | (_ | _ | _) <;> cases k <;> first | rfl | cases hk
  | _ => rfl

end Def

namespace Ty

def kind : Ty → Kind
  | .unknown _ _ => .type
  | .bool _ => .bool
  | .byte _ => .byte
  | .uint _ _ => .uint
  | .int _ _ => .int
  | .array _ _ _ _ => .array
  | .named d => d.kind

def isA (t : Ty) (k : Kind) : Bool := t.kind.within k

end Ty

end BitSchema
