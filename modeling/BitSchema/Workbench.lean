import BitSchema.Signature
import BitSchema.Sketch
import BitSchema.Workbench.Change
import BitSchema.Workbench.View

/-!
# Asking pieces by name

Everything that can be asked of a piece has a name.  `Work.attributeNamed` gives the attribute with a name,
`Work.call` the answer to the question with a name and arguments, and `Work.sketch` writes what was
answered as plain data.

A name that a piece of the kind does not know is a fault, and so are too few or too many arguments.
-/

namespace BitSchema

structure Method where
  /-- The kind by which the question is defined. -/
  owner : Kind
  name : String
  /-- The arguments that must be given. -/
  required : List String := []
  /-- How many further arguments may be given. -/
  optional : Nat := 0
  /-- Whether any number of arguments may be given. -/
  anyNumber : Bool := false

/-- **All questions.**  Of several questions of one name, that of the narrowest kind is meant. -/
def Method.all : List Method :=
  let plain := fun (owner : Kind) (names : List String) => names.map fun n => ({ owner, name := n } : Method)
  let listings := ["enums", "messages", "constants", "aliases", "enum_fields", "message_fields"]
  plain .node ["is_frozen", "freeze"] ++
  [.node, .uint, .int, .array, .typeAlias, .enumField, .messageField, .message].flatMap
    (plain · ["validate_post_freeze"]) ++
  plain .array ["validate_array_cap", "validate_array_element_type"] ++
  plain .typeAlias ["validate_type"] ++
  plain .comment ["content"] ++
  [.option, .integerOption, .booleanOption, .stringOption].flatMap (plain · ["type_name"]) ++
  plain .constant ["unwrap"] ++
  [.option, .constant].map (fun k => { owner := k, name := "from_value", required := ["value"] }) ++
  listings.map (fun n => { owner := .scope, name := n, optional := 2 }) ++
  [.scope, .scopeWithOptions, .enum, .message].map (fun k =>
    { owner := k, name := "validate_member_on_push", required := ["member"], optional := 1 }) ++
  [{ owner := .scope, name := "protos", optional := 1 },
   { owner := .scope, name := "filter", required := ["t"], optional := 2 },
   { owner := .scope, name := "push_member", required := ["member"], optional := 1 },
   { owner := .scope, name := "get_member", anyNumber := true },
   { owner := .scope, name := "get_name_by_member", required := ["member"] },
   { owner := .scopeWithOptions, name := "option", required := ["name"] },
   { owner := .scopeWithOptions, name := "validate_option_on_push", required := ["option"] },
   { owner := .scopeWithOptions, name := "get_option_value_or_raise", required := ["name", "value_type"] },
   { owner := .scopeWithOptions, name := "get_option_or_raise", required := ["name"] },
   { owner := .scopeWithOptions, name := "get_option_as_int_or_raise", required := ["name"] },
   { owner := .scopeWithOptions, name := "get_option_as_string_or_raise", required := ["name"] },
   { owner := .scopeWithOptions, name := "get_option_as_bool_or_raise", required := ["name"] }] ++
  plain .scopeWithOptions ["options", "options_as_dict"] ++
  [.bool, .byte, .uint, .int, .array, .typeAlias, .enum, .message, .type].flatMap (plain · ["nbits"]) ++
  plain .type ["nbytes"] ++
  [.array, .enum, .message, .extensibleType].flatMap (plain · ["ahead_nbits"]) ++
  plain .enum ["fields", "name_to_values", "value_to_names"] ++
  plain .message ["nfields", "fields", "sorted_fields", "number_to_field", "number_to_field_sorted"] ++
  [{ owner := .enum, name := "validate_enum_field_on_push", required := ["field"] },
   { owner := .message, name := "validate_message_field_on_push", required := ["field"] },
   { owner := .proto, name := "set_name", required := ["name"] },
   { owner := .proto, name := "set_comment_block", required := ["comment_block"] }]

namespace Method

def of? (k : Kind) (name : String) : Option Method :=
  (k :: k.wider).findSome? fun owner => all.find? fun m => m.owner = owner && m.name == name

def signature (m : Method) : Signature :=
  { title := m.owner.label ++ "." ++ m.name, required := m.required, optional := m.optional
    anyNumber := m.anyNumber }

end Method

/-- **What nodes of a kind can be asked**: their attributes, those that are worked out, and questions. -/
def Kind.knows (k : Kind) (name : String) : Bool :=
  (k.slot? name).isSome || (Work.derived k).contains name || (Method.of? k name).isSome

namespace Work

/-! ### Attributes -/

def lastScope (n : Nat) : Work Content := do
  match ← attributeOf n "scope_stack" with
  | .tuple items =>
    match items.getLast? with
    | some c => return c
    | none => throw (.indexRange .scopes)
  | .list items =>
    match items.getLast? with
    | some c => return c
    | none => throw (.indexRange .list)
  | .text s =>
    match s.toList.getLast? with
    | some c => return .text (String.singleton c)
    | none => throw (.indexRange .text)
  | c => throw (.mismatch ("'" ++ c.sort ++ "' object is not subscriptable"))

def lastScopeOf (n : Nat) (k : Kind) (otherwise : String) : Work Content := do
  let c ← lastScope n
  if isA c k then return c else throw (.internal otherwise)

/-- **The attribute with a name**, given or worked out. -/
def attributeNamed (n : Nat) (name : String) : Work Content := do
  let p ← piece n
  if (derived p.kind).contains name then
    match name with
    | "bound" => boundOf n
    | "enum" => lastScopeOf n .enum "enum_field's last scope not enum"
    | "message" => lastScopeOf n .message "message_field's last scope not message"
    | _ =>
      let target ← attributeOf n "type"
      if isA target .extensibleType then attributeIn target "extensible" else return .bool false
  else if name == "__frozen__" then return p.closedWord
  else if (Method.of? p.kind name).isSome && (p.given.lookup name).isNone then return .none
  else attributeOf n name

/-! ### Questions -/

def listedKind? (name : String) : Option Kind :=
  [("enums", .enum), ("messages", .message), ("constants", .constant), ("aliases", .typeAlias),
   ("enum_fields", .enumField), ("message_fields", .messageField), ("protos", .proto)].lookup name

def nothing (w : Work Unit) : Work Content := do
  w
  return .none

def checkGiven (c : Content) (name : String) (check : Nat → Work Unit) : Work Content :=
  match c with
  | .piece _ m => nothing (check m)
  | c => throw (c.lacks name)

def notKind : Fault := .mismatch "isinstance() arg 2 must be a type, a tuple of types, or a union"

def answer (n : Nat) (name : String) (args : List Content) : Work Content := do
  let p ← piece n
  let first := args.head?.getD .none
  match listedKind? name with
  | some k => list n k (args.head?.getD (.bool false)) ((args[1]?).getD .none)
  | none =>
    match name with
    | "is_frozen" => return p.closedWord
    | "freeze" => nothing (close n)
    | "validate_post_freeze" => nothing (check n)
    | "validate_array_cap" => nothing (checkCapacity n)
    | "validate_array_element_type" => nothing (checkElement n)
    | "validate_type" => nothing (checkAliased n)
    | "validate_member_on_push" =>
      match first with
      | .piece _ m => nothing (checkMember n m)
      | _ => return .none
    | "validate_option_on_push" => checkGiven first "name" (checkOption n)
    | "validate_enum_field_on_push" => checkGiven first "value" (checkEnumField n)
    | "validate_message_field_on_push" => checkGiven first "number" (checkFieldNumber n)
    | "filter" => do
      if (← membersOf n).isEmpty then return .list [] else throw notKind
    | "get_option_value_or_raise" => do
      discard (attributeIn (← optionOrFail n first) "value")
      throw notKind
    | "from_value" => do
      let m ← addFor p.kind [("value", first)]
      return (← get).refer m
    | "content" =>
      remembered n "content" [] do
        return .text (← ofExcept (commentText (← attributeOf n "token")))
    | "type_name" => return .text ((p.kind.literalKind?.map LiteralKind.word).getD "option")
    | "unwrap" => attributeOf n "value"
    | "push_member" =>
      match first with
      | .piece _ m => nothing (push n m ((args[1]?).getD .none))
      | c => throw (c.lacks "name")
    | "get_member" => memberAt n args
    | "get_name_by_member" => nameOf n first
    | "option" => optionOf n first
    | "get_option_or_raise" => optionOrFail n first
    | "get_option_as_int_or_raise" => optionValue n first .integer
    | "get_option_as_string_or_raise" => optionValue n first .string
    | "get_option_as_bool_or_raise" => optionValue n first .boolean
    | "options" => optionsOf n
    | "options_as_dict" => optionTable n
    | "nbits" => bitsOf (.piece p.kind n)
    | "nbytes" => bytesOf n
    | "ahead_nbits" =>
      match p.kind with
      | .enum => return .int 8
      | .array | .message => return .int aheadBits
      | _ => throw .notImplemented
    | "fields" => fieldsOf n
    | "nfields" =>
      remembered n "nfields" [] do
        return .int (← fieldsOf n).items.length
    | "sorted_fields" => sortedFieldsOf n
    | "number_to_field" => fieldsByNumber n
    | "number_to_field_sorted" => sortedFieldsByNumber n
    | "name_to_values" => valuesByName n
    | "value_to_names" => namesByValue n
    | "set_name" => nothing (setName n first)
    | "set_comment_block" => nothing (setComments n first)
    | _ => return .none

/-- **The answer to the question with a name.** -/
def call (n : Nat) (name : String) (args : List Content) : Work Content := do
  let p ← piece n
  match (p.given.lookup name).isNone, Method.of? p.kind name with
  | true, some m =>
    ofExcept (m.signature.check args.length)
    answer n name args
  | _, _ =>
    let c ← attributeNamed n name
    throw (.mismatch ("'" ++ c.sort ++ "' object is not callable"))

/-- Looks for what a name stands for: an attribute, or a question that takes no arguments. -/
def ask (n : Nat) (name : String) : Work Unit := do
  let p ← piece n
  match Method.of? p.kind name with
  | some m => discard (if m.required.isEmpty then call n name [] else attributeNamed n name)
  | none => discard (attributeNamed n name)

/-! ### Plain data -/

/-- A content as plain data, references followed `depth` times. -/
def sketchTo : Nat → Content → Work Sketch
  | 0, _ => throw .tooDeep
  | depth + 1, c =>
    match c with
    | .none => return .none
    | .bool b => return .bool b
    | .int n => return .int n
    | .text s => return .text s
    | .tuple items => return .list (← items.mapM (sketchTo depth))
    | .list items => return .list (← items.mapM (sketchTo depth))
    | .table entries => do
      return .list (← entries.mapM fun e => do
        return .list [← sketchTo depth e.1, ← sketchTo depth e.2])
    | .piece k n =>
      if k.within .definition then do
        let scopes ← (← attributeOf n "scope_stack").items.mapM fun s => do
          shown (← attributeIn s "name")
        let own ← shown (← attributeOf n "name")
        return .record [("kind", .text k.label), ("ref", .text (".".intercalate (scopes ++ [own])))]
      else do
        let common := [("kind", Sketch.text k.label), ("token", ← sketchTo depth (← attributeOf n "token")),
          ("line", ← sketchTo depth (← attributeOf n "lineno"))]
        match k with
        | .uint | .int => return .record (common ++ [("cap", ← sketchTo depth (← attributeOf n "cap"))])
        | .array =>
          return .record (common ++ [("cap", ← sketchTo depth (← attributeOf n "cap")),
            ("extensible", ← sketchTo depth (← attributeOf n "extensible")),
            ("nbits", ← sketchTo depth (← bitsOf c)),
            ("element", ← sketchTo depth (← attributeOf n "element_type"))])
        | _ => return .record common

/-- **A content as plain data.** -/
def sketch (c : Content) : Work Sketch := do sketchTo (2 * (← depth)) c

end Work

end BitSchema
