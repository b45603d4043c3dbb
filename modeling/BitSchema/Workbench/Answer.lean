import BitSchema.Workbench.Describe

/-!
# Questions about pieces

What can be asked of the pieces on a bench: their sizes, the members of scopes, the fields of enums and
messages, and options.  The answers are those a finished schema would give, as far as what stands in the
attributes makes sense; where it makes none, the work fails.
-/

namespace BitSchema.Work

/-! ### Members -/

def membersOf (n : Nat) : Work (List (Content × Content)) := do
  match ← attributeOf n "members" with
  | .table entries => return entries
  | c => throw (c.lacks "items")

def boundOf (n : Nat) : Work Content := do
  let c ← attributeOf n "_bound"
  if c.truth then return c else throw (.internal "BoundDefinition got bound None")

def isA (c : Content) (k : Kind) : Bool :=
  match c with
  | .piece own _ => own.within k
  | _ => false

def belongsTo (bound : Content) (member : Content) : Work Bool :=
  if bound.truth then
    match member with
    | .piece k n => if k.within .boundDefinition then return (← boundOf n) == bound else return false
    | _ => return false
  else return true

/-- **Listing** the members of a kind with their names: with `recursive` what is inside a member comes
before it, with `bound` only members of that file are looked at. -/
def listing : Nat → Nat → Kind → Content → Option Content → Work Content
  | 0, _, _, _, _ => throw .tooDeep
  | depth + 1, n, k, recursive, bound =>
    remembered n "filter" ([.text k.label, recursive] ++ bound.toList) do
      let parts ← (← membersOf n).mapM fun (name, member) => do
        if ← belongsTo (bound.getD .none) member then
          let inner ← match member with
            | .piece mk m =>
              if recursive.truth && mk.within .scope then listing depth m k recursive none
              else pure (.list [])
            | _ => pure (.list [])
          return inner.items ++ if isA member k then [.tuple [name, member]] else []
        else return []
      return .list parts.flatten

def list (n : Nat) (k : Kind) (recursive bound : Content) : Work Content := do
  listing (← depth) n k recursive (some bound)

/-- **Path look-up.** The member reached by following the names. -/
def memberAt (n : Nat) : List Content → Work Content
  | [] => return .none
  | name :: rest =>
    remembered n "get_member" (name :: rest) do
      ofExcept name.checkKey
      match Content.entry? (← membersOf n) name with
      | none => return .none
      | some member =>
        if rest.isEmpty then return member
        else
          match member with
          | .piece k m => if k.within .scope then memberAt m rest else return .none
          | _ => return .none

def nameOf (n : Nat) (member : Content) : Work Content :=
  remembered n "get_name_by_member" [member] do
    return (((← membersOf n).find? fun m => m.2 == member).map (·.1)).getD .none

def tableOf (pairs : List (Content × Content)) : Work Content := do
  pairs.forM fun p => ofExcept p.1.checkKey
  return .table (keyed pairs)

/-! ### Fields -/

def fieldsOf (n : Nat) : Work Content :=
  remembered n "fields" [] do
    let kind := if (← piece n).kind = .enum then .enumField else .messageField
    let pairs ← list n kind (.bool false) .none
    return .list (pairs.items.map fun p => p.items.getLast?.getD .none)

def sortedFieldsOf (n : Nat) : Work Content :=
  remembered n "sorted_fields" [] do
    let numbered ← (← fieldsOf n).items.mapM fun f => do
      return (((← attributeIn f "number").number?).getD 0, f)
    return .list ((numbered.mergeSort fun a b => a.1 ≤ b.1).map (·.2))

def fieldTable (fields : Content) (key value : Content → Work Content) : Work Content := do
  tableOf (← fields.items.mapM fun f => do return (← key f, ← value f))

def valuesByName (n : Nat) : Work Content :=
  remembered n "name_to_values" [] do
    fieldTable (← fieldsOf n) (attributeIn · "name") (attributeIn · "value")

def namesByValue (n : Nat) : Work Content :=
  remembered n "value_to_names" [] do
    fieldTable (← fieldsOf n) (attributeIn · "value") (attributeIn · "name")

def fieldsByNumber (n : Nat) : Work Content :=
  remembered n "number_to_field" [] do
    fieldTable (← fieldsOf n) (attributeIn · "number") pure

def sortedFieldsByNumber (n : Nat) : Work Content :=
  remembered n "number_to_field_sorted" [] do
    fieldTable (← sortedFieldsOf n) (attributeIn · "number") pure

/-! ### Sizes -/

def lengthened (n : Nat) (size : Content) : Work Content := do
  if (← attributeOf n "extensible").truth then ofExcept (Content.plus (.int aheadBits) size)
  else return size

def bits : Nat → Content → Work Content
  | 0, _ => throw .tooDeep
  | depth + 1, c =>
    match c with
    | .piece .bool _ => return .int 1
    | .piece .byte _ => return .int 8
    | .piece .uint n | .piece .int n => attributeOf n "cap"
    | .piece .typeAlias n | .piece .enum n => do bits depth (← attributeOf n "type")
    | .piece .array n =>
      remembered n "nbits" [] do
        let cap ← attributeOf n "cap"
        let element ← bits depth (← attributeOf n "element_type")
        lengthened n (← ofExcept (cap.times element))
    | .piece .message n =>
      remembered n "nbits" [] do
        let total ← (← fieldsOf n).items.foldlM (fun total f => do
          let size ← bits depth (← attributeIn f "type")
          ofExcept (Content.plus total size)) (.int 0)
        lengthened n total
    | c => if isA c .type then throw .notImplemented else throw (c.lacks "nbits")

/-- **Size in bits.** -/
def bitsOf (c : Content) : Work Content := do bits (← depth) c

/-- **Size in bytes.** -/
def bytesOf (n : Nat) : Work Content :=
  remembered n "nbytes" [] do
    let c ← bitsOf ((← get).refer n)
    match c.number?, c with
    | some size, _ => return .int (← ofExcept (bytesOfInt size))
    | none, .text _ => throw (.mismatch "not all arguments converted during string formatting")
    | none, c => throw (Content.refused "%" c (.int 8))

/-! ### Options -/

def optionsOf (n : Nat) : Work Content := do
  list n .option (.bool false) (← attributeOf n "_bound")

def optionTable (n : Nat) : Work Content :=
  remembered n "options_as_dict" [] do
    tableOf ((← optionsOf n).items.map fun p =>
      ((p.items.head?).getD .none, (p.items.getLast?).getD .none))

def optionSpec? (n : Nat) (name : Content) : Work (Option OptionSpec) := do
  ofExcept (Content.checkKey ((← get).refer n))
  ofExcept name.checkKey
  let specs := if (← piece n).kind = .message then messageOptions else protoOptions
  return specs.find? fun s => Content.text s.name == name

/-- The option with the given name: as it is set, or else with its default value; nothing if the scope
takes no such option. -/
def optionOf (n : Nat) (name : Content) : Work Content :=
  remembered n "option" [name] do
    let set ← optionTable n
    ofExcept name.checkKey
    match Content.entry? set.entries name with
    | some o => return o
    | none =>
      match ← optionSpec? n name with
      | none => return .none
      | some s =>
        let kind := optionKind (some s.default.kind)
        let p : Piece := ⟨kind, kind.slots.map fun s => (s.name, s.initial), true⟩
        return .piece kind (← lay ((p.put "name" name).put "value" (.ofLiteral s.default)))

def optionOrFail (n : Nat) (name : Content) : Work Content :=
  remembered n "get_option_or_raise" [name] do
    let o ← optionOf n name
    if o.truth then return o
    else
      let note := "get_option_or_raise(" ++ (← shown name) ++ ") got None"
      throw (.report { problem := .optionUnknown, note })

def optionValue (n : Nat) (name : Content) (kind : LiteralKind) : Work Content := do
  let c ← attributeIn (← optionOrFail n name) "value"
  let ok : Bool := match c.literal? with
    | some v => v.kind = kind || (kind = .integer && v.kind = .boolean)
    | none => false
  if ok then return c else throw (.internal ("option value not " ++ kind.className))

end BitSchema.Work
