import BitSchema.Workbench.Answer

/-!
# Changing pieces

* `Work.add` lays a new piece on the bench.  Most pieces are complete at once and are closed: they are
  checked and take no more changes.  Scopes stay open until `Work.close`.
* `Work.setAttribute` and `Work.clearAttribute` change the attributes of open pieces.
* `Work.push` adds a member to an open scope.
-/

namespace BitSchema

def OptionSpec.allows (s : OptionSpec) (c : Content) : Except Fault Bool :=
  match s.bounds with
  | none => .ok true
  | some (low, none) => Content.compare .atLeast c (.int low)
  | some (low, some high) => do
    if ← Content.compare .atMost (.int low) c then Content.compare .atMost c (.int high)
    else return false

namespace Work

/-! ### Checks -/

def isElement (c : Content) : Bool :=
  [Kind.bool, .byte, .int, .uint, .enum, .message, .typeAlias].any (isA c)

def checkMessage (n : Nat) : Work Unit := do
  let size ← bitsOf ((← get).refer n)
  if ← ofExcept (size.compare .more (.int Def.maxMessageBits)) then failAbout .messageSize n ""
  let most ← optionValue n (.text "max_bytes") .integer
  if ← ofExcept (most.compare .more (.int 0)) then
    if ← ofExcept ((← bytesOf n).compare .more most) then
      failAbout .messageSize n ("Message size overflows constraint option, which configured to " ++
        (← shown most) ++ "bytes")

def checkCapacity (n : Nat) : Work Unit := do
  if !(← ofExcept ((← attributeOf n "cap").strictlyBetween 0 65536)) then failAbout .arrayCapacity n ""

def checkElement (n : Nat) : Work Unit := do
  if !isElement (← attributeOf n "element_type") then failAbout .arrayElement n ""

def checkAliased (n : Nat) : Work Unit := do
  let target ← attributeOf n "type"
  if isA target .definition then
    failAbout .aliasTarget n ("invalid type alias, target type '" ++
      (← shown (← attributeIn target "name")) ++ "' already has a name.")

/-- **Checks** a piece that is complete. -/
def check (n : Nat) : Work Unit := do
  match (← piece n).kind with
  | .uint =>
    if !(← attributeOf n "_is_missing").truth then
      if !(← ofExcept ((← attributeOf n "cap").strictlyBetween 0 65)) then failAbout .uintWidth n ""
  | .int =>
    let cap ← attributeOf n "cap"
    if !([8, 16, 32, 64].any fun (w : Int) => Content.int w == cap) then failAbout .intWidth n ""
  | .array => do
    checkCapacity n
    checkElement n
  | .typeAlias => checkAliased n
  | .enumField =>
    if ← ofExcept ((← attributeOf n "value").compare .less (.int 0)) then
      failAbout .enumFieldValue n ""
  | .messageField =>
    if !(← ofExcept ((← attributeOf n "number").strictlyBetween 0 256)) then
      failAbout .fieldNumber n ""
  | .message => checkMessage n
  | _ => return ()

/-- **Closing a piece.**  It is closed even if it turns out to be wrong.  Pieces of a kind that cannot be
closed stay open. -/
def close (n : Nat) : Work Unit := do
  let p ← piece n
  if p.closed then throw (.frozen .freeze)
  if p.kind.closes then
    replace n { p.erase Piece.closedName with closed := true }
    check n

/-! ### New pieces -/

/-- **A new piece** of a kind. -/
def add (kind : Kind) (given : List (String × Content)) : Work Nat := do
  match given.find? fun g => (kind.slot? g.1).isNone with
  | some g =>
    throw (.mismatch (kind.label ++ ".__init__() got an unexpected keyword argument '" ++ g.1 ++ "'"))
  | none =>
    let attributes := kind.slots.map fun s => (s.name, (given.lookup s.name).getD s.initial)
    let n ← lay ⟨kind, attributes, false⟩
    if kind.closesAtOnce then close n
    return n

def kindFor (wide : Kind) (value : Content) : Work Kind := do
  let constant := wide.within .constant
  match value.literal? with
  | some v => return (if constant then constantKind else optionKind) (some v.kind)
  | none =>
    let word := if constant then "constant" else "option"
    throw (.report { problem := .optionValue
                     text := "Invalid " ++ word ++ " value " ++ (← shown value) })

/-- **A new option or constant** of the kind that suits its value. -/
def addFor (wide : Kind) (given : List (String × Content)) : Work Nat := do
  if !(wide.within .option || wide.within .constant) then
    throw (.badAttribute ("type object '" ++ wide.label ++ "' has no attribute 'from_value'"))
  match given.lookup "value" with
  | some value => add (← kindFor wide value) given
  | none =>
    let owner := if wide.within .constant then Kind.constant else .option
    throw (.mismatch (owner.label ++ ".from_value() missing 1 required positional argument: 'value'"))

/-! ### Attributes -/

def derived (k : Kind) : List String :=
  (if k.within .boundDefinition then ["bound"] else []) ++
    match k with
    | .typeAlias => ["extensible"]
    | .enumField => ["enum"]
    | .messageField => ["message"]
    | _ => []

def changeAttribute (n : Nat) (name : String) (way : Change) (word : String) (f : Piece → Work Piece) :
    Work Unit := do
  let p ← piece n
  if p.closed then throw (.frozen way)
  if (derived p.kind).contains name then
    throw (.badAttribute ("property '" ++ name ++ "' of '" ++ p.kind.label ++ "' object has no " ++ word))
  replace n (← f p)

/-- **Gives an attribute** of an open piece.  A piece that is told that it is closed is closed, without
being checked. -/
def setAttribute (n : Nat) (name : String) (c : Content) : Work Unit :=
  changeAttribute n name .assign "setter" fun p =>
    let closed := name == Piece.closedName && p.kind.closes && c.truth
    return { p.put name c with closed }

/-- **Takes an attribute** of an open piece back. -/
def clearAttribute (n : Nat) (name : String) : Work Unit :=
  changeAttribute n name .delete "deleter" fun p =>
    if (p.given.lookup name).isSome then return p.erase name
    else throw (.noAttribute p.kind.label name)

def setName (n : Nat) (name : Content) : Work Unit := do
  if (← piece n).closed then throw (.internal "set_name on frozen proto")
  setAttribute n "name" name

def setComments (n : Nat) (comments : Content) : Work Unit := do
  if (← piece n).closed then throw (.internal "set_comment_block on frozen proto")
  setAttribute n "comment_block" comments

/-! ### Members -/

def checkOption (scope member : Nat) : Work Unit := do
  match ← optionSpec? scope (← attributeOf member "name") with
  | none => failAbout .optionUnknown member ""
  | some s =>
    if !(← piece member).kind.within (optionKind (some s.default.kind)) then
      failAbout .optionValue member ("invalid option type, requires " ++ s.default.kind.word)
    if !(← ofExcept (s.allows (← attributeOf member "value"))) then
      failAbout .optionValue member ("invalid option value (description => " ++ s.description ++ ")")

def checkEnumField (scope member : Nat) : Work Unit := do
  let value ← attributeOf member "value"
  let number ← match value.number? with
    | some number => pure number
    | none => throw (value.lacks "bit_length")
  let length : Content := .int (bitLength number.natAbs)
  if ← ofExcept (length.compare .more (← bitsOf ((← get).refer scope))) then
    failAbout .enumFieldOverflow member ""
  if (Content.entry? (← namesByValue scope).entries value).isSome then
    failAbout .duplicateEnumValue member ""

def checkFieldNumber (scope member : Nat) : Work Unit := do
  let number ← attributeOf member "number"
  if (Content.entry? (← fieldsByNumber scope).entries number).isSome then
    failAbout .duplicateFieldNumber member ""

def checkMember (scope member : Nat) : Work Unit := do
  let owner := (← piece scope).kind
  let kind := (← piece member).kind
  if owner.within .scopeWithOptions && kind.within .option then checkOption scope member
  if owner = .enum && kind = .enumField then checkEnumField scope member
  if owner = .message && kind = .messageField then checkFieldNumber scope member

/-- **A new member** of an open scope, under a name or else its own. -/
def push (scope member : Nat) (name : Content) : Work Unit := do
  let p ← piece scope
  let kind := (← piece member).kind
  if !p.kind.within .scope then throw (.noAttribute p.kind.label "push_member")
  if p.closed then throw (.internal "push on frozen scope.")
  let name ← match name with
    | .none => attributeOf member "name"
    | c => pure c
  ofExcept name.checkKey
  let members ← membersOf scope
  if (Content.entry? members name).isSome then failAbout .duplicateDefinition member ""
  checkMember scope member
  let p ← piece scope
  replace scope (p.put "members" (.table (members ++ [(name, .piece kind member)])))

end Work

end BitSchema
