import BitSchema.Schema.Describe
import BitSchema.Schema.Options
import BitSchema.Schema.Size

/-!
# Rules of well-formed schemas

Each rule is checked at the moment the piece it speaks of is complete.

* Widths: unsigned integers have 1 to 64 bits, signed ones 8, 16, 32 or 64 (`checkUint`, `checkInt`).
* Arrays hold 1 to 65535 elements (`makeArray`).
* An alias stands for a base type or an array, never for something that has a name (`makeAlias`).
* Fields of messages are numbered from 1 to 255 (`makeField`).
* A scope has at most one member of a name; values of enum fields fit the enum and differ; numbers of
  message fields differ; options are known, of the right kind and within bounds (`Def.push`).
* A message has at most 65535 bits, and no more bytes than its option `max_bytes` says
  (`Def.checkMessage`).
-/

namespace BitSchema

namespace Report

def about (problem : Problem) (o : Origin) (note : String) : Report :=
  { problem, note, file := o.file, token := o.token, line := o.line }

end Report

def Fault.about (problem : Problem) (o : Origin) (note : String) : Fault :=
  .report (.about problem o note)

/-! ### Types -/

def Ty.isElement : Ty → Bool
  | .unknown _ _ => false
  | .array _ _ _ _ => false
  | .named d => d.isType
  | _ => true

/-- An array type, if its capacity is in range and its elements are no arrays themselves. -/
def makeArray (o : Origin) (element : Ty) (cap : Int) (ext : Bool) : Except Fault Ty :=
  if ¬(0 < cap ∧ cap < 65536) then .error (.about .arrayCapacity o "")
  else if !element.isElement then .error (.about .arrayElement o "")
  else .ok (.array o element cap.toNat ext)

/-! ### Definitions -/

def makeAlias (h : Header) (target : Ty) : Except Fault Def :=
  match target with
  | .named d =>
    .error (.about .aliasTarget h.origin
      ("invalid type alias, target type '" ++ d.name ++ "' already has a name."))
  | t => .ok (.typeAlias h t)

def makeField (h : Header) (ty : Ty) (number : Int) : Except Fault Def :=
  if 0 < number ∧ number < 256 then .ok (.field h ty number.toNat)
  else .error (.about .fieldNumber h.origin "")

def makeEnumField (h : Header) (value : Int) : Except Fault Def :=
  if 0 ≤ value then .ok (.enumField h value.toNat)
  else .error (.about .enumFieldValue h.origin "")

/-! ### Members -/

namespace Def

/-- Checks that a value of an enum field fits the enum and is new. -/
def checkEnumField (d : Def) (member : Def) : Except Fault Unit :=
  match d, member with
  | .enum _ _ cap _, .enumField h value =>
    if bitLength value > cap then .error (.about .enumFieldOverflow h.origin "")
    else if d.enumFields.any fun f => f.value == value then
      .error (.about .duplicateEnumValue h.origin "")
    else .ok ()
  | _, _ => .ok ()

def checkFieldNumber (d : Def) (member : Def) : Except Fault Unit :=
  match d, member with
  | .message _ _ _, .field h _ number =>
    if d.fields.any fun f => f.number == number then
      .error (.about .duplicateFieldNumber h.origin "")
    else .ok ()
  | _, _ => .ok ()

/-- Checks that an option is known to the scope, of the right kind and within bounds. -/
def checkOption (d : Def) (member : Def) : Except Fault Unit :=
  match d.scopeKind?, member with
  | some .enum, _ => .ok ()
  | _, .option h kind value =>
    match d.optionSpec? h.name with
    | none => .error (.about .optionUnknown h.origin "")
    | some s =>
      if kind ≠ some s.default.kind then
        .error (.about .optionValue h.origin
          ("invalid option type, requires " ++ s.default.kind.word))
      else if !s.accepts value then
        .error (.about .optionValue h.origin
          ("invalid option value (description => " ++ s.description ++ ")"))
      else .ok ()
  | _, _ => .ok ()

/-- **Adding a member** to a scope under a name. -/
def push (d : Def) (member : Def) (name : String) : Except Fault Def := do
  if Members.has d.members name then
    throw (.about .duplicateDefinition member.header.origin "")
  d.checkOption member
  d.checkEnumField member
  d.checkFieldNumber member
  return d.withMembers (d.members ++ [(name, member)])

def maxMessageBits : Nat := 65535

def checkMessage (d : Def) : Except Fault Unit := do
  if d.nbits > maxMessageBits then
    throw (.about .messageSize d.header.origin "")
  let maxBytes ← d.intOption "max_bytes"
  if maxBytes > 0 then
    let nbytes ← d.nbytes
    if (nbytes : Int) > maxBytes then
      throw (.about .messageSize d.header.origin
        ("Message size overflows constraint option, which configured to " ++ toString maxBytes ++
          "bytes"))

def checkClosed (d : Def) : Except Fault Unit :=
  match d with
  | .message _ _ _ => d.checkMessage
  | _ => .ok ()

end Def

end BitSchema
