import BitSchema.Wire.Functions
import BitSchema.Wire.Json

/-!
# Objects of messages

An object of the class of a message holds a record.  Values can be put into its fields and under other names, also
under those of its functions and of its size, which they then replace.  This is so for the records inside it as well
(`BitSchema.Wire.Functions`).  The layouts of the messages inside a message are asked of new objects of their classes;
a field with the name of the function that is asked has the function itself as its first value.
-/

namespace BitSchema.Loading

open Wire

/-- **Objects.** -/
structure Object where
  message : Def
  /-- The name of the class. -/
  title : String
  slots : List (Slot × Value)

def sizeName : String := "BYTES_LENGTH"

/-- The function that gives the layout. -/
def layoutName : String := "bp_processor"

/-- **The members of the class of a message** besides the fields. -/
def memberNames : List String :=
  [sizeName, layoutName, adderName, takerName, entryName, "encode", "decode", "to_dict", "to_json"]

def maxBuffer : Int := 4294967296

def bufferOf : Value → Except Fault (Array UInt8)
  | .int n =>
    if !isIndex n then .error .indexSize
    else if n < 0 then .error (.badValue "negative count")
    else if n > maxBuffer then .error .outOfMemory
    else .ok (Array.replicate n.toNat 0)
  | .bool b => .ok (Array.replicate (if b then 1 else 0) 0)
  | .bytes bs => .ok bs
  | .list items => items.mapM Value.toByte
  | v => .error (.mismatch ("cannot convert '" ++ v.kindWord ++ "' object to bytearray"))

def areEnough (bytes : Array UInt8) : Value → Except Fault Bool
  | .int n => .ok (n ≤ bytes.size)
  | .bool b => .ok ((if b then 1 else 0) ≤ bytes.size)
  | v => .error (.mismatch ("'>=' not supported between instances of 'int' and '" ++ v.kindWord ++ "'"))

mutual

def unaliased : Ty → Ty
  | .named d => unaliasedDef d
  | t => t

def unaliasedDef : Def → Ty
  | .typeAlias _ target => unaliased target
  | d => .named d

end

def typeAlong : List Step → Ty → Option Ty
  | [], t => some t
  | .index _ :: path, t =>
    match unaliased t with
    | .array _ element _ _ => typeAlong path element
    | _ => none
  | .field name :: path, t =>
    match unaliased t with
    | .named d => do typeAlong path (← (← d.fields.find? fun f => f.name == name).ty?)
    | _ => none

mutual

/-- The messages inside a type. -/
def typeMessages : Ty → List Def
  | .array _ element _ _ => typeMessages element
  | .named d => messages d
  | _ => []

/-- **The messages inside a defined type**, itself among them. -/
def messages : Def → List Def
  | .typeAlias _ target => typeMessages target
  | .message h ext ms => .message h ext ms :: memberMessages ms
  | _ => []

def memberMessages : List (String × Def) → List Def
  | [] => []
  | (_, d) :: r => fieldMessages d ++ memberMessages r

def fieldMessages : Def → List Def
  | .field _ ty _ => typeMessages ty
  | _ => []

end

def hasField (name : String) (d : Def) : Bool := d.fields.any fun f => f.name == name

/-- Asks a new object of the class of a message for its layout. -/
def askLayout (d : Def) : Except Fault Unit :=
  if hasField layoutName d then
    .error (.mismatch (d.name ++ "." ++ layoutName ++ "() missing 1 required positional argument: 'self'"))
  else .ok ()

namespace Object

def value (o : Object) : Value := .record o.title o.slots

def need (o : Object) (name : String) : Except Fault Unit :=
  match Value.field? o.slots name with
  | some v => .error (Accessor.notCallable v.kindWord)
  | none => .ok ()

/-- **What a path leads to.**  Records tell their sizes. -/
def get (o : Object) (path : List Step) : Except Fault Value :=
  match o.value.get path with
  | .ok v => .ok v
  | .error f =>
    match path.getLast? == some (.field sizeName), o.value.get path.dropLast,
      (typeAlong path.dropLast (.named o.message)).map unaliased with
    | true, .ok (.record _ _), some (.named d) => do return .int (← d.nbytes)
    | _, _, _ => .error f

/-- **Puts a value** where a path leads to. -/
def put (o : Object) (path : List Step) (x : Value) : Except Fault Object := do
  if path.isEmpty then throw (.indexRange .list)
  match ← o.value.set x path with
  | .record title slots => return { o with title, slots }
  | _ => return o

/-- **The size** of an object. -/
def size (o : Object) : Except Fault Value := o.get [.field sizeName]

/-- Gets the layout. -/
def needLayout (o : Object) : Except Fault Unit := do
  o.need layoutName
  (messages o.message).tail.forM askLayout

/-- The fault in which a run ends that does not find a function: the first one that it meets. -/
def firstFault {α : Type} (o : Object) : Except Fault α → Fault
  | .error f => f
  | .ok _ => Accessor.notCallable o.title

/-- **Packs** an object. -/
def encode (o : Object) : Except Fault (Array UInt8) := do
  o.need "encode"
  let buffer ← bufferOf (← o.size)
  o.needLayout
  if o.value.calls takerName then Wire.pack o.message.processor buffer o.title o.slots
  else throw (o.firstFault (Wire.pack o.message.processor buffer o.title (o.value.screened takerName).slots))

def checkBytes (o : Object) (bytes : Array UInt8) : Except Fault Unit := do
  o.need "decode"
  if !(← areEnough bytes (← o.size)) then throw .notEnoughBytes
  o.needLayout

/-- **Unpacks** bytes into an object, which comes back changed also after a fault. -/
def decode (o : Object) (bytes : Array UInt8) : Object × Except Fault Unit :=
  match o.checkBytes bytes with
  | .error f => (o, .error f)
  | .ok _ =>
    if o.value.calls adderName then
      let (r, slots) := Wire.unpack o.message.processor bytes o.title o.slots
      ({ o with slots }, r)
    else
      let (r, slots) := Wire.unpack o.message.processor bytes o.title (o.value.screened adderName).slots
      ({ o with slots := (Value.record o.title slots).unscreened.slots }, .error (o.firstFault r))

/-- **The fields** of an object. -/
def fields (o : Object) : Except Fault Value := do
  o.need "to_dict"
  return o.value

/-- **The JSON text** of an object. -/
def json (o : Object) (style : Except Fault JsonLayout) : Except Fault String := do
  o.need "to_json"
  let v ← o.fields
  v.json (← style)

end Object

end BitSchema.Loading
