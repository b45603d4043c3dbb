import BitSchema.Schema.Members
import BitSchema.Wire.Processor

/-!
# Layouts of schema types

What a type of a schema means on the wire: its `Processor`, how the leaves of a field of the type are
reached, and the value it has before anything is set.  The fields of a message are laid out by
increasing number.
-/

namespace BitSchema

open Wire

/-- Orders numbered things by their numbers. -/
def byNumber {α : Type} (xs : List (Nat × α)) : List (Nat × α) :=
  xs.mergeSort fun a b => a.1 ≤ b.1

mutual

/-- **The layout of a type.** -/
def Ty.processor : Ty → Processor
  | .unknown _ _ => .message false 0 []
  | .bool _ => .bool
  | .byte _ => .byte
  | .uint _ cap => .uint cap
  | .int _ cap => .int cap
  | .array _ element cap ext => .array ext cap element.processor
  | .named d => d.processor

/-- **The layout of a defined type.** -/
def Def.processor : Def → Processor
  | .typeAlias _ target => .typeAlias target.processor
  | .enum _ _ cap _ => .enum cap
  | .message h ext ms =>
    .message ext (Def.message h ext ms).nbits ((byNumber (fieldProcessors ms)).map fun f => .field f.1 f.2)
  | _ => .message false 0 []

/-- The layouts of the fields among the members of a message, with their numbers. -/
def fieldProcessors : List (String × Def) → List (Nat × Processor)
  | [] => []
  | (_, d) :: r => d.fieldProcessor ++ fieldProcessors r

def Def.fieldProcessor : Def → List (Nat × Processor)
  | .field _ ty number => [(number, ty.processor)]
  | _ => []

end

namespace Wire.Access

/-- The same leaves inside one more array. -/
def deeper : Access → Access
  | .leaf depth kind => .leaf (depth + 1) kind
  | .child depth => .child (depth + 1)
  | .taken kind access => .taken kind access

end Wire.Access

mutual

/-- How the leaves of a type are reached. -/
def Ty.access : Ty → Option Access
  | .unknown _ _ => none
  | .bool _ => some (.leaf 0 .bool)
  | .byte _ => some (.leaf 0 .unsigned)
  | .uint _ _ => some (.leaf 0 .unsigned)
  | .int _ cap => some (.leaf 0 (.signed cap))
  | .array _ element _ _ => element.access.map Access.deeper
  | .named d => d.access

/-- How the leaves of a defined type are reached. -/
def Def.access : Def → Option Access
  | .typeAlias _ target => target.access
  | .enum _ _ _ _ => some (.leaf 0 .unsigned)
  | .message _ _ _ => some (.child 0)
  | _ => none

end

mutual

/-- The initial value of a type, with records named in the given way.  Bytes in a row are kept together. -/
def Ty.initialBy (title : Def → String) : Ty → Value
  | .unknown _ _ => .int 0
  | .bool _ => .bool false
  | .byte _ => .int 0
  | .uint _ _ => .int 0
  | .int _ _ => .int 0
  | .array _ (.byte _) cap _ => .bytes (Array.replicate cap 0)
  | .array _ element cap _ => .list (Array.replicate cap (element.initialBy title))
  | .named d => d.initialBy title

/-- The initial value of a defined type, with records named in the given way. -/
def Def.initialBy (title : Def → String) : Def → Value
  | .typeAlias _ target => target.initialBy title
  | .enum _ _ _ _ => .int 0
  | .message h ext ms => .record (title (.message h ext ms)) ((byNumber (slotsBy title ms)).map (·.2))
  | _ => .int 0

/-- The fields among the members of a message with their numbers and initial values. -/
def slotsBy (title : Def → String) : List (String × Def) → List (Nat × Slot × Value)
  | [] => []
  | (_, d) :: r => d.slotBy title ++ slotsBy title r

/-- A field with its number and initial value. -/
def Def.slotBy (title : Def → String) : Def → List (Nat × Slot × Value)
  | .field h ty number => [(number, ⟨number, h.name, ty.access⟩, ty.initialBy title)]
  | _ => []

end

/-- **The initial value** of a type. -/
def Ty.initial (t : Ty) : Value := t.initialBy Def.name

/-- **The initial value** of a defined type. -/
def Def.initial (d : Def) : Value := d.initialBy Def.name

end BitSchema
