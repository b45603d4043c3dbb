import BitSchema.Proofs.Fields
import BitSchema.Schema.Rules

/-!
# Well-formed schemas

What is true of every type and definition that the rules of schemas let through, at every depth:

* widths of integers exist, arrays hold 1 to 65535 elements that are no arrays, and an alias stands for
  something that has no name;
* in a scope all names differ, all options are accepted, and so do the values of enum fields, which fit the
  enum, and the numbers of message fields, which are 1 to 255 (`Def.Sound`);
* a message is not too large (`Def.checkMessage`).
-/

namespace BitSchema

def Ty.isNamed : Ty → Bool
  | .named _ => true
  | _ => false

def Def.enumValue? : Def → Option Nat
  | .enumField _ value => some value
  | _ => none

/-- **Sound scopes.**  What adding members one by one guarantees of all of them together. -/
structure Def.Sound (d : Def) : Prop where
  names : (d.members.map (·.1)).Nodup
  options : ∀ m ∈ d.members, d.checkOption m.2 = .ok ()
  values : ∀ h o cap ms, d = .enum h o cap ms →
    (ms.filterMap fun m => m.2.enumValue?).Nodup ∧
      ∀ m ∈ ms, ∀ value ∈ m.2.enumValue?, bitLength value ≤ cap
  numbers : ∀ h ext ms, d = .message h ext ms → ((fieldsOf ms).map Field.number).Nodup

mutual

/-- **Well-formed types.** -/
def Ty.WellFormed : Ty → Prop
  | .unknown _ _ => False
  | .bool _ => True
  | .byte _ => True
  | .uint _ cap => 0 < cap ∧ cap ≤ 64
  | .int _ cap => cap = 8 ∨ cap = 16 ∨ cap = 32 ∨ cap = 64
  | .array _ element cap _ => 0 < cap ∧ cap < 65536 ∧ element.isElement = true ∧ element.WellFormed
  | .named d => d.isType = true ∧ d.WellFormed

/-- **Well-formed definitions.** -/
def Def.WellFormed : Def → Prop
  | .typeAlias _ target => target.isNamed = false ∧ target.WellFormed
  | .enum h o cap ms => 0 < cap ∧ cap ≤ 64 ∧ (Def.enum h o cap ms).Sound ∧ membersWellFormed ms
  | .message h ext ms =>
    (Def.message h ext ms).checkMessage = .ok () ∧ (Def.message h ext ms).Sound ∧ membersWellFormed ms
  | .field _ ty number => 0 < number ∧ number < 256 ∧ ty.WellFormed
  | .proto h ms => (Def.proto h ms).Sound ∧ membersWellFormed ms
  | _ => True

def membersWellFormed : List (String × Def) → Prop
  | [] => True
  | (_, d) :: r => d.WellFormed ∧ membersWellFormed r

end

theorem membersWellFormed_iff {ms : Members} : membersWellFormed ms ↔ ∀ m ∈ ms, m.2.WellFormed := by
  induction ms with
  | nil => simp [membersWellFormed]
  | cons m ms ih => simp [membersWellFormed, ih]

/-! ### Fields of messages -/

theorem mem_of_mem_fieldsOf {ms : Members} {f : Field} (h : f ∈ fieldsOf ms) :
    ∃ n, (n, Def.field f.header f.ty f.number) ∈ ms := by
  obtain ⟨⟨n, d⟩, hmem, hd⟩ := List.mem_filterMap.1 h
  refine ⟨n, ?_⟩
  cases d <;> simp [Def.field?] at hd
  subst hd
  exact hmem

namespace Def.WellFormed

variable {h : Header} {ext : Bool} {ms : Members}

theorem field (hwf : (Def.message h ext ms).WellFormed) {f : Field} (hf : f ∈ fieldsOf ms) :
    0 < f.number ∧ f.number < 256 ∧ f.ty.WellFormed := by
  obtain ⟨n, hmem⟩ := mem_of_mem_fieldsOf hf
  exact membersWellFormed_iff.1 hwf.2.2 _ hmem

theorem numbered (hwf : (Def.message h ext ms).WellFormed) : Numbered ms :=
  ⟨hwf.2.1.numbers _ _ _ rfl, fun _ hf => (hwf.field hf).1⟩

/-- **A well-formed message has at most 65535 bits.** -/
theorem nbits_le (hwf : (Def.message h ext ms).WellFormed) : (Def.message h ext ms).nbits ≤ 65535 := by
  have hcheck := hwf.1
  unfold Def.checkMessage at hcheck
  by_contra hgt
  have hlarge : (Def.message h ext ms).nbits > Def.maxMessageBits := by
    unfold Def.maxMessageBits
    omega
  simp [hlarge, bind, Except.bind, throw, throwThe, MonadExceptOf.throw] at hcheck

end Def.WellFormed

end BitSchema
