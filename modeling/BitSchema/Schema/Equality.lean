import BitSchema.Schema.Basic

/-!
# Equality of types and definitions

Types and definitions are compared part by part, so that it can be decided whether reading a schema gives a certain
one.
-/

namespace BitSchema

mutual

def Ty.same : Ty → Ty → Bool
  | .unknown o missing, .unknown o' missing' => o = o' ∧ missing = missing'
  | .bool o, .bool o' => o = o'
  | .byte o, .byte o' => o = o'
  | .uint o cap, .uint o' cap' => o = o' ∧ cap = cap'
  | .int o cap, .int o' cap' => o = o' ∧ cap = cap'
  | .array o element cap ext, .array o' element' cap' ext' =>
    decide (o = o') && element.same element' && decide (cap = cap' ∧ ext = ext')
  | .named d, .named d' => d.same d'
  | _, _ => false
termination_by structural t => t

def Def.same : Def → Def → Bool
  | .option h kind value, .option h' kind' value' => h = h' ∧ kind = kind' ∧ value = value'
  | .constant h kind value, .constant h' kind' value' => h = h' ∧ kind = kind' ∧ value = value'
  | .typeAlias h target, .typeAlias h' target' => decide (h = h') && target.same target'
  | .enum h o cap ms, .enum h' o' cap' ms' => decide (h = h' ∧ o = o' ∧ cap = cap') && sameMembers ms ms'
  | .enumField h value, .enumField h' value' => h = h' ∧ value = value'
  | .message h ext ms, .message h' ext' ms' => decide (h = h' ∧ ext = ext') && sameMembers ms ms'
  | .field h ty number, .field h' ty' number' => decide (h = h') && ty.same ty' && decide (number = number')
  | .proto h ms, .proto h' ms' => decide (h = h') && sameMembers ms ms'
  | _, _ => false
termination_by structural d => d

def sameMembers : List (String × Def) → List (String × Def) → Bool
  | [], [] => true
  | (n, d) :: r, (n', d') :: r' => decide (n = n') && d.same d' && sameMembers r r'
  | _, _ => false
termination_by structural ms => ms

end

mutual

theorem Ty.same_iff (t u : Ty) : t.same u = true ↔ t = u := by
  cases t with
  | array o element cap ext =>
    cases u with
    | array o' element' cap' ext' => simp [Ty.same, Ty.same_iff element element', and_assoc]
    | _ => simp [Ty.same]
  | named d =>
    cases u with
    | named d' => rw [Ty.same, Def.same_iff d d', Ty.named.injEq]
    | _ => simp [Ty.same]
  | _ => cases u <;> simp [Ty.same]

theorem Def.same_iff (d e : Def) : d.same e = true ↔ d = e := by
  cases d with
  | typeAlias h target =>
    cases e with
    | typeAlias h' target' => simp [Def.same, Ty.same_iff target target']
    | _ => simp [Def.same]
  | enum h o cap ms =>
    cases e with
    | enum h' o' cap' ms' => simp [Def.same, sameMembers_iff ms ms', and_assoc]
    | _ => simp [Def.same]
  | message h ext ms =>
    cases e with
    | message h' ext' ms' => simp [Def.same, sameMembers_iff ms ms', and_assoc]
    | _ => simp [Def.same]
  | field h ty number =>
    cases e with
    | field h' ty' number' => simp [Def.same, Ty.same_iff ty ty', and_assoc]
    | _ => simp [Def.same]
  | proto h ms =>
    cases e with
    | proto h' ms' => simp [Def.same, sameMembers_iff ms ms']
    | _ => simp [Def.same]
  | _ => cases e <;> simp [Def.same]

theorem sameMembers_iff (ms ms' : List (String × Def)) : sameMembers ms ms' = true ↔ ms = ms' := by
  match ms, ms' with
  | [], [] => simp [sameMembers]
  | [], _ :: _ => simp [sameMembers]
  | _ :: _, [] => simp [sameMembers]
  | (n, d) :: r, (n', d') :: r' => simp [sameMembers, Def.same_iff d d', sameMembers_iff r r']

end

instance : DecidableEq Ty := fun t u => decidable_of_iff _ (Ty.same_iff t u)

instance : DecidableEq Def := fun d e => decidable_of_iff _ (Def.same_iff d e)

end BitSchema
