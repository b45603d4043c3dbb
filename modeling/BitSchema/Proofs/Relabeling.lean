import BitSchema.Proofs.Listing
import BitSchema.Reader

/-!
# Relabelled definitions

Two readings of the same text give definitions that may differ in their labels: serial numbers, the scopes around
them, comments, and where they were read.  A `Relabeling` changes the labels and keeps names, kinds, values, numbers and
types; it may also rearrange the members of messages.  Two definitions are alike if some relabeling of the one is some
relabeling of the other.

The rules of well-formed schemas do not look at labels.  A relabelled definition has the same size
(`Def.nbits_relabel`), is found by the same names (`Def.member?_relabel`), takes the same members (`Def.push_relabel`)
and passes the same last check (`Def.checkClosed_relabel`).
-/

namespace BitSchema

open List

/-- **A way to change labels.** -/
structure Relabeling where
  origin : Origin → Origin
  id : Nat → Nat
  scopes : List ScopeRef → List ScopeRef
  comments : List Comment → List Comment
  indent : Int → Int
  /-- The order in which the members of a message are put. -/
  arrange : Members → Members
  id_injective : Function.Injective id
  perm : ∀ ms, (arrange ms).Perm ms

namespace Relabeling

def header (ρ : Relabeling) (h : Header) : Header where
  origin := ρ.origin h.origin
  id := ρ.id h.id
  name := h.name
  scopes := ρ.scopes h.scopes
  comments := ρ.comments h.comments
  indent := ρ.indent h.indent
  bound := h.bound.map ρ.id
  frozen := h.frozen

def ref (ρ : Relabeling) (r : ScopeRef) : ScopeRef := ⟨ρ.id r.id, r.kind⟩

/-- The new order does not matter for the listing of the definitions of a kind. -/
def Lists (ρ : Relabeling) (k : Kind) : Prop := ∀ ms, membersWithin k (ρ.arrange ms) = membersWithin k ms

/-- Plain relabelings leave the members of messages in order. -/
def Plain (ρ : Relabeling) : Prop := ∀ ms, ρ.arrange ms = ms

end Relabeling

mutual

/-- **The type with other labels.** -/
def Ty.relabel (ρ : Relabeling) : Ty → Ty
  | .unknown o missing => .unknown o missing
  | .bool o => .bool (ρ.origin o)
  | .byte o => .byte (ρ.origin o)
  | .uint o cap => .uint (ρ.origin o) cap
  | .int o cap => .int (ρ.origin o) cap
  | .array o element cap ext => .array (ρ.origin o) (element.relabel ρ) cap ext
  | .named d => .named (d.relabel ρ)

/-- **The definition with other labels.** -/
def Def.relabel (ρ : Relabeling) : Def → Def
  | .option h k v => .option (ρ.header h) k v
  | .constant h k v => .constant (ρ.header h) k v
  | .typeAlias h target => .typeAlias (ρ.header h) (target.relabel ρ)
  | .enum h o cap ms => .enum (ρ.header h) (ρ.origin o) cap (membersRelabel ρ ms)
  | .enumField h v => .enumField (ρ.header h) v
  | .message h ext ms => .message (ρ.header h) ext (ρ.arrange (membersRelabel ρ ms))
  | .field h ty n => .field (ρ.header h) (ty.relabel ρ) n
  | .proto h ms => .proto (ρ.header h) (membersRelabel ρ ms)

def membersRelabel (ρ : Relabeling) : List (String × Def) → List (String × Def)
  | [] => []
  | (n, d) :: r => (n, d.relabel ρ) :: membersRelabel ρ r

end

def Relabeling.member (ρ : Relabeling) (m : String × Def) : String × Def := (m.1, m.2.relabel ρ)

variable {ρ : Relabeling}

theorem membersRelabel_eq_map (ms : Members) : membersRelabel ρ ms = ms.map ρ.member := by
  induction ms with
  | nil => rfl
  | cons m ms ih =>
    obtain ⟨n, d⟩ := m
    rw [membersRelabel, ih, map_cons, Relabeling.member]

/-! ### What labels do not change -/

namespace Def

@[simp] theorem header_relabel (d : Def) : (d.relabel ρ).header = ρ.header d.header := by cases d <;> rfl

@[simp] theorem name_relabel (d : Def) : (d.relabel ρ).name = d.name := by cases d <;> rfl

theorem freeze_relabel (d : Def) : d.freeze.relabel ρ = (d.relabel ρ).freeze := by cases d <;> rfl

@[simp] theorem id_relabel (d : Def) : (d.relabel ρ).id = ρ.id d.id := by cases d <;> rfl

@[simp] theorem kind_relabel (d : Def) : (d.relabel ρ).kind = d.kind := by cases d <;> rfl

@[simp] theorem isA_relabel (d : Def) (k : Kind) : (d.relabel ρ).isA k = d.isA k := by
  rw [isA, isA, kind_relabel]

@[simp] theorem scopeKind?_relabel (d : Def) : (d.relabel ρ).scopeKind? = d.scopeKind? := by cases d <;> rfl

@[simp] theorem isType_relabel (d : Def) : (d.relabel ρ).isType = d.isType := by cases d <;> rfl

@[simp] theorem literal?_relabel (d : Def) : (d.relabel ρ).literal? = d.literal? := by cases d <;> rfl

@[simp] theorem number_relabel (d : Def) : (d.relabel ρ).number = d.number := by cases d <;> rfl

@[simp] theorem value_relabel (d : Def) : (d.relabel ρ).value = d.value := by cases d <;> rfl

@[simp] theorem integerOf?_relabel (d : Def) : Reading.integerOf? (d.relabel ρ) = Reading.integerOf? d := by
  cases d with
  | constant h k v => rcases k with _ | (_ | _ | _) <;> cases v <;> rfl
  | _ => rfl

@[simp] theorem shown_relabel (d : Def) : (d.relabel ρ).shown = d.shown := by cases d <;> rfl

@[simp] theorem frameRef_relabel (d : Def) : Reading.frameRef (d.relabel ρ) = ρ.ref (Reading.frameRef d) := by
  cases d <;> rfl

end Def

@[simp] theorem Ty.isElement_relabel (t : Ty) : (t.relabel ρ).isElement = t.isElement := by
  cases t with
  | named d => exact Def.isType_relabel d
  | _ => rfl

theorem Ty.shown_array (o : Origin) (element : Ty) (cap : Nat) (ext : Bool) :
    (Ty.array o element cap ext).shown =
      "<type array (" ++ element.shown ++ ", cap=" ++ toString cap ++ ")" ++ extensibleMark ext ++ ">" := rfl

@[simp] theorem Ty.shown_relabel : ∀ t : Ty, (t.relabel ρ).shown = t.shown
  | .array o element cap ext => by rw [Ty.relabel, Ty.shown_array, Ty.shown_array, Ty.shown_relabel element]
  | .named d => Def.shown_relabel d
  | .unknown _ _ | .bool _ | .byte _ | .uint _ _ | .int _ _ => rfl

/-! ### Sizes -/

theorem fieldBits_perm {ms ms' : Members} (h : ms.Perm ms') : fieldBits ms = fieldBits ms' := by
  induction h with
  | nil => rfl
  | cons m _ ih =>
    obtain ⟨n, d⟩ := m
    rw [fieldBits, fieldBits, ih]
  | swap m m' _ =>
    obtain ⟨n, d⟩ := m
    obtain ⟨n', d'⟩ := m'
    simp only [fieldBits]
    omega
  | trans _ _ ih ih' => exact ih.trans ih'

mutual

/-- **Labels have no size.** -/
@[simp] theorem Ty.nbits_relabel : ∀ t : Ty, (t.relabel ρ).nbits = t.nbits
  | .array o element cap ext => by rw [Ty.relabel, Ty.nbits, Ty.nbits, Ty.nbits_relabel element]
  | .named d => by rw [Ty.relabel, Ty.nbits, Ty.nbits, Def.nbits_relabel d]
  | .unknown _ _ | .bool _ | .byte _ | .uint _ _ | .int _ _ => by simp only [Ty.relabel, Ty.nbits]

/-- **Labels have no size.** -/
@[simp] theorem Def.nbits_relabel : ∀ d : Def, (d.relabel ρ).nbits = d.nbits
  | .typeAlias h target => by rw [Def.relabel, Def.nbits, Def.nbits, Ty.nbits_relabel target]
  | .message h ext ms => by
    rw [Def.relabel, Def.nbits, Def.nbits, fieldBits_perm (ρ.perm _), fieldBits_relabel ms]
  | .enum _ _ _ _ | .option _ _ _ | .constant _ _ _ | .enumField _ _ | .field _ _ _ | .proto _ _ => by
    simp only [Def.relabel, Def.nbits]

theorem fieldBits_relabel : ∀ ms : List (String × Def), fieldBits (membersRelabel ρ ms) = fieldBits ms
  | [] => rfl
  | (n, d) :: ms => by rw [membersRelabel, fieldBits, fieldBits, Def.payloadBits_relabel d, fieldBits_relabel ms]

theorem Def.payloadBits_relabel : ∀ d : Def, (d.relabel ρ).payloadBits = d.payloadBits
  | .field h ty n => by rw [Def.relabel, Def.payloadBits, Def.payloadBits, Ty.nbits_relabel ty]
  | .option _ _ _ | .constant _ _ _ | .typeAlias _ _ | .enum _ _ _ _ | .enumField _ _ | .message _ _ _ | .proto _ _ => by
    simp only [Def.relabel, Def.payloadBits]

end

/-! ### Listings -/

variable {k : Kind}

mutual

theorem Def.within_relabel (hk : ρ.Lists k) : ∀ d : Def, (d.relabel ρ).within k = (d.within k).map ρ.member
  | .enum _ _ _ ms => membersWithin_relabel hk ms
  | .message _ _ ms => by
    rw [Def.relabel, Def.within, Def.within, hk, membersWithin_relabel hk ms]
  | .proto _ ms => membersWithin_relabel hk ms
  | .option _ _ _ | .constant _ _ _ | .typeAlias _ _ | .enumField _ _ | .field _ _ _ => rfl

theorem membersWithin_relabel (hk : ρ.Lists k) :
    ∀ ms : List (String × Def), membersWithin k (membersRelabel ρ ms) = (membersWithin k ms).map ρ.member
  | [] => rfl
  | (n, d) :: ms => by
    rw [membersRelabel, membersWithin, membersWithin, Def.within_relabel hk d, membersWithin_relabel hk ms,
      Def.isA_relabel,
      map_append, map_append]
    split <;> rfl

end

namespace Def

theorem get?_relabel (ms : Members) (name : String) :
    Members.get? (ms.map ρ.member) name = (Members.get? ms name).map (Def.relabel ρ) := by
  rw [Members.get?, Members.get?, find?_map, Option.map_map, Option.map_map]
  rfl

theorem has_relabel (ms : Members) (name : String) :
    Members.has (ms.map ρ.member) name = Members.has ms name := by
  rw [Members.has, Members.has, any_map]
  rfl

/-! ### Options -/

/-- Doing something to all results of steps that may fail. -/
theorem mapM_eq_map {α β γ : Type} {f : α → Except Fault β} {g : α → Except Fault γ} {u : β → γ}
    (h : ∀ a, g a = (f a).map u) (as : List α) : as.mapM g = (as.mapM f).map (List.map u) := by
  induction as with
  | nil => rfl
  | cons a as ih =>
    rw [mapM_cons, mapM_cons, ih, h a]
    cases f a with
    | error e => rfl
    | ok b => cases as.mapM f <;> rfl

/-- Whether it is known if a definition belongs to a file. -/
def placed (d : Def) : Bool := !d.isA .boundDefinition || d.header.bound.isSome

def listedFor (file : Nat) (k : Kind) (recursive : Bool) (m : String × Def) : List (String × Def) :=
  if m.2.isA .boundDefinition && m.2.header.bound == some file then listed k recursive m else []

theorem belongs_eq_ite (file : Nat) (d : Def) :
    belongs file d = if d.placed then .ok (d.isA .boundDefinition && d.header.bound == some file)
      else .error (.internal "BoundDefinition got bound None") := by
  unfold belongs placed
  cases d.isA .boundDefinition <;> cases d.header.bound <;> rfl

theorem mapM_eq_ite {α β : Type} {f : α → Except Fault β} {good : α → Bool} {u : α → β} {e : Fault}
    (h : ∀ a, f a = if good a then .ok (u a) else .error e) (as : List α) :
    as.mapM f = if as.all good then .ok (as.map u) else .error e := by
  induction as with
  | nil => rfl
  | cons a as ih =>
    rw [mapM_cons, ih, h a, all_cons]
    cases good a <;> cases as.all good <;> rfl

/-- **A listing by file** fails exactly if some member should belong to a file and does not. -/
theorem select_some (d : Def) (k : Kind) (recursive : Bool) (file : Nat) :
    d.select k recursive (some file) =
      if d.members.all fun m => m.2.placed then .ok (d.members.flatMap (listedFor file k recursive))
      else .error (.internal "BoundDefinition got bound None") := by
  have hmember (m : String × Def) :
      (do return if ← belongs file m.2 then listed k recursive m else [] : Except Fault _) =
        if m.2.placed then .ok (listedFor file k recursive m)
        else .error (.internal "BoundDefinition got bound None") := by
    rw [belongs_eq_ite, listedFor]
    cases m.2.placed with
    | false => rfl
    | true => cases m.2.isA .boundDefinition && m.2.header.bound == some file <;> rfl
  rw [select, mapM_eq_ite hmember]
  cases d.members.all fun m => m.2.placed with
  | false => rfl
  | true => exact congrArg Except.ok flatMap_def.symm

theorem members_relabel_cases (d : Def) :
    (d.relabel ρ).members = d.members.map ρ.member ∨ (d.relabel ρ).members = ρ.arrange (d.members.map ρ.member) := by
  cases d with
  | message h ext ms => exact .inr (congrArg ρ.arrange (membersRelabel_eq_map ms))
  | enum h o cap ms => exact .inl (membersRelabel_eq_map ms)
  | proto h ms => exact .inl (membersRelabel_eq_map ms)
  | _ => exact .inl rfl

theorem members_relabel_perm (d : Def) : (d.relabel ρ).members.Perm (d.members.map ρ.member) := by
  rcases d.members_relabel_cases with h | h
  · rw [h]
  · rw [h]
    exact ρ.perm _

theorem placed_relabel (d : Def) : (d.relabel ρ).placed = d.placed := by
  rw [placed, placed, isA_relabel, header_relabel, Relabeling.header, Option.isSome_map]

theorem all_placed_relabel (d : Def) :
    ((d.relabel ρ).members.all fun m => m.2.placed) = d.members.all fun m => m.2.placed := by
  rw [d.members_relabel_perm.all_eq, all_map]
  simp only [Function.comp_def, Relabeling.member, placed_relabel]

theorem isBound_relabel (file : Nat) (d : Def) :
    ((d.relabel ρ).isA .boundDefinition && (d.relabel ρ).header.bound == some (ρ.id file)) =
      (d.isA .boundDefinition && d.header.bound == some file) := by
  rw [isA_relabel, header_relabel, Relabeling.header]
  congr 1
  rw [Bool.eq_iff_iff, beq_iff_eq, beq_iff_eq, ← Option.map_some, (Option.map_injective ρ.id_injective).eq_iff]

theorem flatMap_listed (ms : Members) : ms.flatMap (listed k false) = ms.filter fun m => m.2.isA k := by
  induction ms with
  | nil => rfl
  | cons m ms ih =>
    rw [flatMap_cons, ih, filter_cons, listed, if_neg Bool.false_ne_true, nil_append]
    split <;> rfl

theorem flatMap_listedFor (file : Nat) (ms : Members) : ms.flatMap (listedFor file k false) =
    (ms.filter fun m => m.2.isA k).filter fun m => m.2.isA .boundDefinition && m.2.header.bound == some file := by
  rw [filter_comm, ← flatMap_listed]
  induction ms with
  | nil => rfl
  | cons m ms ih =>
    rw [flatMap_cons, ih, filter_cons, listedFor]
    split <;> rfl

/-- **The same options are set**, if they are at the same places. -/
theorem options_of_direct {d : Def} (h : (d.relabel ρ).direct .option = (d.direct .option).map ρ.member) :
    (d.relabel ρ).options = d.options.map (List.map ρ.member) := by
  unfold direct at h
  rw [options, options, header_relabel, Relabeling.header]
  cases d.header.bound with
  | none =>
    rw [Option.map_none, select, select, flatMap_listed, flatMap_listed, h]
    rfl
  | some file =>
    rw [Option.map_some, select_some, select_some, all_placed_relabel, flatMap_listedFor, flatMap_listedFor,
      h, filter_map]
    simp only [Function.comp_def, Relabeling.member, isBound_relabel]
    split <;> rfl

/-- **Options have the same values** if the same options are set. -/
theorem optionValue_relabel {d : Def} (hset : (d.relabel ρ).options = d.options.map (List.map ρ.member))
    (name : String) (kind : LiteralKind) : (d.relabel ρ).optionValue name kind = d.optionValue name kind := by
  have hspec : (d.relabel ρ).optionSpec? name = d.optionSpec? name := by cases d <;> rfl
  unfold optionValue optionOrFail option?
  rw [hset, hspec]
  cases d.options with
  | error f => rfl
  | ok set =>
    simp only [Except.map, bind, Except.bind, get?_relabel]
    cases Members.get? set name with
    | none => rfl
    | some o => simp only [Option.map_some, pure, Except.pure, literal?_relabel]

end Def

/-! ### Plain relabelings -/

section

variable (hρ : ρ.Plain)
include hρ

namespace Def

theorem members_relabel (d : Def) : (d.relabel ρ).members = d.members.map ρ.member := by
  cases d with
  | enum h o cap ms => exact membersRelabel_eq_map ms
  | message h ext ms => exact (hρ _).trans (membersRelabel_eq_map ms)
  | proto h ms => exact membersRelabel_eq_map ms
  | _ => rfl

theorem relabel_withMembers (d : Def) (ms : Members) :
    (d.withMembers ms).relabel ρ = (d.relabel ρ).withMembers (ms.map ρ.member) := by
  cases d with
  | enum h o cap _ => simp only [withMembers, relabel, membersRelabel_eq_map]
  | message h ext _ => simp only [withMembers, relabel, membersRelabel_eq_map, hρ _]
  | proto h _ => simp only [withMembers, relabel, membersRelabel_eq_map]
  | _ => rfl

theorem direct_relabel (d : Def) (k : Kind) :
    (d.relabel ρ).direct k = (d.direct k).map ρ.member := by
  rw [direct, direct, members_relabel hρ, filter_map]
  simp only [Function.comp_def, Relabeling.member, isA_relabel]

/-- **The same names lead to the same places.** -/
theorem member?_relabel (d : Def) (names : List String) :
    (d.relabel ρ).member? names = (d.member? names).map (Def.relabel ρ) := by
  induction names generalizing d with
  | nil => rfl
  | cons n ns ih =>
    rw [member?, member?, members_relabel hρ, get?_relabel]
    cases Members.get? d.members n with
    | none => rfl
    | some m =>
      simp only [Option.map_some]
      split
      · rfl
      · exact ih m

/-! ### Rules -/

theorem checkEnumField_relabel (d member : Def) :
    ((d.relabel ρ).checkEnumField (member.relabel ρ)).toOption = (d.checkEnumField member).toOption := by
  cases d with
  | enum h o cap ms =>
    cases member with
    | enumField h' v =>
      have hany : ((Def.enum h o cap ms).relabel ρ).enumFields.any (fun f => f.value == v) =
          (Def.enum h o cap ms).enumFields.any fun f => f.value == v := by
        simp only [enumFields, direct_relabel hρ, map_map, any_map, Function.comp_def, Relabeling.member,
          value_relabel]
      simp only [relabel] at hany
      simp only [relabel, checkEnumField, hany]
      split
      · rfl
      · split <;> rfl
    | _ => rfl
  | _ => rfl

theorem checkFieldNumber_relabel (d member : Def) :
    ((d.relabel ρ).checkFieldNumber (member.relabel ρ)).toOption = (d.checkFieldNumber member).toOption := by
  cases d with
  | message h ext ms =>
    cases member with
    | field h' ty n =>
      have hany : ((Def.message h ext ms).relabel ρ).fields.any (fun f => f.number == n) =
          (Def.message h ext ms).fields.any fun f => f.number == n := by
        simp only [fields, direct_relabel hρ, map_map, any_map, Function.comp_def, Relabeling.member,
          number_relabel]
      simp only [relabel] at hany
      simp only [relabel, checkFieldNumber, hany]
      split <;> rfl
    | _ => rfl
  | _ => rfl

omit hρ in
theorem checkOption_relabel (d member : Def) :
    ((d.relabel ρ).checkOption (member.relabel ρ)).toOption = (d.checkOption member).toOption := by
  have hspec (name : String) : (d.relabel ρ).optionSpec? name = d.optionSpec? name := by cases d <;> rfl
  unfold checkOption
  rw [scopeKind?_relabel]
  cases member with
  | option h k v =>
    simp only [relabel, hspec, Relabeling.header]
    generalize d.scopeKind? = kind?
    rcases kind? with _ | (_ | _ | _)
    -- enums take no options; every other scope asks for the specification
    case some.enum => rfl
    all_goals
      dsimp only
      cases d.optionSpec? h.name with
      | none => rfl
      | some spec =>
        dsimp only
        split
        · rfl
        · split <;> rfl
  | _ =>
    generalize d.scopeKind? = kind?
    rcases kind? with _ | (_ | _ | _) <;> rfl

omit hρ in
theorem toOption_bind {α β : Type} (x : Except Fault α) (f : α → Except Fault β) :
    (x >>= f).toOption = x.toOption.bind fun a => (f a).toOption := by
  cases x <;> rfl

/-- **The same members can be added.** -/
theorem push_relabel (d member : Def) (name : String) :
    ((d.relabel ρ).push (member.relabel ρ) name).toOption = (d.push member name).toOption.map (relabel ρ) := by
  unfold push
  rw [members_relabel hρ, has_relabel]
  cases Members.has d.members name with
  | true => rfl
  | false =>
    have hresult : (d.relabel ρ).withMembers (d.members.map ρ.member ++ [(name, member.relabel ρ)]) =
        (d.withMembers (d.members ++ [(name, member)])).relabel ρ := by
      rw [relabel_withMembers hρ, map_append]
      rfl
    simp only [Bool.false_eq_true, if_false, toOption_bind, checkOption_relabel, checkEnumField_relabel hρ,
      checkFieldNumber_relabel hρ, hresult, Option.map_bind, Function.comp_def]
    rfl

/-- **The same options are set.** -/
theorem options_relabel (d : Def) : (d.relabel ρ).options = d.options.map (List.map ρ.member) :=
  options_of_direct (direct_relabel hρ d .option)

/-- **The same scopes pass the last check.** -/
theorem checkClosed_relabel (d : Def) : (d.relabel ρ).checkClosed.toOption = d.checkClosed.toOption := by
  cases d with
  | message h ext ms =>
    have hoption := optionValue_relabel (options_relabel hρ (.message h ext ms)) "max_bytes" .integer
    have hbits := nbits_relabel (ρ := ρ) (Def.message h ext ms)
    have hint : ((Def.message h ext ms).relabel ρ).intOption "max_bytes" =
        (Def.message h ext ms).intOption "max_bytes" := by
      rw [intOption, intOption, hoption]
    change ((Def.message h ext ms).relabel ρ).checkMessage.toOption = (Def.message h ext ms).checkMessage.toOption
    unfold checkMessage
    rw [hint, nbytes, nbytes, hbits]
    generalize (Def.message h ext ms).intOption "max_bytes" = maxBytes?
    generalize bytesOfBits (Def.message h ext ms).nbits = nbytes?
    split
    · rfl
    · cases maxBytes? with
      | error f => rfl
      | ok maxBytes =>
        simp only [bind, Except.bind]
        split
        · cases nbytes? with
          | error f => rfl
          | ok nbytes =>
            dsimp only
            split <;> rfl
        · rfl
  | _ => rfl

end Def

end

/-! ### New types and definitions -/

theorem makeArray_relabel (o : Origin) (element : Ty) (cap : Int) (ext : Bool) :
    (makeArray (ρ.origin o) (element.relabel ρ) cap ext).toOption =
      (makeArray o element cap ext).toOption.map (Ty.relabel ρ) := by
  unfold makeArray
  rw [Ty.isElement_relabel]
  split
  · rfl
  · split <;> rfl

theorem makeAlias_relabel (h : Header) (target : Ty) :
    (makeAlias (ρ.header h) (target.relabel ρ)).toOption = (makeAlias h target).toOption.map (Def.relabel ρ) := by
  cases target <;> rfl

theorem makeField_relabel (h : Header) (ty : Ty) (number : Int) :
    (makeField (ρ.header h) (ty.relabel ρ) number).toOption = (makeField h ty number).toOption.map (Def.relabel ρ) := by
  unfold makeField
  split <;> rfl

theorem makeEnumField_relabel (h : Header) (value : Int) :
    (makeEnumField (ρ.header h) value).toOption = (makeEnumField h value).toOption.map (Def.relabel ρ) := by
  unfold makeEnumField
  split <;> rfl

theorem refuses_relabel (body : Reading.Body) (d : Def) :
    (body.refuses (d.relabel ρ)).isNone = (body.refuses d).isNone := by
  cases body <;> cases d <;> rfl

/-! ### No relabeling -/

def Relabeling.same : Relabeling where
  origin o := o
  id n := n
  scopes refs := refs
  comments cs := cs
  indent i := i
  arrange ms := ms
  id_injective := Function.injective_id
  perm _ := .refl _

theorem Relabeling.map_same_ref (refs : List ScopeRef) : refs.map Relabeling.same.ref = refs :=
  map_id'' (fun _ => rfl) refs

theorem Relabeling.header_same (h : Header) : Relabeling.same.header h = h := by
  cases h with
  | mk origin id name scopes comments indent bound => cases bound <;> rfl

mutual

theorem Ty.relabel_same : ∀ t : Ty, t.relabel .same = t
  | .array o element cap ext => congrArg (Ty.array o · cap ext) (Ty.relabel_same element)
  | .named d => congrArg Ty.named (Def.relabel_same d)
  | .unknown _ _ | .bool _ | .byte _ | .uint _ _ | .int _ _ => rfl

theorem Def.relabel_same : ∀ d : Def, d.relabel .same = d
  | .option h k v => congrArg (Def.option · k v) (Relabeling.header_same h)
  | .constant h k v => congrArg (Def.constant · k v) (Relabeling.header_same h)
  | .typeAlias h t => congrArg₂ Def.typeAlias (Relabeling.header_same h) (Ty.relabel_same t)
  | .enum h o cap ms =>
    congrArg₂ (fun h ms => Def.enum h o cap ms) (Relabeling.header_same h) (membersRelabel_same ms)
  | .enumField h v => congrArg (Def.enumField · v) (Relabeling.header_same h)
  | .message h ext ms =>
    congrArg₂ (fun h ms => Def.message h ext ms) (Relabeling.header_same h) (membersRelabel_same ms)
  | .field h t n => congrArg₂ (fun h t => Def.field h t n) (Relabeling.header_same h) (Ty.relabel_same t)
  | .proto h ms => congrArg₂ Def.proto (Relabeling.header_same h) (membersRelabel_same ms)

theorem membersRelabel_same : ∀ ms : List (String × Def), membersRelabel .same ms = ms
  | [] => rfl
  | (n, d) :: ms => congrArg₂ List.cons (congrArg (Prod.mk n) (Def.relabel_same d)) (membersRelabel_same ms)

end

end BitSchema
