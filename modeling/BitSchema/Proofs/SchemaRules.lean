import BitSchema.Proofs.Accepted
import BitSchema.Query

/-!
# The rules that accepted schemas keep

The rules of schemas are checked at different moments: widths and capacities when a type is read, numbers, values and
options when a member is added, sizes when a scope is complete.  `Def.KeepsRules` states them in terms of what can be
asked of a finished schema, for one definition.  All definitions of an accepted schema keep them, the file itself and
all imported files included, at any depth (`keepsRules_of_accepts`).

What is reached from a type, through elements, targets and fields, is well-formed if the type is
(`Ty.Reaches.wellFormed`), and the defined types among it are mentioned (`Ty.Reaches.mem_mentions`), so that they stand
somewhere in the file and are complete.
-/

namespace BitSchema

open Reading List

/-! ### Statements of the rules -/

/-- **What is reached from a type**, through elements of arrays, targets of aliases and fields of messages. -/
inductive Ty.Reaches : Ty → Ty → Prop where
  | refl (t : Ty) : Reaches t t
  | element {o : Origin} {element u : Ty} {cap : Nat} {ext : Bool} (h : Reaches element u) :
      Reaches (.array o element cap ext) u
  | target {h : Header} {target u : Ty} (hu : Reaches target u) : Reaches (.named (.typeAlias h target)) u
  | field {h : Header} {ext : Bool} {ms : Members} {f : Field} {u : Ty} (hf : f ∈ fieldsOf ms) (hu : Reaches f.ty u) :
      Reaches (.named (.message h ext ms)) u

/-- **Frozen nodes**: nodes of a kind that can be closed, which passed the last check, are frozen and say so. -/
structure Ty.Frozen (t : Ty) : Prop where
  closes : t.kind.closes = true
  checked : ∀ d, t = .named d → d.checkClosed = .ok ()
  frozen : t.frozen = true
  answers : ∀ (env : Env) (recursive : Bool), env.answerOf (some t) "is_frozen" recursive = .ok (.bool true)

/-- **The rules of schemas** for a definition. -/
structure Def.KeepsRules (d : Def) : Prop where
  /-- The fields of a message have different numbers from 1 to 255. -/
  numbers : d.isA .message = true →
    (d.fields.map Def.number).Nodup ∧ ∀ f ∈ d.fields, 1 ≤ f.number ∧ f.number ≤ 255
  /-- The size of a message can be computed, and is within both limits. -/
  size : d.isA .message = true →
    ∃ bits bytes limit, (Ty.named d).size = .ok bits ∧ bits ≤ 65535 ∧
      d.nbytes = .ok bytes ∧ d.intOption "max_bytes" = .ok limit ∧ (0 < limit → (bytes : Int) ≤ limit)
  /-- The fields of an enum have different values that fit its width of 1 to 64 bits. -/
  values : d.isA .enum = true →
    (d.enumFields.map Def.value).Nodup ∧ 1 ≤ d.nbits ∧ d.nbits ≤ 64 ∧
      ∀ f ∈ d.enumFields, f.value ≤ 2 ^ d.nbits - 1
  /-- Arrays hold 1 to 65535 elements that are no arrays. -/
  arrays : ∀ t ∈ d.ty?, ∀ o element cap ext, t.Reaches (.array o element cap ext) →
    1 ≤ cap ∧ cap ≤ 65535 ∧ element.isA .array = false
  /-- An alias stands for a base type or an array. -/
  target : d.isA .typeAlias = true → ∃ t, d.ty? = some t ∧
    (t.isA .bool = true ∨ t.isA .byte = true ∨ t.isA .uint = true ∨ t.isA .int = true ∨ t.isA .array = true)
  /-- Options are described for the scope, and their values are of the described kind and allowed. -/
  options : ∀ m ∈ d.members, ∀ h k v, m.2 = .option h k v →
    ∃ spec ∈ d.optionSpecs, spec.name = h.name ∧ k = some spec.default.kind ∧ v.kind = spec.default.kind ∧
      spec.accepts v = true
  /-- The definition is frozen, and so is all that is reached from its type. -/
  frozen : ∀ t, (t = .named d ∨ ∃ u ∈ d.ty?, u.Reaches t) → t.Frozen

/-! ### What is reached from a type -/

variable {d : Def}

namespace Ty.Reaches

variable {t u : Ty}

/-- **What is reached from a well-formed type is well-formed.** -/
theorem wellFormed (h : t.Reaches u) (ht : t.WellFormed) : u.WellFormed := by
  induction h with
  | refl _ => exact ht
  | element _ ih => exact ih ht.2.2.2
  | target _ ih => exact ih ht.2.2
  | field hf _ ih => exact ih (Def.WellFormed.field ht.2 hf).2.2

theorem mem_mentions (h : t.Reaches (.named d)) : d ∈ t.mentions := by
  generalize hu : Ty.named d = u at h
  induction h with
  | refl t =>
    subst hu
    exact mem_cons_self ..
  | element _ ih => exact ih hu
  | target _ ih => exact mem_cons_of_mem _ (ih hu)
  | field hf _ ih =>
    obtain ⟨n, hmem⟩ := mem_of_mem_fieldsOf hf
    exact mem_cons_of_mem _ (mem_membersMentions.2 ⟨_, hmem, ih hu⟩)

end Ty.Reaches

theorem Def.mem_mentions_of_ty? {d e : Def} {t : Ty} (ht : d.ty? = some t) (he : e ∈ t.mentions) : e ∈ d.mentions := by
  cases d <;> cases ht <;> first | exact he | simp [Ty.mentions] at he

theorem Def.WellFormed.ty? {t : Ty} (h : d.WellFormed) (ht : d.ty? = some t) : t.WellFormed := by
  cases d with
  | field _ _ _ => cases ht; exact h.2.2
  | typeAlias _ _ => cases ht; exact h.2
  | enum _ _ _ _ => cases ht; exact ⟨h.1, h.2.1⟩
  | _ => cases ht

/-! ### Sizes -/

mutual

/-- **Well-formed types are sized.** -/
theorem Ty.WellFormed.sized : ∀ {t : Ty}, t.WellFormed → t.sized = true
  | .bool _, _ | .byte _, _ | .uint _ _, _ | .int _ _, _ => rfl
  | .array _ element _ _, h => Ty.WellFormed.sized (t := element) h.2.2.2
  | .named d, h => Def.WellFormed.sized (d := d) h.2 h.1

theorem Def.WellFormed.sized : ∀ {d : Def}, d.WellFormed → d.isType = true → d.sized = true
  | .typeAlias _ target, h, _ => Ty.WellFormed.sized (t := target) h.2
  | .enum _ _ _ _, _, _ => rfl
  | .message _ _ _, h, _ => fieldsSized_of_wellFormed h.2.2

theorem fieldsSized_of_wellFormed : ∀ {ms : List (String × Def)}, membersWellFormed ms → fieldsSized ms = true
  | [], _ => rfl
  | (_, d) :: _, h => by
    rw [fieldsSized, fieldsSized_of_wellFormed h.2, Bool.and_true]
    exact Def.WellFormed.payloadSized h.1

theorem Def.WellFormed.payloadSized : ∀ {d : Def}, d.WellFormed → d.payloadSized = true
  | .field _ ty _, h => Ty.WellFormed.sized (t := ty) h.2.2
  | .option _ _ _, _ | .constant _ _ _, _ | .typeAlias _ _, _ | .enum _ _ _ _, _ | .enumField _ _, _
  | .message _ _ _, _ | .proto _ _, _ => rfl

end

/-- A number has at most `cap` binary digits only if it is below `2 ^ cap`. -/
theorem lt_two_pow_of_bitLength_le {n cap : Nat} (h : bitLength n ≤ cap) : n < 2 ^ cap := by
  unfold bitLength at h
  split at h
  · next hzero =>
    rw [hzero]
    exact Nat.two_pow_pos cap
  · next hzero => exact (Nat.log2_lt hzero).1 h

namespace Def

/-! ### Fields and values -/

theorem fields_map_number (ms : Members) (h : Header) (ext : Bool) :
    (Def.message h ext ms).fields.map Def.number = (fieldsOf ms).map Field.number := by
  rw [fields, direct, members, map_map]
  induction ms with
  | nil => rfl
  | cons m ms ih =>
    obtain ⟨n, d⟩ := m
    rw [fieldsOf_cons, map_append, ← ih, filter_cons, isA_eq rfl]
    cases d <;> rfl

theorem enumFields_map_value (ms : Members) (h : Header) (o : Origin) (cap : Nat) :
    (Def.enum h o cap ms).enumFields.map Def.value = ms.filterMap fun m => m.2.enumValue? := by
  rw [enumFields, direct, members, map_map]
  induction ms with
  | nil => rfl
  | cons m ms ih =>
    obtain ⟨n, d⟩ := m
    rw [filterMap_cons, ← ih, filter_cons, isA_eq rfl]
    cases d <;> rfl

/-- **The numbers of the fields of a message** differ and are 1 to 255. -/
theorem numbers_of_wellFormed (hwf : d.WellFormed) (hkind : d.isA .message = true) :
    (d.fields.map Def.number).Nodup ∧ ∀ f ∈ d.fields, 1 ≤ f.number ∧ f.number ≤ 255 := by
  obtain ⟨h, ext, ms, rfl⟩ := eq_message_of_isA hkind
  have hnumbers := fields_map_number ms h ext
  refine ⟨hnumbers ▸ hwf.2.1.numbers _ _ _ rfl, fun f hf => ?_⟩
  have hmem : f.number ∈ (fieldsOf ms).map Field.number := hnumbers ▸ mem_map_of_mem hf
  obtain ⟨g, hg, hnumber⟩ := mem_map.1 hmem
  have hrange := hwf.field hg
  omega

theorem eq_enum_of_isA (h : d.isA .enum = true) : ∃ hd o cap ms, d = .enum hd o cap ms := by
  rw [isA_eq rfl] at h
  cases d with
  | enum hd o cap ms => exact ⟨hd, o, cap, ms, rfl⟩
  | _ => cases h

/-- **The values of the fields of an enum** differ and fit its width. -/
theorem values_of_wellFormed (hwf : d.WellFormed) (hkind : d.isA .enum = true) :
    (d.enumFields.map Def.value).Nodup ∧ 1 ≤ d.nbits ∧ d.nbits ≤ 64 ∧
      ∀ f ∈ d.enumFields, f.value ≤ 2 ^ d.nbits - 1 := by
  obtain ⟨h, o, cap, ms, rfl⟩ := eq_enum_of_isA hkind
  have hvalues := enumFields_map_value ms h o cap
  obtain ⟨hlow, hhigh, hsound, -⟩ := hwf
  obtain ⟨hnodup, hfit⟩ := hsound.values _ _ _ _ rfl
  refine ⟨hvalues ▸ hnodup, hlow, hhigh, fun f hf => ?_⟩
  have hmem : f.value ∈ ms.filterMap fun m => m.2.enumValue? := hvalues ▸ mem_map_of_mem hf
  obtain ⟨m, hm, hvalue⟩ := mem_filterMap.1 hmem
  exact Nat.le_sub_one_of_lt (lt_two_pow_of_bitLength_le (hfit m hm _ hvalue))

theorem eq_typeAlias_of_isA (h : d.isA .typeAlias = true) : ∃ hd target, d = .typeAlias hd target := by
  rw [isA_eq rfl] at h
  cases d with
  | typeAlias hd target => exact ⟨hd, target, rfl⟩
  | _ => cases h

/-- **An alias stands for a base type or an array.** -/
theorem target_of_wellFormed (hwf : d.WellFormed) (hkind : d.isA .typeAlias = true) :
    ∃ t, d.ty? = some t ∧
      (t.isA .bool = true ∨ t.isA .byte = true ∨ t.isA .uint = true ∨ t.isA .int = true ∨ t.isA .array = true) := by
  obtain ⟨h, target, rfl⟩ := eq_typeAlias_of_isA hkind
  refine ⟨target, rfl, ?_⟩
  obtain ⟨hnamed, hwf⟩ := hwf
  cases target with
  | unknown _ _ => exact hwf.elim
  | named _ => cases hnamed
  | bool _ => exact .inl rfl
  | byte _ => exact .inr (.inl rfl)
  | uint _ _ => exact .inr (.inr (.inl rfl))
  | int _ _ => exact .inr (.inr (.inr (.inl rfl)))
  | array _ _ _ _ => exact .inr (.inr (.inr (.inr rfl)))

/-! ### Complete definitions -/

variable {d : Def}

/-- **The size of a complete message** is within both limits. -/
theorem size_of_complete (hwf : d.WellFormed) (hcomplete : Complete d) (hkind : d.isA .message = true) :
    ∃ bits bytes limit, (Ty.named d).size = .ok bits ∧ bits ≤ 65535 ∧
      d.nbytes = .ok bytes ∧ d.intOption "max_bytes" = .ok limit ∧ (0 < limit → (bytes : Int) ≤ limit) := by
  obtain ⟨h, ext, ms, rfl⟩ := eq_message_of_isA hkind
  obtain ⟨limit, hlimit, -, -⟩ := intOption_maxBytes hwf.2.1 hcomplete.members
  have hsize : (Ty.named (.message h ext ms)).size = .ok (Def.message h ext ms).nbits := by
    rw [Ty.size, Ty.sized, hwf.sized rfl, if_pos rfl, Ty.nbits]
  have hbits := hwf.nbits_le
  have hbytes : (Def.message h ext ms).nbytes = .ok (((Def.message h ext ms).nbits + 7) / 8) :=
    Wire.bytesOfBits_eq (by omega)
  refine ⟨_, _, limit, hsize, hbits, hbytes, hlimit, ?_⟩
  rcases checkMessage_eq hlimit with ⟨-, hbound, -⟩ | ⟨note, herror⟩
  · exact hbound
  · rw [hwf.1] at herror
    cases herror

/-- **The options of a complete scope** are described for it. -/
theorem options_of_complete (hcomplete : Complete d) (hwf : d.WellFormed) {m : String × Def} (hm : m ∈ d.members)
    {h : Header} {k : Option LiteralKind} {v : Literal} (heq : m.2 = .option h k v) :
    ∃ spec ∈ d.optionSpecs, spec.name = h.name ∧ k = some spec.default.kind ∧ v.kind = spec.default.kind ∧
      spec.accepts v = true := by
  have hadmits := hcomplete.admits m hm
  have htyped : k = some v.kind := by
    have hproper := hcomplete.members m hm
    obtain ⟨n, e⟩ := m
    subst heq
    cases hproper with
    | own _ htyped _ => exact htyped
    | imported _ hkind _ _ => cases hkind
  have hsound : d.Sound := by
    cases d with
    | enum _ _ _ _ => exact hwf.2.2.1
    | message _ _ _ => exact hwf.2.1
    | proto _ _ => exact hwf.1
    | _ => simp [members] at hm
  -- no options stand in enums
  have hkind : d.scopeKind? ≠ some .enum := by
    cases d with
    | enum _ _ _ _ => simp [heq, body, Body.refuses] at hadmits
    | _ => simp [scopeKind?]
  have hcheck := hsound.options m hm
  rw [heq] at hcheck
  obtain ⟨spec, hspec, hname, hk, haccepts⟩ := checkOption_eq_ok hkind hcheck
  exact ⟨spec, hspec, hname, hk, Option.some.inj (htyped.symm.trans hk), haccepts⟩

end Def

/-! ### Frozen nodes -/

/-- **All nodes can be asked whether they are frozen.** -/
theorem Kind.knows_isFrozen (k : Kind) : k.knows "is_frozen" = true := by
  have hnode : Kind.node ∈ k :: k.wider := by cases k <;> decide
  have hfind : (Method.all.find? fun m => m.owner = .node && m.name == "is_frozen").isSome = true := by decide +kernel
  have hmethod : (Method.of? k "is_frozen").isSome = true := by
    rw [Method.of?, findSome?_isSome_iff]
    exact ⟨.node, hnode, hfind⟩
  rw [Kind.knows, hmethod, Bool.or_true]

theorem Env.answerOf_isFrozen (env : Env) (t : Ty) (recursive : Bool) :
    env.answerOf (some t) "is_frozen" recursive = .ok (.bool t.frozen) := by
  have hlisted : Work.listedKind? "is_frozen" = none := by decide +kernel
  simp only [answerOf, Kind.asked, Kind.knows_isFrozen, if_true, hlisted, bind, Except.bind]
  rfl

theorem Def.closes_of_typed (h : d.Typed) : d.kind.closes = true := by
  cases d with
  | option _ k v =>
    obtain rfl : k = some v.kind := h
    cases v <;> rfl
  | constant _ k v =>
    obtain rfl : k = some v.kind := h
    cases v <;> rfl
  | _ => rfl

/-- **Complete definitions are frozen.** -/
theorem Def.frozen_of_complete (hcomplete : Complete d) (htyped : d.Typed) : (Ty.named d).Frozen where
  closes := closes_of_typed htyped
  checked e he := by
    cases he
    exact hcomplete.closed
  frozen := hcomplete.frozen
  answers env recursive := by rw [env.answerOf_isFrozen, Ty.frozen, hcomplete.frozen]

/-- **Well-formed types are frozen** if the defined ones are complete. -/
theorem Ty.WellFormed.frozen {t : Ty} (hwf : t.WellFormed) (hcomplete : ∀ d, t = .named d → Complete d) : t.Frozen := by
  cases t with
  | unknown _ _ => exact hwf.elim
  | named d =>
    have htype := hwf.1
    refine Def.frozen_of_complete (hcomplete d rfl) ?_
    cases d <;> trivial
  | _ => exact ⟨rfl, (fun _ h => by cases h), rfl, fun env recursive => env.answerOf_isFrozen _ recursive⟩

/-! ### Accepted schemas -/

/-- **The file and everything inside it**, imported files included, at any depth. -/
def Def.Contains (file d : Def) : Prop := d = file ∨ ∃ n, (n, d) ∈ file.within .definition

theorem Def.Contains.member {file d : Def} (h : file.Contains d) {m : String × Def} (hm : m ∈ d.members) :
    m ∈ file.within .definition := by
  rcases h with rfl | ⟨n, hn⟩
  · exact mem_within_of_mem hm
  · exact mem_within_trans hn (mem_within_of_mem hm)

variable {mode : Bool} {outer : List ScopeRef} {file d : Def} {id next : Nat}

theorem Reading.IsRead.complete_of_contains (h : IsRead mode outer id file next) (hd : file.Contains d) :
    Complete d := by
  rcases hd with rfl | ⟨n, hn⟩
  · exact h.reached.complete_file h.frozen
  · exact h.reached.complete (n, d) (soFar_singleton file ▸ hn)

theorem Reading.IsRead.typed_of_contains (h : IsRead mode outer id file next) (hd : file.Contains d) : d.Typed := by
  have hscope := h.reached.isScope
  rcases hd with rfl | ⟨n, hn⟩
  · exact Def.typed_of_isScope hscope
  -- being held and typed is passed on to members
  let P (x : Def) : Prop := file.Contains x ∧ x.Typed
  have hP (x : Def) (hx : P x) (m : String × Def) (hm : m ∈ x.members) : P m.2 := by
    refine ⟨.inr ⟨m.1, hx.1.member hm⟩, ?_⟩
    have hproper := (h.complete_of_contains hx.1).members m hm
    cases hproper with
    | own _ htyped _ => exact htyped
    | imported _ hkind _ _ => exact Def.typed_of_isScope (by rw [Def.isScope, hkind]; rfl)
  exact (Def.of_mem_within hP ⟨.inl rfl, Def.typed_of_isScope hscope⟩ hn).2.2

theorem Reading.Reached.contains_of_mentions (h : Reached mode outer id [file] next) (hd : file.Contains d) {e : Def}
    (he : e ∈ d.mentions) : file.Contains e := by
  have hfirst : DefinedFirst ((file.within .definition).map (·.2)) := soFar_singleton file ▸ h.definedFirst
  have hmem : e ∈ (file.within .definition).map (·.2) := by
    rcases hd with rfl | ⟨n, hn⟩
    · exact mem_of_scope_mentions h.isScope (fun m hm => mem_map_of_mem (Def.mem_within_of_mem hm)) hfirst e he
    · exact hfirst.mem (mem_map_of_mem hn) he
  obtain ⟨m, hm, rfl⟩ := mem_map.1 hmem
  exact .inr ⟨m.1, hm⟩

/-- **Accepted schemas keep the rules.**  Every definition that an accepted file contains, with all that it imports
and at any depth, keeps the rules of schemas:

* fields of a message have different numbers from 1 to 255,
* a message has at most 65535 bits, and no more bytes than its option `max_bytes` says if that is positive,
* fields of an enum have different values that fit its width of 1 to 64 bits,
* arrays that are reached hold 1 to 65535 elements that are no arrays,
* an alias stands for a base type or an array,
* options are described for their scope, of the described kind and allowed,
* all nodes are frozen. -/
theorem keepsRules_of_accepts (h : Reader.Accepts file) (hd : file.Contains d) : d.KeepsRules := by
  have hwf : d.WellFormed := by
    rcases hd with rfl | ⟨n, hn⟩
    · exact h.wellFormed
    · exact (Def.of_mem_within (fun _ => Def.WellFormed.members) h.wellFormed hn).2
  obtain ⟨files, mode, source, h⟩ := h
  obtain ⟨next, hread⟩ := Reader.AcceptsIn.isRead ⟨files, source, h⟩
  have hcomplete := hread.complete_of_contains hd
  have hreach {t u : Ty} (ht : d.ty? = some t) (hu : t.Reaches u) : u.WellFormed := hu.wellFormed (hwf.ty? ht)
  refine ⟨Def.numbers_of_wellFormed hwf, Def.size_of_complete hwf hcomplete, Def.values_of_wellFormed hwf, ?_,
    Def.target_of_wellFormed hwf, fun m hm _ _ _ heq => Def.options_of_complete hcomplete hwf hm heq, ?_⟩
  · intro t ht o element cap ext hu
    obtain ⟨hlow, hhigh, helement, hwf'⟩ := hreach ht hu
    refine ⟨hlow, by omega, ?_⟩
    cases element with
    | array _ _ _ _ => cases helement
    | named e => cases e <;> first | rfl | cases helement
    | unknown _ _ => cases helement
    | _ => rfl
  · rintro t (rfl | ⟨u, hu, hreaches⟩)
    · exact Def.frozen_of_complete hcomplete (hread.typed_of_contains hd)
    · refine (hreach hu hreaches).frozen fun e he => ?_
      subst he
      -- what is reached is mentioned, so the file contains it
      have hmentions := Def.mem_mentions_of_ty? hu hreaches.mem_mentions
      exact hread.complete_of_contains (hread.reached.contains_of_mentions hd hmentions)

namespace Sample

/-- A message with a limit, whose fields are of an enum inside it and of an alias of an imported file. -/
def limited : Files := .ofTree {
  cwd := "/"
  files := [
    (["a"], "proto a import l \"b\" message M\x7boption max_bytes=9 enum C:uint2\x7bX=1\x7d C[3] c=1 l.T t=2\x7d"),
    (["b"], "proto b type T=int8[4]'")] }

def limits (files : Files) : Except Fault (Option (Except Fault Int) × Option Kind) := do
  let file ← (Reader.parse files "a" false).result
  return ((file.member? ["M"]).map (·.intOption "max_bytes"), (file.member? ["l", "T"]).map Def.kind)

end Sample

theorem keepsRules_limited :
    ∃ file message imported, Reader.Accepts file ∧ file.Contains message ∧ file.Contains imported ∧
      message.intOption "max_bytes" = .ok 9 ∧ imported.kind = .typeAlias ∧ message.KeepsRules ∧ imported.KeepsRules := by
  have hlimits : Sample.limits Sample.limited = .ok (some (.ok 9), some .typeAlias) := by decide +kernel
  unfold Sample.limits at hlimits
  cases hparse : (Reader.parse Sample.limited "a" false).result with
  | error f =>
    rw [hparse] at hlimits
    cases hlimits
  | ok file =>
    have haccepts : Reader.Accepts file := ⟨_, false, "a", .inl hparse⟩
    rw [hparse] at hlimits
    obtain ⟨hlimit, hkind⟩ := Prod.mk.inj (Except.ok.inj hlimits)
    obtain ⟨message, hmessage, hlimit⟩ := Option.map_eq_some_iff.1 hlimit
    obtain ⟨imported, himported, hkind⟩ := Option.map_eq_some_iff.1 hkind
    have hcontains : file.Contains message := .inr (Def.mem_within_of_member? hmessage)
    have hcontains' : file.Contains imported := .inr (Def.mem_within_of_member? himported)
    exact ⟨file, message, imported, haccepts, hcontains, hcontains', hlimit, hkind,
      keepsRules_of_accepts haccepts hcontains, keepsRules_of_accepts haccepts hcontains'⟩

end BitSchema
