import BitSchema.Proofs.Traditional

/-!
# Scopes that members are added to

A scope is open while members are added to it, and closed once it is complete.  `Def.Open` says what is true
of an open scope: it is sound and its members are well-formed.

* Adding a well-formed member keeps a scope open (`Def.OpenIn.push`).
* An open scope that passes the check of complete scopes is well-formed (`Def.OpenIn.close`).
* What is true of all members is true of whatever a path of names leads to (`Def.of_member?`) and of whatever is
  listed inside (`Def.of_mem_within`).

In traditional mode all of this is without marks of extensibility (`Def.OpenIn`).
-/

namespace BitSchema.Def

open List

/-- **Open scopes.** -/
structure Open (d : Def) : Prop where
  scope : d.isScope = true
  width : ∀ h o cap ms, d = .enum h o cap ms → 0 < cap ∧ cap ≤ 64
  sound : d.Sound
  members : ∀ m ∈ d.members, m.2.WellFormed

/-- **Open scopes** in traditional mode or in the other one. -/
structure OpenIn (traditional : Bool) (d : Def) : Prop extends d.Open where
  unmarked : traditional = true → d.Unmarked

/-! ### New members -/

variable {d member d' : Def} {name : String} {h : Header} {ms : Members} {traditional : Bool}

/-- **When a member is added** to a scope, and what comes of it. -/
theorem push_eq_ok (h : d.push member name = .ok d') :
    Members.has d.members name = false ∧ d.checkOption member = .ok () ∧ d.checkEnumField member = .ok () ∧
      d.checkFieldNumber member = .ok () ∧ d' = d.withMembers (d.members ++ [(name, member)]) := by
  unfold push at h
  cases hhas : Members.has d.members name with
  | true => simp [hhas, bind, Except.bind, throw, throwThe, MonadExceptOf.throw] at h
  | false =>
    cases hoption : d.checkOption member with
    | error e => simp [hhas, hoption, bind, Except.bind] at h
    | ok _ =>
      cases hvalue : d.checkEnumField member with
      | error e => simp [hhas, hoption, hvalue, bind, Except.bind] at h
      | ok _ =>
        cases hnumber : d.checkFieldNumber member with
        | error e => simp [hhas, hoption, hvalue, hnumber, bind, Except.bind] at h
        | ok _ =>
          simp only [hhas, hoption, hvalue, hnumber, bind, Except.bind, pure, Except.pure] at h
          exact ⟨rfl, rfl, rfl, rfl, (Except.ok.inj h).symm⟩

theorem checkOption_withMembers (d : Def) (ms : Members) (member : Def) :
    (d.withMembers ms).checkOption member = d.checkOption member := by
  cases d <;> rfl

theorem checkEnumField_eq_ok {h' : Header} {o : Origin} {cap value : Nat}
    (hcheck : (Def.enum h o cap ms).checkEnumField (.enumField h' value) = .ok ()) :
    bitLength value ≤ cap ∧ value ∉ ms.filterMap fun m => m.2.enumValue? := by
  unfold checkEnumField at hcheck
  by_cases hlarge : bitLength value > cap
  · simp [hlarge] at hcheck
  refine ⟨Nat.not_lt.1 hlarge, fun hmem => ?_⟩
  obtain ⟨⟨n, d⟩, hd, hv⟩ := mem_filterMap.1 hmem
  have hany : (Def.enum h o cap ms).enumFields.any (fun f => f.value == value) = true := by
    cases d <;> simp [enumValue?] at hv
    subst hv
    refine any_eq_true.2 ⟨_, mem_map.2 ⟨_, mem_filter.2 ⟨hd, rfl⟩, rfl⟩, ?_⟩
    simp [Def.value]
  simp [hlarge, hany] at hcheck

theorem checkFieldNumber_eq_ok {h' : Header} {ext : Bool} {ty : Ty} {number : Nat}
    (hcheck : (Def.message h ext ms).checkFieldNumber (.field h' ty number) = .ok ()) :
    number ∉ (fieldsOf ms).map Field.number := by
  intro hmem
  obtain ⟨f, hf, rfl⟩ := mem_map.1 hmem
  obtain ⟨n, hd⟩ := mem_of_mem_fieldsOf hf
  have hany : (Def.message h ext ms).fields.any (fun g => g.number == f.number) = true := by
    refine any_eq_true.2 ⟨_, mem_map.2 ⟨_, mem_filter.2 ⟨hd, rfl⟩, rfl⟩, ?_⟩
    simp [Def.number]
  unfold checkFieldNumber at hcheck
  simp [hany] at hcheck

theorem values_concat {o : Origin} {cap : Nat} (name : String)
    (hnodup : (ms.filterMap fun m => m.2.enumValue?).Nodup)
    (hfit : ∀ m ∈ ms, ∀ value ∈ m.2.enumValue?, bitLength value ≤ cap)
    (hcheck : (Def.enum h o cap ms).checkEnumField member = .ok ()) :
    ((ms ++ [(name, member)]).filterMap fun m => m.2.enumValue?).Nodup ∧
      ∀ m ∈ ms ++ [(name, member)], ∀ value ∈ m.2.enumValue?, bitLength value ≤ cap := by
  have hnew (value : Nat) (hv : member.enumValue? = some value) :
      bitLength value ≤ cap ∧ value ∉ ms.filterMap fun m => m.2.enumValue? := by
    cases member <;> simp [enumValue?] at hv
    subst hv
    exact checkEnumField_eq_ok hcheck
  refine ⟨?_, fun m hm v hv => ?_⟩
  · rw [filterMap_append, nodup_append_comm]
    cases hv : member.enumValue? with
    | none => simpa [hv] using hnodup
    | some value =>
      have hsingle : [(name, member)].filterMap (fun m => m.2.enumValue?) = [value] := by simp [hv]
      rw [hsingle]
      exact nodup_cons.2 ⟨(hnew value hv).2, hnodup⟩
  · rcases mem_append.1 hm with hm | hm
    · exact hfit m hm v hv
    · obtain rfl := mem_singleton.1 hm
      exact (hnew v hv).1

theorem numbers_concat {ext : Bool} (name : String) (hnodup : ((fieldsOf ms).map Field.number).Nodup)
    (hcheck : (Def.message h ext ms).checkFieldNumber member = .ok ()) :
    ((fieldsOf (ms ++ [(name, member)])).map Field.number).Nodup := by
  have hnew (f : Field) (hf : member.field? = some f) : f.number ∉ (fieldsOf ms).map Field.number := by
    cases member <;> simp [field?] at hf
    subst hf
    exact checkFieldNumber_eq_ok hcheck
  have happend : fieldsOf (ms ++ [(name, member)]) = fieldsOf ms ++ member.field?.toList := by
    rw [fieldsOf, filterMap_append]
    cases hf : member.field? <;> simp [fieldsOf, hf]
  rw [happend, map_append, nodup_append_comm]
  cases hf : member.field? with
  | none => simpa using hnodup
  | some f => exact nodup_cons.2 ⟨hnew f hf, hnodup⟩

/-- **Adding a member keeps a scope sound.** -/
theorem Sound.push (hd : d.Sound) (hscope : d.isScope = true) (h : d.push member name = .ok d') : d'.Sound := by
  obtain ⟨hhas, hoption, hvalue, hnumber, rfl⟩ := push_eq_ok h
  refine ⟨?_, ?_, ?_, ?_⟩
  -- each part of soundness has its own check in `push`
  · rw [members_withMembers hscope, map_append, map_cons, map_nil,
      nodup_append_comm, singleton_append, nodup_cons]
    refine ⟨fun hmem => ?_, hd.names⟩
    obtain ⟨m, hm, heq⟩ := mem_map.1 hmem
    have : Members.has d.members name = true := any_eq_true.2 ⟨m, hm, by simp [heq]⟩
    simp [this] at hhas
  · intro m hm
    rw [members_withMembers hscope, mem_append, mem_singleton] at hm
    rw [checkOption_withMembers]
    rcases hm with hm | rfl
    · exact hd.options m hm
    · exact hoption
  · intro hh o cap ms heq
    cases d <;> simp only [withMembers, reduceCtorEq] at heq
    injection heq with h₁ h₂ h₃ h₄
    subst h₁ h₂ h₃ h₄
    obtain ⟨hnodup, hfit⟩ := hd.values _ _ _ _ rfl
    exact values_concat name hnodup hfit hvalue
  · intro hh ext ms heq
    cases d <;> simp only [withMembers, reduceCtorEq] at heq
    injection heq with h₁ h₂ h₃
    subst h₁ h₂ h₃
    exact numbers_concat name (hd.numbers _ _ _ rfl) hnumber

/-- **A scope with a further member stays open.** -/
theorem Open.push (hd : d.Open) (hmember : member.WellFormed) (h : d.push member name = .ok d') :
    d'.Open ∧ d'.scopeKind? = d.scopeKind? := by
  have hsound := hd.sound.push hd.scope h
  obtain ⟨-, -, -, -, rfl⟩ := push_eq_ok h
  have hkind (ms : Members) : (d.withMembers ms).scopeKind? = d.scopeKind? := by cases d <;> rfl
  refine ⟨⟨?_, ?_, hsound, ?_⟩, hkind _⟩
  · rw [isScope, hkind]
    exact hd.scope
  · intro hh o cap ms heq
    cases d <;> simp only [withMembers, reduceCtorEq] at heq
    injection heq with h₁ h₂ h₃ h₄
    subst h₁ h₂ h₃ h₄
    exact hd.width _ _ _ _ rfl
  · intro m hm
    rw [members_withMembers hd.scope, mem_append, mem_singleton] at hm
    rcases hm with hm | rfl
    · exact hd.members m hm
    · exact hmember

theorem OpenIn.push (hd : d.OpenIn traditional) (hmember : member.WellFormedIn traditional)
    (h : d.push member name = .ok d') :
    d'.OpenIn traditional ∧ d'.scopeKind? = d.scopeKind? := by
  obtain ⟨hopen, hkind⟩ := hd.toOpen.push hmember.1 h
  refine ⟨⟨hopen, fun htraditional => ?_⟩, hkind⟩
  obtain ⟨-, -, -, -, rfl⟩ := push_eq_ok h
  exact (hd.unmarked htraditional).concat (hmember.2 htraditional) name

theorem Open.empty (hscope : d.isScope = true) (hwidth : ∀ h o cap ms, d = .enum h o cap ms → 0 < cap ∧ cap ≤ 64)
    (hmembers : d.members = []) : d.Open := by
  refine ⟨hscope, hwidth, ⟨?_, ?_, ?_, ?_⟩, ?_⟩
  · simp [hmembers]
  · simp [hmembers]
  · rintro h o cap ms rfl
    obtain rfl : ms = [] := hmembers
    simp
  · rintro h ext ms rfl
    obtain rfl : ms = [] := hmembers
    simp
  · simp [hmembers]

/-! ### Complete scopes -/

/-- **An open scope that passes the last check is well-formed.** -/
theorem Open.close (hd : d.Open) (h : d.checkClosed = .ok ()) : d.WellFormed := by
  have hmembers := hd.members
  cases d with
  | enum hh o cap ms =>
    obtain ⟨hpos, hle⟩ := hd.width _ _ _ _ rfl
    exact ⟨hpos, hle, hd.sound, membersWellFormed_iff.2 hmembers⟩
  | message hh ext ms => exact ⟨h, hd.sound, membersWellFormed_iff.2 hmembers⟩
  | proto hh ms => exact ⟨hd.sound, membersWellFormed_iff.2 hmembers⟩
  | _ => exact absurd hd.scope (by simp [isScope, scopeKind?])

/-- In traditional mode a complete scope has no mark of extensibility. -/
theorem OpenIn.close (hd : d.OpenIn traditional) (h : d.checkClosed = .ok ()) :
    d.WellFormedIn traditional :=
  ⟨hd.toOpen.close h, hd.unmarked⟩

theorem WellFormed.members (hd : d.WellFormed) : ∀ m ∈ d.members, m.2.WellFormed := by
  cases d with
  | enum hh o cap ms => exact membersWellFormed_iff.1 hd.2.2.2
  | message hh ext ms => exact membersWellFormed_iff.1 hd.2.2
  | proto hh ms => exact membersWellFormed_iff.1 hd.2
  | _ => simp [Def.members]

theorem WellFormedIn.members (hd : d.WellFormedIn traditional) :
    ∀ m ∈ d.members, m.2.WellFormedIn traditional :=
  fun m hm => ⟨hd.1.members m hm, fun htraditional => (hd.2 htraditional).members m hm⟩

theorem OpenIn.members_wellFormedIn (hd : d.OpenIn traditional) :
    ∀ m ∈ d.members, m.2.WellFormedIn traditional :=
  fun m hm => ⟨hd.members m hm, fun htraditional => (hd.unmarked htraditional).members m hm⟩

/-- **What is true of members is true of what a path of names leads to.** -/
theorem of_member? {P : Def → Prop} (hP : ∀ d, P d → ∀ m ∈ d.members, P m.2) {d m : Def} {names : List String}
    (hd : ∀ m ∈ d.members, P m.2) (h : d.member? names = some m) : P m := by
  induction names generalizing d with
  | nil => simp [member?] at h
  | cons n ns ih =>
    unfold member? at h
    cases hget : Members.get? d.members n with
    | none => simp [hget] at h
    | some m' =>
      have hm' : P m' := by
        obtain ⟨e, he, rfl⟩ := Option.map_eq_some_iff.1 hget
        exact hd e (mem_of_find?_eq_some he)
      simp only [hget] at h
      split at h
      · exact Option.some.inj h ▸ hm'
      · exact ih (hP m' hm') h

theorem eq_message_of_isA {d : Def} (h : d.isA .message = true) : ∃ hd ext ms, d = .message hd ext ms := by
  rw [isA_eq rfl] at h
  cases d with
  | message hd ext ms => exact ⟨hd, ext, ms, rfl⟩
  | _ => cases h

end BitSchema.Def
