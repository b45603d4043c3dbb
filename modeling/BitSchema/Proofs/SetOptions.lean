import BitSchema.Proofs.Bits
import BitSchema.Proofs.Stages

/-!
# Listings by file, and options

The members of a scope of a file either belong to the file or are imported files.  So a listing by file never meets a
definition that belongs to no file (`Def.select_bound`), and the options that are set in a scope are its members of that
kind (`Def.options_eq`).

The option `max_bytes` of a message can always be read (`Def.intOption_maxBytes`), and its size in bytes computed.  So
the last check of a message fails only with a report about its size (`Def.checkClosed_eq_error`).
-/

namespace BitSchema

open Reading List

namespace Def

/-! ### Listings by file -/

variable {d : Def} {h : Header} {k : Option LiteralKind}

/-- All definitions but files should belong to a file. -/
theorem isA_boundDefinition (h : d.scopeKind? ≠ some .proto) : d.isA .boundDefinition = true := by
  rw [isA_eq rfl]
  cases d with
  | proto _ _ => exact absurd rfl h
  | _ => rfl

theorem eq_proto_of_scopeKind? (h : d.scopeKind? = some .proto) : ∃ hd ms, d = .proto hd ms := by
  cases d with
  | proto hd ms => exact ⟨hd, ms, rfl⟩
  | _ => simp [scopeKind?] at h

theorem belongs_eq {file : Nat} {m : String × Def} (h : Proper file m) :
    belongs file m.2 = .ok (decide (m.2.scopeKind? ≠ some .proto)) := by
  unfold belongs
  cases h with
  | own hown _ _ => simp [isA_boundDefinition hown.kind, hown.bound, hown.kind]
  | imported _ hkind _ _ =>
    obtain ⟨hd, ms, rfl⟩ := eq_proto_of_scopeKind? hkind
    rfl

/-- A step that always succeeds is done for all elements. -/
theorem mapM_eq_ok {α β ε : Type} {f : α → Except ε β} {u : α → β} {as : List α} (h : ∀ a ∈ as, f a = .ok (u a)) :
    as.mapM f = .ok (as.map u) := by
  induction as with
  | nil => rfl
  | cons a as ih =>
    rw [mapM_cons, h a (mem_cons_self ..), ih fun b hb => h b (mem_cons_of_mem _ hb)]
    rfl

/-- What a member adds to a listing by file: nothing if it is an imported file. -/
def ownListed (k : Kind) (recursive : Bool) (m : String × Def) : List (String × Def) :=
  if m.2.scopeKind? ≠ some .proto then listed k recursive m else []

/-- **A listing by file** leaves imported files out. -/
theorem select_bound {file : Nat} (k : Kind) (recursive : Bool) (h : ∀ m ∈ d.members, Proper file m) :
    d.select k recursive (some file) = .ok (d.members.flatMap (ownListed k recursive)) := by
  have hmembers : ∀ m ∈ d.members,
      (do return if ← belongs file m.2 then listed k recursive m else [] : Except Fault _) =
        .ok (ownListed k recursive m) := by
    intro m hm
    rw [belongs_eq (h m hm)]
    by_cases hkind : m.2.scopeKind? = some .proto <;> simp [ownListed, hkind]
  rw [select, mapM_eq_ok hmembers]
  rfl

/-- **The options that are set** in a scope are its members of that kind. -/
theorem options_eq (h : ∀ m ∈ d.members, Proper d.home m) : d.options = .ok (d.direct .option) := by
  have hlisted (m : String × Def) : listed .option false m = if m.2.isA .option then [m] else [] := rfl
  have hown (m : String × Def) : ownListed .option false m = if m.2.isA .option then [m] else [] := by
    unfold ownListed
    split
    · rfl
    · next hkind =>
      obtain ⟨hd, ms, hm⟩ := eq_proto_of_scopeKind? (not_not.1 hkind)
      rw [hm]
      rfl
  have hfilter (f : String × Def → List (String × Def)) (hf : ∀ m, f m = if m.2.isA .option then [m] else []) :
      d.members.flatMap f = d.direct .option := by
    rw [funext hf, direct]
    induction d.members with
    | nil => rfl
    | cons m ms ih =>
      rw [flatMap_cons, ih, filter_cons]
      split <;> rfl
  unfold options
  cases hbound : d.header.bound with
  | none => rw [select, hfilter _ hlisted]
  | some file =>
    have hhome : d.home = file := by rw [home, hbound, Option.getD_some]
    rw [hhome] at h
    rw [select_bound _ _ h, hfilter _ hown]

/-! ### Values of options -/

/-- **An option that is accepted is described** for the scope, and its value is of the described kind and allowed. -/
theorem checkOption_eq_ok {v : Literal} (hkind : d.scopeKind? ≠ some .enum)
    (hcheck : d.checkOption (.option h k v) = .ok ()) :
    ∃ spec ∈ d.optionSpecs, spec.name = h.name ∧ k = some spec.default.kind ∧ spec.accepts v = true := by
  unfold checkOption at hcheck
  split at hcheck
  · next heq => exact absurd heq hkind
  · next heq _ =>
    cases heq
    split at hcheck
    · cases hcheck
    · next spec hspec =>
      have hname := find?_some hspec
      split at hcheck
      · cases hcheck
      · next hk =>
        split at hcheck
        · cases hcheck
        · next haccepts =>
          exact ⟨spec, mem_of_find?_eq_some hspec, by simpa using hname, not_not.1 hk, by simpa using haccepts⟩
  · next hother => exact absurd rfl (hother h k v)

/-- The only option of a message is `max_bytes`, a number that is not negative. -/
theorem of_checkOption_message {o : Header} {ext : Bool} {ms : Members} {v : Literal}
    (hcheck : (Def.message h ext ms).checkOption (.option o k v) = .ok ()) (htyped : (Def.option o k v).Typed) :
    o.name = "max_bytes" ∧ ∃ limit, v = .int limit ∧ 0 ≤ limit := by
  obtain ⟨spec, hspec, hname, hk, haccepts⟩ := checkOption_eq_ok (by simp [scopeKind?]) hcheck
  obtain rfl := mem_singleton.1 hspec
  refine ⟨hname.symm, ?_⟩
  have hinteger : v.kind = .integer := Option.some.inj (Eq.trans (Eq.symm htyped) hk)
  cases v with
  | int limit => exact ⟨limit, rfl, by simpa [OptionSpec.accepts] using haccepts⟩
  | bool b => cases hinteger
  | str s => cases hinteger

theorem eq_option_of_isA (h : d.isA .option = true) : ∃ o k v, d = .option o k v := by
  rw [isA_eq rfl] at h
  cases d with
  | option o k v => exact ⟨o, k, v, rfl⟩
  | _ => cases h

theorem intOption_eq {name : String} {o : Header} {n : Int} (h : d.option? name = .ok (some (.option o k (.int n)))) :
    d.intOption name = .ok n := by
  rw [intOption, optionValue, optionOrFail, h]
  rfl

/-- **The option `max_bytes` of a message can be read**: the number that was set, or zero. -/
theorem intOption_maxBytes {ext : Bool} {ms : Members} (hsound : (Def.message h ext ms).Sound)
    (hmembers : ∀ m ∈ ms, Proper (Def.message h ext ms).home m) :
    ∃ limit : Int, (Def.message h ext ms).intOption "max_bytes" = .ok limit ∧ 0 ≤ limit ∧
      ∀ m ∈ ms, ∀ o k v, m.2 = .option o k v → v = .int limit := by
  have hoption (m : String × Def) (hm : m ∈ ms) (o : Header) (k : Option LiteralKind) (v : Literal)
      (heq : m.2 = .option o k v) : m.1 = "max_bytes" ∧ ∃ limit, v = .int limit ∧ 0 ≤ limit := by
    have hcheck := hsound.options m hm
    have hproper := hmembers m hm
    obtain ⟨n, d⟩ := m
    subst heq
    cases hproper with
    | own _ htyped _ => exact of_checkOption_message hcheck htyped
    | imported _ hkind _ _ => simp [scopeKind?] at hkind
  have hoptions := options_eq (d := .message h ext ms) hmembers
  have hset (m : String × Def) (hm : m ∈ ms) (o : Header) (k : Option LiteralKind) (v : Literal)
      (heq : m.2 = .option o k v) : m ∈ (Def.message h ext ms).direct .option := by
    refine mem_filter.2 ⟨hm, ?_⟩
    rw [heq, isA_eq rfl]
    rfl
  cases hget : Members.get? ((Def.message h ext ms).direct .option) "max_bytes" with
  | none =>
    refine ⟨0, intOption_eq (o := { name := "max_bytes" }) (k := some .integer) ?_, le_rfl, fun m hm o k v heq => ?_⟩
    · simp only [option?, hoptions, bind, Except.bind, hget]
      rfl
    -- an option that is set would have been found
    · have hnone := find?_eq_none.1 (Option.map_eq_none_iff.1 hget) m (hset m hm o k v heq)
      simp [(hoption m hm o k v heq).1] at hnone
  | some d =>
    obtain ⟨m, hfind, rfl⟩ := Option.map_eq_some_iff.1 hget
    obtain ⟨hm, hkind⟩ := mem_filter.1 (mem_of_find?_eq_some hfind)
    obtain ⟨o, k, v, heq⟩ := eq_option_of_isA hkind
    obtain ⟨hname, limit, rfl, hlimit⟩ := hoption m hm o k v heq
    refine ⟨limit, intOption_eq (o := o) (k := k) ?_, hlimit, fun m' hm' o' k' v' heq' => ?_⟩
    · simp only [option?, hoptions, bind, Except.bind, hget, heq]
      rfl
    -- there is only one member of that name
    · have hname' := (hoption m' hm' o' k' v' heq').1
      have hsame : m' = m := inj_on_of_nodup_map hsound.names hm' hm (hname'.trans hname.symm)
      rw [hsame, heq] at heq'
      cases heq'
      rfl

/-! ### The last check -/

/-- **The check of a complete message**: its bits, and its bytes if they are limited. -/
theorem checkMessage_eq {limit : Int} (hlimit : d.intOption "max_bytes" = .ok limit) :
    (d.nbits ≤ maxMessageBits ∧ (0 < limit → (((d.nbits + 7) / 8 : Nat) : Int) ≤ limit) ∧ d.checkMessage = .ok ()) ∨
      ∃ note, d.checkMessage = .error (.about .messageSize d.header.origin note) := by
  unfold checkMessage
  simp only [hlimit, bind, Except.bind]
  by_cases hlarge : d.nbits > maxMessageBits
  · rw [if_pos hlarge]
    exact .inr ⟨_, rfl⟩
  have hbytes : d.nbytes = .ok ((d.nbits + 7) / 8) := by
    unfold maxMessageBits at hlarge
    exact Wire.bytesOfBits_eq (by omega)
  rw [if_neg hlarge]
  by_cases hlimited : limit > 0
  · rw [if_pos hlimited, hbytes]
    by_cases hmore : (((d.nbits + 7) / 8 : Nat) : Int) > limit
    · exact .inr ⟨_, by simp only [pure, Except.pure, if_pos hmore]; rfl⟩
    · exact .inl ⟨by omega, fun _ => by omega, by simp only [pure, Except.pure, if_neg hmore]⟩
  · rw [if_neg hlimited]
    exact .inl ⟨by omega, fun h => absurd h hlimited, rfl⟩

/-- **The last check of a scope fails only because a message is too large.** -/
theorem checkClosed_eq_error {f : Fault} (hsound : d.Sound) (hmembers : ∀ m ∈ d.members, Proper d.home m)
    (h : d.checkClosed = .error f) : ∃ note, f = .about .messageSize d.header.origin note := by
  cases d with
  | message hd ext ms =>
    obtain ⟨limit, hlimit, -, -⟩ := intOption_maxBytes hsound hmembers
    rw [checkClosed] at h
    rcases checkMessage_eq hlimit with ⟨-, -, hok⟩ | ⟨note, herror⟩
    · rw [hok] at h
      cases h
    · rw [herror] at h
      cases h
      exact ⟨note, rfl⟩
  | _ => cases h

end Def

end BitSchema
