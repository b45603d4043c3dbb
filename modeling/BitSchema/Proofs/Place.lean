import BitSchema.Proofs.Values

/-!
# Places inside a record

While a message runs, an accessor and an indexer address a place inside a record: a field and the indices of
the arrays around.  `At a x access v` says that the accessor `a` holds the value `v` at the position `x`, and
that the slot of the field reaches leaves from there on as `access` says.  `PutAt a x v a'` says that `a'` is
`a` with `v` put at `x`.

The laws of the two are those of a store: what is put is there (`PutAt.at`), what was there can be put back
(`At.putAt_self`), the last value put counts (`PutAt.again`), and a value is put into an element of an array by
putting the changed array (`At.item`, `PutAt.item`).
-/

namespace BitSchema.Wire

open List

variable {k : Nat}

namespace Value

/-! ### Following and updating -/

variable {v x v' : Value} {ks : List Nat} {k : Nat}

theorem follow_concat {c : Value} (h : v.follow ks = .ok c) (k : Nat) :
    v.follow (ks ++ [k]) = c.element k := by
  induction ks generalizing v with
  | nil =>
    obtain rfl : v = c := by simpa [follow] using h
    show (v.element k >>= fun x => x.follow []) = v.element k
    cases v.element k <;> rfl
  | cons j ks ih =>
    simp only [cons_append, follow] at h ⊢
    cases hj : v.element j with
    | error e => simp [hj, bind, Except.bind] at h
    | ok x =>
      simp only [hj, bind, Except.bind] at h ⊢
      exact ih h

theorem update_congr {f g : Value → Except Fault Value} (h : v.follow ks = .ok x) (hfg : f x = g x) :
    v.update f ks = v.update g ks := by
  induction ks generalizing v with
  | nil =>
    obtain rfl : v = x := by simpa [follow] using h
    exact hfg
  | cons j ks ih =>
    simp only [follow, update] at h ⊢
    cases hj : v.element j with
    | error e => rfl
    | ok y =>
      simp only [hj, bind, Except.bind] at h ⊢
      rw [ih h]

theorem update_concat (v : Value) (f : Value → Except Fault Value) (ks : List Nat) (k : Nat) :
    v.update f (ks ++ [k])
      = v.update (fun c => do let x ← c.element k; c.setElement k (← f x)) ks := by
  induction ks generalizing v with
  | nil => rfl
  | cons j ks ih =>
    simp only [cons_append, update]
    cases v.element j with
    | error e => rfl
    | ok y =>
      simp only [bind, Except.bind]
      rw [ih]
      rfl

theorem assign_eq_update {y : Value} (x : Value) (h : v.follow ks = .ok y) :
    v.assign x ks = v.update (fun _ => .ok x) ks := by
  induction ks generalizing v with
  | nil => rfl
  | cons j ks ih =>
    simp only [follow] at h
    cases hj : v.element j with
    | error e => simp [hj, bind, Except.bind] at h
    | ok z =>
      simp only [hj, bind, Except.bind] at h
      cases ks with
      | nil => simp [assign, update, hj, bind, Except.bind]
      | cons l ks => simp only [assign, update, hj, bind, Except.bind, ih h]

theorem setElement_self (h : v.element k = .ok x) : v.setElement k x = .ok v := by
  cases v with
  | bytes bs =>
    cases hk : bs[k]? with
    | none => simp [element, hk] at h
    | some b =>
      obtain rfl : Value.int b.toNat = x := by simpa [element, hk] using h
      obtain ⟨hlt, rfl⟩ := Array.getElem?_eq_some_iff.1 hk
      have hb := (bs[k]).toNat_lt
      have hbyte : (Value.int ((bs[k]).toNat : Int)).toByte = .ok bs[k] := by
        simp only [toByte, asInt?, Int.toNat_natCast]
        rw [if_pos (by omega), UInt8.ofNat_toNat]
      simp [setElement, hbyte, bind, Except.bind, hlt, pure, Except.pure, Array.setIfInBounds]
  | list items =>
    cases hk : items[k]? with
    | none => simp [element, hk] at h
    | some y =>
      obtain rfl : y = x := by simpa [element, hk] using h
      obtain ⟨hlt, rfl⟩ := Array.getElem?_eq_some_iff.1 hk
      simp [setElement, hlt, Array.setIfInBounds]
  | _ => simp [element] at h

theorem update_self (h : v.follow ks = .ok x) :
    v.update (fun _ => .ok x) ks = .ok v := by
  induction ks generalizing v with
  | nil =>
    obtain rfl : v = x := by simpa [follow] using h
    rfl
  | cons j ks ih =>
    simp only [follow, update] at h ⊢
    cases hj : v.element j with
    | error e => simp [hj, bind, Except.bind] at h
    | ok y =>
      simp only [hj, bind, Except.bind] at h ⊢
      rw [ih h]
      exact setElement_self hj

theorem setElement_bytes_eq_ok {bs : Array UInt8} :
    (Value.bytes bs).setElement k x = .ok v' ↔
      ∃ b, x.toByte = .ok b ∧ k < bs.size ∧ v' = .bytes (bs.setIfInBounds k b) := by
  cases hx : x.toByte with
  | error e => simp [setElement, hx, bind, Except.bind]
  | ok b =>
    by_cases hk : k < bs.size
    · simp [setElement, hx, bind, Except.bind, hk, pure, Except.pure, eq_comm]
    · simp [setElement, hx, bind, Except.bind, hk, throw, throwThe, MonadExceptOf.throw]

theorem setElement_list_eq_ok {items : Array Value} :
    (Value.list items).setElement k x = .ok v' ↔ k < items.size ∧ v' = .list (items.setIfInBounds k x) := by
  by_cases hk : k < items.size <;> simp [setElement, hk, eq_comm]

theorem setElement_setElement (h : v.setElement k x = .ok v') (y : Value) :
    v'.setElement k y = v.setElement k y := by
  cases v with
  | bytes bs =>
    obtain ⟨b, -, hk, rfl⟩ := setElement_bytes_eq_ok.1 h
    simp [setElement, hk]
  | list items =>
    obtain ⟨hk, rfl⟩ := setElement_list_eq_ok.1 h
    simp [setElement, hk]
  | _ => simp [setElement] at h

/-- What is put into an element is there, if it is no truth value, which bytes would keep as a number. -/
theorem element_setElement (h : v.setElement k x = .ok v') (hx : ∀ b, x ≠ .bool b) : v'.element k = .ok x := by
  cases v with
  | bytes bs =>
    obtain ⟨b, hb, hk, rfl⟩ := setElement_bytes_eq_ok.1 h
    cases x with
    | int n =>
      by_cases hn : 0 ≤ n ∧ n < 256
      · obtain rfl : UInt8.ofNat n.toNat = b := by simpa [toByte, asInt?, hn] using hb
        have hmod : n.toNat % 256 = n.toNat := Nat.mod_eq_of_lt (by omega)
        simp [element, hk, hmod, hn.1]
      · simp only [toByte, asInt?] at hb
        rw [if_neg hn] at hb
        cases hb
    | bool c => exact absurd rfl (hx c)
    | _ => simp [toByte, asInt?] at hb
  | list items =>
    obtain ⟨hk, rfl⟩ := setElement_list_eq_ok.1 h
    simp [element, hk]
  | _ => simp [setElement] at h

theorem not_bool_of_setElement (h : v.setElement k x = .ok v') (b : Bool) :
    v' ≠ .bool b := by
  rintro rfl
  cases v with
  | bytes bs =>
    obtain ⟨c, -, -, heq⟩ := setElement_bytes_eq_ok.1 h
    cases heq
  | list items =>
    obtain ⟨-, heq⟩ := setElement_list_eq_ok.1 h
    cases heq
  | _ => simp [setElement] at h

theorem update_error_ne_ok {c : Value} {e : Fault} (h : v.follow ks = .ok c) :
    v.update (fun _ => .error e) ks ≠ .ok v' := by
  induction ks generalizing v v' with
  | nil => simp [update]
  | cons j ks ih =>
    simp only [follow, update] at h ⊢
    cases hj : v.element j with
    | error e => simp [bind, Except.bind]
    | ok y =>
      simp only [hj, bind, Except.bind] at h ⊢
      cases hy : y.update (fun _ => .error e) ks with
      | error e => simp
      | ok z => exact absurd hy (ih h)

/-- **`v'` is `v` with `x` put** where the path leads to. -/
structure Puts (v : Value) (ks : List Nat) (x v' : Value) : Prop where
  update_eq : v.update (fun _ => .ok x) ks = .ok v'
  follow_eq : v'.follow ks = .ok x

namespace Puts

variable {v v' x : Value} {ks : List Nat}

theorem refl (h : v.follow ks = .ok x) : Puts v ks x v := ⟨update_self h, h⟩

private theorem element_of_update {y y' : Value} {f : Value → Except Fault Value} {j l : Nat}
    (hj : v.element j = .ok y) (hy : y.update f (l :: ks) = .ok y') (hset : v.setElement j y' = .ok v') :
    v'.element j = .ok y' := by
  cases v with
  | bytes bs =>
    -- elements of bytes are numbers, which have no elements
    cases hb : bs[j]? with
    | none => simp [element, hb] at hj
    | some b =>
      obtain rfl : Value.int b.toNat = y := by simpa [element, hb] using hj
      simp [update, element, bind, Except.bind] at hy
  | list items =>
    obtain ⟨hk, rfl⟩ := setElement_list_eq_ok.1 hset
    simp [element, hk]
  | _ => simp [element] at hj

theorem update_update (h : v.update (fun _ => .ok x) ks = .ok v') (z : Value)
    (hx : v'.follow ks = .ok x) :
    v'.update (fun _ => .ok z) ks = v.update (fun _ => .ok z) ks := by
  induction ks generalizing v v' with
  | nil => rfl
  | cons j ks ih =>
    simp only [update] at h ⊢
    cases hj : v.element j with
    | error e => simp [hj, bind, Except.bind] at h
    | ok y =>
      simp only [hj, bind, Except.bind] at h ⊢
      cases hy : y.update (fun _ => .ok x) ks with
      | error e => simp [hy] at h
      | ok y' =>
        simp only [hy] at h
        cases ks with
        | nil =>
          -- the value is put into this element itself
          obtain rfl : x = y' := by simpa [update] using hy
          have hx' : v'.element j = .ok x := by
            cases hv : v'.element j with
            | error e => simp [follow, hv, bind, Except.bind] at hx
            | ok u => simpa [follow, hv, bind, Except.bind] using hx
          simp only [hx', update]
          exact setElement_setElement h z
        | cons l ks =>
          -- the value is put further inside
          have hv' : v'.element j = .ok y' := element_of_update hj hy h
          have hx' : y'.follow (l :: ks) = .ok x := by
            rw [follow, hv'] at hx
            exact hx
          simp only [hv', ih hy hx']
          cases y.update (fun _ => .ok z) (l :: ks) with
          | error e => rfl
          | ok u => exact setElement_setElement h u

theorem concat {c c' r : Value} (hc : v.follow ks = .ok c) (hk : c.element k = .ok r)
    (hset : c.setElement k x = .ok c') (hx : c'.element k = .ok x) (h : Puts v ks c' v') :
    Puts v (ks ++ [k]) x v' := by
  refine ⟨?_, ?_⟩
  · rw [update_concat, update_congr hc (g := fun _ => .ok c'), h.update_eq]
    simp [hk, hset, bind, Except.bind]
  · rw [follow_concat h.follow_eq, hx]

/-- What is put is there, if it is no truth value, which bytes would keep as a number. -/
theorem follow_of_update (h : v.update (fun _ => .ok x) ks = .ok v') (hx : ∀ b, x ≠ .bool b) :
    v'.follow ks = .ok x := by
  induction ks generalizing v v' with
  | nil =>
    obtain rfl : x = v' := by simpa [update] using h
    rfl
  | cons j ks ih =>
    simp only [update] at h
    cases hj : v.element j with
    | error e => simp [hj, bind, Except.bind] at h
    | ok y =>
      simp only [hj, bind, Except.bind] at h
      cases hy : y.update (fun _ => .ok x) ks with
      | error e => simp [hy] at h
      | ok y' =>
        simp only [hy] at h
        have hv' : v'.element j = .ok y' := by
          cases ks with
          | nil =>
            obtain rfl : x = y' := by simpa [update] using hy
            exact element_setElement h hx
          | cons l ks => exact element_of_update hj hy h
        rw [follow, hv']
        exact ih hy

theorem of_concat {c r : Value} (hc : v.follow ks = .ok c) (hk : c.element k = .ok r)
    (h : Puts v (ks ++ [k]) x v') :
    ∃ c', c.setElement k x = .ok c' ∧ c'.element k = .ok x ∧ Puts v ks c' v' := by
  have hupdate := h.update_eq
  rw [update_concat, update_congr hc (g := fun _ => c.setElement k x)
    (by simp [hk, bind, Except.bind])] at hupdate
  cases hset : c.setElement k x with
  | error e =>
    rw [hset] at hupdate
    exact absurd hupdate (update_error_ne_ok hc)
  | ok c' =>
    rw [hset] at hupdate
    have hfollow := follow_of_update hupdate (not_bool_of_setElement hset)
    refine ⟨c', rfl, ?_, hupdate, hfollow⟩
    rw [← follow_concat hfollow, h.follow_eq]

end Puts

end Value

/-! ### Slots -/

namespace Accessor

/-- **The only slot of a field number.** -/
structure Only (slots : List (Slot × Value)) (number : Int) (e : Slot × Value) : Prop where
  mem : e ∈ slots
  number_eq : (e.1.number : Int) = number
  unique : ∀ e' ∈ slots, (e'.1.number : Int) = number → e' = e

namespace Only

variable {slots : List (Slot × Value)} {number : Int} {e : Slot × Value}

theorem eq {s s' : Slot} {v v' : Value} (h : Only slots number (s, v)) (h' : Only slots number (s', v')) :
    s' = s ∧ v' = v := by
  simpa using h.unique _ h'.mem h'.number_eq

theorem slot?_eq (h : Only slots number e) : slot? slots number = some e := by
  have hex : (slots.find? fun s => (s.1.number : Int) == number).isSome := by
    rw [find?_isSome]
    exact ⟨e, h.mem, by simp [h.number_eq]⟩
  obtain ⟨e', he'⟩ := Option.isSome_iff_exists.1 hex
  have hnum : (e'.1.number : Int) = number := by simpa using find?_some he'
  rw [slot?, he', h.unique e' (mem_of_find?_eq_some he') hnum]

theorem setSlot_self (h : Only slots number e) : setSlot slots number e.2 = slots := by
  unfold setSlot
  refine (map_congr_left fun s hs => ?_).trans (map_id slots)
  split
  · next hn => rw [h.unique s hs (by simpa using hn)]; rfl
  · rfl

theorem setSlot (h : Only slots number e) (v : Value) :
    Only (setSlot slots number v) number (e.1, v) := by
  refine ⟨mem_map.2 ⟨e, h.mem, by simp [h.number_eq]⟩, h.number_eq, ?_⟩
  intro e' he' hnum
  obtain ⟨s, hs, rfl⟩ := mem_map.1 he'
  by_cases hn : (s.1.number : Int) = number
  · rw [h.unique s hs hn] at *
    simp [h.number_eq]
  · simp [hn] at hnum

end Only

theorem setSlot_setSlot (slots : List (Slot × Value)) (number : Int) (v w : Value) :
    setSlot (setSlot slots number v) number w = setSlot slots number w := by
  unfold setSlot
  rw [map_map]
  refine map_congr_left fun s _ => ?_
  by_cases hn : (s.1.number : Int) = number <;> simp [hn]

end Accessor

/-! ### Places -/

namespace Access

/-- The same leaves inside `k` more arrays. -/
def under (k : Nat) : Access → Access
  | .leaf depth kind => .leaf (depth + k) kind
  | .child depth => .child (depth + k)
  | .taken kind access => .taken kind access

theorem under_deeper (k : Nat) (access : Access) : access.deeper.under k = access.under (k + 1) := by
  cases access <;> simp [deeper, under] <;> omega

end Access

open Accessor

/-- **The accessor holds a value** at a position, from which on leaves are reached as `access` says. -/
def At (a : Accessor) (x : Indexer Nat) (access : Option Access) (v : Value) : Prop :=
  ∃ title slots s root, a = .record title slots ∧ Only slots x.field (s, root) ∧
    s.access = access.map (Access.under x.stack.length) ∧ root.follow x.stack = .ok v

/-- **The accessor with a value put** at a position. -/
def PutAt (a : Accessor) (x : Indexer Nat) (v : Value) (a' : Accessor) : Prop :=
  ∃ title slots s root root', a = .record title slots ∧ Only slots x.field (s, root) ∧
    root.Puts x.stack v root' ∧ a' = .record title (setSlot slots x.field root')

namespace Indexer

def push (x : Indexer Nat) (k : Nat) : Indexer Nat := ⟨x.field, x.stack ++ [k]⟩

end Indexer

variable {a a' a'' : Accessor} {x : Indexer Nat} {access : Option Access} {v w : Value}

theorem PutAt.of_only {title : String} {slots : List (Slot × Value)} {e : Slot × Value}
    (hput : PutAt (.record title slots) x w a') (honly : Only slots x.field e) :
    ∃ root', e.2.Puts x.stack w root' ∧ a' = .record title (setSlot slots x.field root') := by
  obtain ⟨_, _, s, root, root', heq, honly', hputs, ha'⟩ := hput
  cases heq
  obtain ⟨-, rfl⟩ := honly.eq honly'
  exact ⟨root', hputs, ha'⟩

theorem At.putAt_self (h : At a x access v) : PutAt a x v a := by
  obtain ⟨title, slots, s, root, rfl, honly, -, hfollow⟩ := h
  exact ⟨title, slots, s, root, root, rfl, honly, .refl hfollow, by rw [honly.setSlot_self]⟩

theorem PutAt.at (hput : PutAt a x w a') (h : At a x access v) : At a' x access w := by
  obtain ⟨title, slots, s, root, rfl, honly, haccess, -⟩ := h
  obtain ⟨root', hputs, rfl⟩ := hput.of_only honly
  exact ⟨title, _, s, root', rfl, honly.setSlot root', haccess, hputs.follow_eq⟩

/-- **The last value put counts.** -/
theorem PutAt.again (hput : PutAt a x v a') : PutAt a' x w a'' ↔ PutAt a x w a'' := by
  obtain ⟨title, slots, s, root, root', rfl, honly, hputs, rfl⟩ := hput
  have hsame (z : Value) := Value.Puts.update_update hputs.update_eq z hputs.follow_eq
  constructor
  · intro hagain
    obtain ⟨root'', hputs₁, rfl⟩ := hagain.of_only (honly.setSlot root')
    refine ⟨title, slots, s, root, root'', rfl, honly, ⟨?_, hputs₁.follow_eq⟩, ?_⟩
    · rw [← hsame, hputs₁.update_eq]
    · rw [setSlot_setSlot]
  · intro hput
    obtain ⟨root'', hputs₁, rfl⟩ := hput.of_only honly
    refine ⟨title, _, s, root', root'', rfl, honly.setSlot root', ⟨?_, hputs₁.follow_eq⟩, ?_⟩
    · rw [hsame, hputs₁.update_eq]
    · rw [setSlot_setSlot]

theorem At.item (h : At a x (access.map Access.deeper) v) (hk : v.element k = .ok w) :
    At a (x.push k) access w := by
  obtain ⟨title, slots, s, root, rfl, honly, haccess, hfollow⟩ := h
  refine ⟨title, slots, s, root, rfl, honly, ?_, ?_⟩
  · rw [haccess, Option.map_map, Indexer.push, length_append]
    congr 1
    funext c
    exact Access.under_deeper _ c
  · rw [Indexer.push, Value.follow_concat hfollow, hk]

theorem PutAt.of_item {r : Value} (h : At a x access v) (hk : v.element k = .ok r)
    (hput : PutAt a (x.push k) w a') :
    ∃ c, v.setElement k w = .ok c ∧ c.element k = .ok w ∧ PutAt a x c a' := by
  obtain ⟨title, slots, s, root, rfl, honly, -, hfollow⟩ := h
  obtain ⟨root', hputs, rfl⟩ := hput.of_only honly
  obtain ⟨c, hset, hc, hputs'⟩ := hputs.of_concat hfollow hk
  exact ⟨c, hset, hc, title, slots, s, root, root', rfl, honly, hputs', rfl⟩

theorem PutAt.item {r c : Value} (h : At a x access v) (hk : v.element k = .ok r)
    (hset : v.setElement k w = .ok c) (hw : c.element k = .ok w) (hput : PutAt a x c a') :
    PutAt a (x.push k) w a' := by
  obtain ⟨title, slots, s, root, rfl, honly, -, hfollow⟩ := h
  obtain ⟨root', hputs, rfl⟩ := hput.of_only honly
  exact ⟨title, slots, s, root, root', rfl, honly, .concat hfollow hk hset hw hputs, rfl⟩

end BitSchema.Wire
