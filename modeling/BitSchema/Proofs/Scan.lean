import BitSchema.Proofs.Assembly
import BitSchema.Proofs.Traditional

/-!
# Reading values off a stream of bits

`Ty.scan` says what unpacking reads: the value of a type from a bit on, and the bit after it.  It fails only if bits are
missing.  A leaf is read from its bits at once, elements and fields one after the other (`scanAll`), and at the end of
something extensible what was announced beyond it is passed over (`Source.framed`).

A source gives bits if it has them from a bit on (`Source.Gives`).  For types without extensibility the bits and the
values within bounds are the same thing: any `nbits` bits are those of such a value, and wherever they are given it is
this value that is read (`Ty.WellFormed.exists_reads`).
-/

namespace BitSchema

open Wire List

variable {d : Int}

namespace Wire

/-! ### Sources -/

/-- **Bits to read**: a stream of which the first `limit` bits are there. -/
structure Source where
  bit : Nat → Bool
  limit : Nat

namespace Source

/-- The bits of a buffer, as far as they are counted without rounding. -/
def ofBytes (bytes : Array UInt8) : Source := ⟨bitAt bytes, min (8 * bytes.size) (2 ^ 53)⟩

/-- The number whose `n` bits start at bit `i`. -/
def number (src : Source) (i n : Nat) : Nat := Nat.ofBits fun k : Fin n => src.bit (i + k)

/-- **The source gives bits** from bit `i` on. -/
def Gives (src : Source) (i : Nat) (bits : List Bool) : Prop :=
  i + bits.length ≤ src.limit ∧ ∀ k < bits.length, src.bit (i + k) = bits[k]?.getD false

variable {src : Source} {i : Nat}

theorem gives_append {xs ys : List Bool} :
    src.Gives i (xs ++ ys) ↔ src.Gives i xs ∧ src.Gives (i + xs.length) ys := by
  unfold Gives
  rw [length_append]
  constructor
  · rintro ⟨hlimit, hbits⟩
    refine ⟨⟨by omega, fun k hk => ?_⟩, by omega, fun k hk => ?_⟩
    · rw [hbits k (by omega), getElem?_append_left hk]
    · rw [Nat.add_assoc, hbits (xs.length + k) (by omega), getElem?_append_right (by omega),
        Nat.add_sub_cancel_left]
  · rintro ⟨⟨-, hxs⟩, hlimit, hys⟩
    refine ⟨by omega, fun k hk => ?_⟩
    rcases Nat.lt_or_ge k xs.length with hlt | hge
    · rw [getElem?_append_left hlt]
      exact hxs k hlt
    · rw [getElem?_append_right hge, ← hys (k - xs.length) (by omega), Nat.add_assoc, Nat.add_sub_cancel' hge]

theorem gives_ofBytes {bytes : Array UInt8} {bits : List Bool} (hsize : bits.length ≤ 8 * bytes.size)
    (hlimit : bits.length ≤ 2 ^ 53) (hbits : ∀ k < bits.length, bitAt bytes k = bits[k]?.getD false) :
    (Source.ofBytes bytes).Gives 0 bits := by
  refine ⟨?_, fun k hk => ?_⟩
  · rw [Nat.zero_add]
    exact le_min hsize hlimit
  · rw [Nat.zero_add]
    exact hbits k hk

theorem testBit_number (src : Source) (i n k : Nat) :
    (src.number i n).testBit k = (decide (k < n) && src.bit (i + k)) := by
  unfold number
  by_cases hk : k < n
  · rw [Nat.testBit_ofBits_lt _ _ hk]
    simp [hk]
  · rw [Nat.testBit_ofBits_ge _ _ (by omega)]
    simp [hk]

theorem number_lt (src : Source) (i n : Nat) : src.number i n < 2 ^ n := Nat.ofBits_lt_two_pow _

theorem Gives.number_eq {n d : Nat} (h : src.Gives i (intBits d 0 n)) (hd : d < 2 ^ n) : src.number i n = d := by
  refine Nat.eq_of_testBit_eq fun k => ?_
  rw [testBit_number]
  by_cases hk : k < n
  · have hbit := h.2 k (by simpa using hk)
    rw [hbit, getElem?_intBits, Nat.zero_add, testBit_natCast]
    simp [hk]
  · rw [Nat.testBit_eq_false_of_lt (lt_of_lt_of_le hd (Nat.pow_le_pow_right Nat.two_pos (by omega)))]
    simp [hk]

end Source

/-! ### Leaves -/

namespace Leaf

/-- The integer that the bits of a leaf stand for. -/
def ofNumber : Leaf → Nat → Int
  | .signed width, n => Wire.signed width n
  | _, n => n

def hold : Leaf → Int → Value
  | .bool, d => .bool (d != 0)
  | _, d => .int d

variable {kind : Leaf} {width n : Nat}

theorem testBit_ofNumber (hsuits : kind.Suits width) (hn : n < 2 ^ width) {k : Nat} (hk : k < width) :
    (kind.ofNumber n).testBit k = n.testBit k := by
  cases kind with
  | bool => rfl
  | unsigned => rfl
  | signed w =>
    obtain ⟨rfl, hpos⟩ := hsuits
    rw [ofNumber, testBit_signed hpos hn, min_eq_left (by omega)]

/-- **Every number of the width of a leaf stands for one within its bounds.** -/
theorem range_ofNumber (hsuits : kind.Suits width) (hn : n < 2 ^ width) : kind.Range width (kind.ofNumber n) := by
  have hcast : (n : Int) < ((2 ^ width : Nat) : Int) := by exact_mod_cast hn
  cases kind with
  | bool =>
    obtain rfl : width = 1 := hsuits
    exact ⟨Int.natCast_nonneg n, hcast⟩
  | unsigned => exact ⟨Int.natCast_nonneg n, hcast⟩
  | signed w =>
    obtain ⟨rfl, hpos⟩ := hsuits
    have hpow : weight w = 2 * weight (w - 1) := by
      show 2 ^ w = 2 * 2 ^ (w - 1)
      rw [← Nat.pow_succ', Nat.succ_eq_add_one, Nat.sub_add_cancel hpos]
    have hweight : n < weight w := hn
    show -(weight (w - 1) : Int) ≤ Wire.signed w n ∧ Wire.signed w n < weight (w - 1)
    unfold Wire.signed
    split
    · omega
    · omega

/-- **A number within the bounds of a leaf is known by its low bits.** -/
theorem Range.eq_of_testBit {d e : Int} (hsuits : kind.Suits width) (hd : kind.Range width d) (he : kind.Range width e)
    (hbits : ∀ k < width, d.testBit k = e.testBit k) : d = e := by
  refine int_eq_of_testBit fun k => ?_
  by_cases hk : k < width
  · exact hbits k hk
  -- above the width there are zeros, or the sign is repeated
  have hwidth : width ≤ k := Nat.not_lt.1 hk
  cases kind with
  | bool =>
    obtain rfl : width = 1 := hsuits
    rw [testBit_of_lt hd.1 (n := 1) hd.2 hwidth, testBit_of_lt he.1 (n := 1) he.2 hwidth]
  | unsigned => rw [testBit_of_lt hd.1 hd.2 hwidth, testBit_of_lt he.1 he.2 hwidth]
  | signed w =>
    obtain ⟨rfl, hpos⟩ := hsuits
    have hsign := hbits (w - 1) (by omega)
    rw [testBit_of_signed_range hd.1 hd.2 le_rfl, testBit_of_signed_range he.1 he.2 le_rfl] at hsign
    rw [testBit_of_signed_range hd.1 hd.2 (by omega), testBit_of_signed_range he.1 he.2 (by omega), hsign]

theorem asInt?_hold (hd : kind.Range width d) : (kind.hold d).asInt? = some d := by
  cases kind with
  | bool =>
    obtain ⟨h0, h2⟩ := hd
    obtain rfl | rfl : d = 0 ∨ d = 1 := by omega
    · rfl
    · rfl
  | unsigned => rfl
  | signed w => rfl

end Leaf

/-! ### Scans -/

/-- **What is read at a bit**: a value and the bit after it; nothing if bits are missing. -/
abbrev BitScan (α : Type) := Nat → Option (α × Nat)

/-- Reads and changes what was read. -/
def scanMap {α β : Type} (f : α → β) (s : BitScan α) : BitScan β := fun i => (s i).map fun r => (f r.1, r.2)

/-- **Reads one after the other.** -/
def scanAll {α : Type} : List (BitScan α) → BitScan (List α)
  | [], i => some ([], i)
  | s :: r, i => (s i).bind fun a => (scanAll r a.2).map fun as => (a.1 :: as.1, as.2)

namespace Source

def leaf (src : Source) (kind : Leaf) (width : Nat) : BitScan Value := fun i =>
  if i + width ≤ src.limit then some (kind.hold (kind.ofNumber (src.number i width)), i + width) else none

/-- Reads an announcement in front of something extensible, and passes over what was announced beyond it. -/
def framed (src : Source) (ext : Bool) (target : Nat → Nat → Nat) (body : BitScan Value) : BitScan Value := fun i =>
  if ext then
    if i + aheadBits ≤ src.limit then
      (body (i + aheadBits)).map fun r => (r.1, max r.2 (target i (src.number i aheadBits)))
    else none
  else body i

end Source

end Wire

/-- The elements of an array put together.  Bytes in a row are kept together. -/
def Ty.gather : Ty → List Value → Value
  | .byte _, vs => .bytes (vs.map fun v => UInt8.ofNat (v.asInt?.getD 0).toNat).toArray
  | _, vs => .list vs.toArray

namespace Ty

variable {element : Ty} {x y : Value} {vs done rest : List Value}

theorem size_gather (element : Ty) (vs : List Value) : (element.gather vs).size = vs.length := by
  cases element <;> simp [gather, Value.size]

/-- **An element of what was put together.** -/
theorem element_gather (hx : element.Admits x) {k : Nat} (hk : vs[k]? = some x) :
    (element.gather vs).element k = .ok x := by
  cases element with
  | byte o =>
    obtain ⟨n, rfl, h0, h256⟩ := hx
    have hmod : n.toNat % 256 = n.toNat := Nat.mod_eq_of_lt (by omega)
    simp [gather, Value.element, hk, Value.asInt?, hmod, h0]
  | _ => simp [gather, Value.element, hk]

theorem item?_gather (hx : element.Admits x) {k : Nat} (hk : vs[k]? = some x) :
    (element.gather vs).item? k = some x := by
  rw [Value.item?, element_gather hx hk]
  rfl

/-- **An element is replaced** among others. -/
theorem setElement_gather (hx : element.Admits x) :
    (element.gather (done ++ y :: rest)).setElement done.length x = .ok (element.gather (done ++ x :: rest)) := by
  cases element with
  | byte o =>
    obtain ⟨n, rfl, h0, h256⟩ := hx
    have hbyte : (Value.int n).toByte = .ok (UInt8.ofNat n.toNat) := by simp [Value.toByte, Value.asInt?, h0, h256]
    simp [gather, Value.setElement, hbyte, bind, Except.bind, pure, Except.pure, Value.asInt?,
      Array.setIfInBounds]
  | _ => simp [gather, Value.setElement, Array.setIfInBounds]

/-- The initial value of a type can be put where values of the type are. -/
theorem admits_initialBy (title : Def → String) (t : Ty) : t.Admits (t.initialBy title) := by
  cases t with
  | byte o => exact ⟨0, rfl, le_rfl, by norm_num⟩
  | _ => trivial

theorem initialBy_array (title : Def → String) (o : Origin) (element : Ty) (cap : Nat) (ext : Bool) :
    (Ty.array o element cap ext).initialBy title = element.gather (List.replicate cap (element.initialBy title)) := by
  cases element <;> simp [initialBy, gather, Value.asInt?]

end Ty

variable {kind : Leaf} {width : Nat}

section

variable (title : Def → String) (src : Source)

mutual

/-- **Reads a value of a type.** -/
def Ty.scan : Ty → BitScan Value
  | .unknown _ _ => fun _ => none
  | .bool _ => src.leaf .bool 1
  | .byte _ => src.leaf .unsigned 8
  | .uint _ cap => src.leaf .unsigned cap
  | .int _ cap => src.leaf (.signed cap) cap
  | .array _ element cap ext =>
    src.framed ext (fun start ahead => start + ahead * cap)
      (scanMap element.gather (scanAll (List.replicate cap element.scan)))
  | .named d => d.scan

/-- Reads a value of a defined type. -/
def Def.scan : Def → BitScan Value
  | .typeAlias _ target => target.scan
  | .enum _ _ cap _ => src.leaf .unsigned cap
  | .message h ext ms =>
    src.framed ext (fun start ahead => start + ahead)
      (scanMap (.record (title (.message h ext ms))) (scanAll ((byNumber (fieldScans ms)).map (·.2))))
  | _ => fun _ => none

/-- How the fields among members are read, with their numbers. -/
def fieldScans : List (String × Def) → List (Nat × BitScan (Slot × Value))
  | [] => []
  | (_, d) :: r => d.fieldScan ++ fieldScans r

def Def.fieldScan : Def → List (Nat × BitScan (Slot × Value))
  | .field h ty number => [(number, scanMap (⟨number, h.name, ty.access⟩, ·) ty.scan)]
  | _ => []

end

def Field.scan (f : Field) : BitScan (Slot × Value) := scanMap (f.slot, ·) (f.ty.scan title src)

theorem fieldScans_eq (ms : Members) :
    fieldScans title src ms = (fieldsOf ms).map fun f => (f.number, f.scan title src) := by
  induction ms with
  | nil => rfl
  | cons m ms ih =>
    obtain ⟨n, d⟩ := m
    rw [fieldScans, fieldsOf_cons, map_append, ih]
    cases d <;> rfl

theorem scan_message (h : Header) (ext : Bool) (ms : Members) :
    (Def.message h ext ms).scan title src
      = src.framed ext (fun start ahead => start + ahead)
        (scanMap (.record (title (.message h ext ms))) (scanAll ((orderedFields ms).map fun f =>
          f.scan title src))) := by
  rw [Def.scan, fieldScans_eq, byNumber_map_fieldsOf, map_map]
  rfl

theorem Ty.scan_leaf {t : Ty} (ht : t.leaf? = some (kind, width)) :
    t.scan title src = src.leaf kind width := by
  cases t with
  | named d =>
    cases d with
    | enum h o cap ms => cases ht; rfl
    | _ => simp [Ty.leaf?] at ht
  | unknown o missing => simp [Ty.leaf?] at ht
  | array o element cap ext => simp [Ty.leaf?] at ht
  | _ => cases ht; rfl

end

/-! ### What was read -/

variable {src : Source} {i j : Nat}
variable {ext : Bool}

/-- **What is read inside a frame.** -/
theorem Wire.Source.framed_eq_some {target : Nat → Nat → Nat} {body : BitScan Value} {v : Value}
    (h : src.framed ext target body i = some (v, j)) :
    (ext = false ∧ body i = some (v, j)) ∨ (ext = true ∧ i + aheadBits ≤ src.limit ∧
      ∃ k, body (i + aheadBits) = some (v, k) ∧ j = max k (target i (src.number i aheadBits))) := by
  unfold framed at h
  cases ext with
  | false => exact .inl ⟨rfl, h⟩
  | true =>
    rw [if_pos rfl] at h
    split at h
    · next hlimit =>
      obtain ⟨⟨w, k⟩, hbody, heq⟩ := Option.map_eq_some_iff.1 h
      obtain ⟨rfl, rfl⟩ := Prod.mk.inj heq
      exact .inr ⟨rfl, hlimit, k, hbody, rfl⟩
    · cases h

theorem Wire.scanMap_eq_some {α β : Type} {f : α → β} {s : BitScan α} {b : β} (h : scanMap f s i = some (b, j)) :
    ∃ a, s i = some (a, j) ∧ b = f a := by
  obtain ⟨⟨a, k⟩, ha, heq⟩ := Option.map_eq_some_iff.1 h
  obtain ⟨rfl, rfl⟩ := Prod.mk.inj heq
  exact ⟨a, ha, rfl⟩

theorem Wire.scanAll_cons_eq_some {α : Type} {s : BitScan α} {ss : List (BitScan α)} {as : List α}
    (h : scanAll (s :: ss) i = some (as, j)) :
    ∃ a k rest, s i = some (a, k) ∧ scanAll ss k = some (rest, j) ∧ as = a :: rest := by
  rw [scanAll] at h
  obtain ⟨⟨a, k⟩, hs, hrest⟩ := Option.bind_eq_some_iff.1 h
  obtain ⟨⟨rest, j'⟩, hss, heq⟩ := Option.map_eq_some_iff.1 hrest
  obtain ⟨rfl, rfl⟩ := Prod.mk.inj heq
  exact ⟨a, k, rest, hs, hss, rfl⟩

/-- Everything that is read one after the other is read somewhere. -/
theorem Wire.forall_of_scanAll {α : Type} {ss : List (BitScan α)} {as : List α}
    (h : scanAll ss i = some (as, j)) : List.Forall₂ (fun s a => ∃ i j, s i = some (a, j)) ss as := by
  induction ss generalizing i as with
  | nil =>
    obtain ⟨rfl, -⟩ := Prod.mk.inj (Option.some.inj h)
    exact .nil
  | cons s ss ih =>
    obtain ⟨a, k, rest, ha, hrest, rfl⟩ := scanAll_cons_eq_some h
    exact .cons ⟨i, k, ha⟩ (ih hrest)

theorem Wire.exists_of_scanAll {α : Type} {ss : List (BitScan α)} {as : List α} {a : α}
    (h : scanAll ss i = some (as, j)) (ha : a ∈ as) : ∃ s ∈ ss, ∃ i j, s i = some (a, j) := by
  have hall := forall_of_scanAll h
  obtain ⟨k, rfl⟩ := List.mem_iff_get.1 ha
  have hk : k < ss.length := hall.length_eq.symm ▸ k.2
  exact ⟨ss.get ⟨k, hk⟩, List.get_mem .., hall.get hk k.2⟩

theorem slots_of_scanAll {title : Def → String} {fs : List Field} {slots : List (Slot × Value)}
    (h : scanAll (fs.map fun f => f.scan title src) i = some (slots, j)) : slots.map (·.1) = fs.map Field.slot := by
  induction fs generalizing slots i with
  | nil =>
    obtain ⟨rfl, -⟩ := Prod.mk.inj (Option.some.inj h)
    rfl
  | cons f fs ih =>
    obtain ⟨s, k, rest, hs, hrest, rfl⟩ := scanAll_cons_eq_some h
    obtain ⟨v, -, rfl⟩ := scanMap_eq_some hs
    rw [map_cons, map_cons, ih hrest]

/-- What has a frame is read somewhere. -/
theorem Wire.Source.exists_of_framed {target : Nat → Nat → Nat} {body : BitScan Value} {v : Value}
    (h : src.framed ext target body i = some (v, j)) : ∃ i' j', body i' = some (v, j') := by
  rcases Source.framed_eq_some h with ⟨-, hread⟩ | ⟨-, -, k, hread, -⟩
  · exact ⟨_, _, hread⟩
  · exact ⟨_, _, hread⟩

variable {h : Header}

/-- **A message is read as a record of its fields.** -/
theorem slots_of_scan {title : Def → String} {ms : Members} {v : Value}
    (hscan : (Def.message h ext ms).scan title src i = some (v, j)) :
    ∃ slots, v = .record (title (.message h ext ms)) slots ∧ slots.map (·.1) = (orderedFields ms).map Field.slot := by
  rw [scan_message] at hscan
  obtain ⟨i', j', hread⟩ := Source.exists_of_framed hscan
  obtain ⟨slots, hall, rfl⟩ := scanMap_eq_some hread
  exact ⟨slots, rfl, slots_of_scanAll hall⟩

/-! ### Bits that are given -/

namespace Wire

variable {α β : Type} {src : Source} {i : Nat}

/-- **A leaf is read where its bits are given.** -/
theorem Source.Gives.leaf_eq (h : src.Gives i (intBits d 0 width))
    (hsuits : kind.Suits width) (hd : kind.Range width d) : src.leaf kind width i = some (kind.hold d, i + width) := by
  have hnumber : kind.ofNumber (src.number i width) = d := by
    have hlt := src.number_lt i width
    refine (Leaf.range_ofNumber hsuits hlt).eq_of_testBit hsuits hd fun k hk => ?_
    rw [Leaf.testBit_ofNumber hsuits hlt hk, src.testBit_number, h.2 k (by simpa using hk), getElem?_intBits,
      Nat.zero_add]
    simp [hk]
  have hlimit := h.1
  rw [length_intBits] at hlimit
  rw [leaf, if_pos hlimit, hnumber]

/-- **Any bits are those of a number within the bounds of a leaf.** -/
theorem Leaf.exists_intBits_eq {bits : List Bool} (hsuits : kind.Suits width)
    (hbits : bits.length = width) : ∃ d, kind.Range width d ∧ intBits d 0 width = bits := by
  let src : Source := ⟨fun k => bits[k]?.getD false, width⟩
  have hlt := src.number_lt 0 width
  refine ⟨kind.ofNumber (src.number 0 width), range_ofNumber hsuits hlt, ?_⟩
  refine ext_getElem (by rw [length_intBits, hbits]) fun k hk _ => ?_
  rw [length_intBits] at hk
  have hbit : (kind.ofNumber (src.number 0 width)).testBit k = bits[k]?.getD false := by
    rw [testBit_ofNumber hsuits hlt hk, src.testBit_number, Nat.zero_add]
    simp [hk, src]
  simpa [intBits, hbits, hk] using hbit

/-- **Values are read one after the other** where their bits are given one after the other. -/
theorem Source.Gives.scanAll_eq {ss : List (BitScan α)} {pieces : List (α × List Bool)}
    (hpieces : List.Forall₂ (fun s p => ∀ i, src.Gives i p.2 → s i = some (p.1, i + p.2.length)) ss pieces)
    (h : src.Gives i (pieces.flatMap (·.2))) :
    scanAll ss i = some (pieces.map (·.1), i + (pieces.flatMap (·.2)).length) := by
  induction hpieces generalizing i with
  | nil => rfl
  | @cons s p ss pieces hs _ ih =>
    rw [flatMap_cons, gives_append] at h
    rw [scanAll, hs i h.1, Option.bind_some, ih h.2, flatMap_cons, length_append, map_cons, Nat.add_assoc]
    rfl

/-- **Bits are cut into pieces** of given lengths, each of which is the form of something. -/
theorem exists_pieces (R : β → α → List Bool → Prop) (width : β → Nat) {l : List β}
    (h : ∀ b ∈ l, ∀ bits : List Bool, bits.length = width b → ∃ a, R b a bits) (bits : List Bool)
    (hbits : bits.length = (l.map width).sum) :
    ∃ pieces : List (α × List Bool), List.Forall₂ (fun b p => R b p.1 p.2) l pieces ∧ pieces.flatMap (·.2) = bits := by
  induction l generalizing bits with
  | nil => exact ⟨[], .nil, (eq_nil_of_length_eq_zero hbits).symm⟩
  | cons b l ih =>
    rw [map_cons, sum_cons] at hbits
    obtain ⟨a, ha⟩ := h b (mem_cons_self ..) (bits.take (width b)) (by rw [length_take]; omega)
    obtain ⟨pieces, hpieces, hrest⟩ := ih (fun b' hb' => h b' (mem_cons_of_mem _ hb'))
      (bits.drop (width b)) (by rw [length_drop]; omega)
    refine ⟨(a, bits.take (width b)) :: pieces, .cons ha hpieces, ?_⟩
    rw [flatMap_cons, hrest, take_append_drop]

theorem flatMap_of_forall₂ {g : β → List Bool} {l : List β} {pieces : List (α × List Bool)}
    (h : List.Forall₂ (fun b p => g b = p.2) l pieces) : l.flatMap g = pieces.flatMap (·.2) := by
  induction h with
  | nil => rfl
  | cons hb _ ih => rw [flatMap_cons, flatMap_cons, hb, ih]

end Wire

variable {o : Origin} {element : Ty}

theorem Ty.wireBits_gather {vs : List Value} (hvs : ∀ x ∈ vs, element.Admits x) :
    (Ty.array o element vs.length false).wireBits (element.gather vs) = vs.flatMap element.wireBits := by
  rw [Ty.wireBits, if_neg Bool.false_ne_true, nil_append]
  have hitems : (List.range vs.length).map (fun k => element.wireBits (((element.gather vs).item? k).getD (.int 0)))
      = vs.map element.wireBits := by
    refine ext_getElem (by simp) fun k hk _ => ?_
    rw [length_map, length_range] at hk
    simp [item?_gather (hvs _ (getElem_mem hk)) (getElem?_eq_getElem hk)]
  rw [flatMap_def, hitems, ← flatMap_def]

/-! ### Values and the bits that they are read from -/

/-- **Bits from which a value is read**, wherever they are given. -/
def Ty.ScansTo (title : Def → String) (t : Ty) (v : Value) (bits : List Bool) : Prop :=
  ∀ src i, src.Gives i bits → t.scan title src i = some (v, i + bits.length)

section

variable {title : Def → String}
variable {t : Ty} {kind : Leaf} {width : Nat} {ms : Members} {bits : List Bool}

theorem Ty.LeafOf.scansTo (ht : t.LeafOf kind width) (hd : kind.Range width d) :
    t.ScansTo title (kind.hold d) (intBits d 0 width) := by
  intro src i hgives
  rw [Ty.scan_leaf title src ht.leaf_eq, hgives.leaf_eq ht.suits hd, length_intBits]

theorem Ty.LeafOf.admits_hold (ht : t.LeafOf kind width) (hd : kind.Range width d) :
    t.Admits (kind.hold d) := by
  refine ht.admits ?_
  cases kind with
  | bool => exact ⟨_, rfl⟩
  | unsigned => exact ⟨d, rfl, hd⟩
  | signed w => exact ⟨d, rfl⟩

/-- **An array is read** from the bits of its elements, one after the other. -/
theorem scansTo_array {pieces : List (Value × List Bool)}
    (h : ∀ p ∈ pieces, element.ScansTo title p.1 p.2) :
    (Ty.array o element pieces.length false).ScansTo title (element.gather (pieces.map (·.1)))
      (pieces.flatMap (·.2)) := by
  intro src i hgives
  have hscans : List.Forall₂ (fun s p => ∀ i, src.Gives i p.2 → s i = some (p.1, i + p.2.length))
      (List.replicate pieces.length (element.scan title src)) pieces := by
    rw [← map_const', List.forall₂_map_left_iff, List.forall₂_same]
    exact fun p hp => h p hp src
  rw [Ty.scan, Source.framed, if_neg Bool.false_ne_true, scanMap, hgives.scanAll_eq hscans]
  rfl

/-- **A record is read** from the bits of its fields, one after the other.  In front of them may stand an announcement
of no more bits than there are. -/
theorem scansTo_message (size : Nat) {pieces : List ((Slot × Value) × List Bool)}
    (hpieces : List.Forall₂ (fun f p => p.1.1 = f.slot ∧ f.ty.ScansTo title p.1.2 p.2) (orderedFields ms) pieces)
    (hsize : ext = true → size < 65536 ∧ size ≤ aheadBits + (pieces.flatMap (·.2)).length) :
    (Ty.named (.message h ext ms)).ScansTo title (.record (title (.message h ext ms)) (pieces.map (·.1)))
      ((if ext then intBits size 0 16 else []) ++ pieces.flatMap (·.2)) := by
  intro src i hgives
  have hscans : List.Forall₂ (fun s p => ∀ i, src.Gives i p.2 → s i = some (p.1, i + p.2.length))
      ((orderedFields ms).map fun f => f.scan title src) pieces := by
    rw [List.forall₂_map_left_iff]
    refine hpieces.imp fun f p hp i hgives => ?_
    rw [Field.scan, scanMap, hp.2 src i hgives, ← hp.1]
    rfl
  rw [Ty.scan, scan_message, Source.framed]
  cases ext with
  | false =>
    rw [if_neg Bool.false_ne_true, nil_append] at hgives
    rw [if_neg Bool.false_ne_true, if_neg Bool.false_ne_true, nil_append, scanMap, hgives.scanAll_eq hscans]
    rfl
  | true =>
    obtain ⟨hhead, hbody⟩ := Source.gives_append.1 hgives
    obtain ⟨hsmall, hle⟩ := hsize rfl
    rw [if_pos rfl] at hhead hbody
    rw [length_intBits] at hbody
    have hlimit : i + aheadBits ≤ src.limit := by
      have hroom := hhead.1
      rw [length_intBits] at hroom
      exact hroom
    have hnumber : src.number i aheadBits = size := hhead.number_eq hsmall
    have hfields := hbody.scanAll_eq hscans
    rw [if_pos rfl, if_pos hlimit, scanMap, hnumber, if_pos rfl, length_append, length_intBits]
    show Option.map _ ((scanAll _ (i + 16)).map _) = _
    rw [hfields]
    have hend : max (i + 16 + (pieces.flatMap (·.2)).length) (i + size)
        = i + (16 + (pieces.flatMap (·.2)).length) := by
      have hle : size ≤ 16 + (pieces.flatMap (·.2)).length := hle
      omega
    rw [Option.map_some, Option.map_some, hend]

theorem part?_of_pieces {pieces : List ((Slot × Value) × List Bool)} (name : String) (hnumbered : Numbered ms)
    (hpieces : List.Forall₂ (fun f p => p.1.1 = f.slot) (orderedFields ms) pieces) :
    (pieces.map (·.1)).map (·.1) = (orderedFields ms).map Field.slot ∧
      List.Forall₂ (fun f p => (Value.record name (pieces.map (·.1))).part? f.number = some p.1.2)
        (orderedFields ms) pieces := by
  have hslots : (pieces.map (·.1)).map (·.1) = (orderedFields ms).map Field.slot := by
    rw [map_map, ← List.forall₂_eq_eq_eq, List.forall₂_map_left_iff, List.forall₂_map_right_iff]
    exact hpieces.flip
  refine ⟨hslots, List.forall₂_iff_zip.2 ⟨hpieces.length_eq, fun {f p} hfp => ?_⟩⟩
  have hslot := (List.forall₂_iff_zip.1 hpieces).2 hfp
  obtain ⟨hf, hp⟩ := of_mem_zip hfp
  refine part?_of_mem _ hslots hnumbered (mem_orderedFields.1 hf) ?_
  rw [← hslot]
  exact mem_map_of_mem hp

/-! ### Types without extensibility -/

/-- **The value that bits stand for**: it has these bits, and wherever they are given it is read. -/
structure Ty.Reads (title : Def → String) (t : Ty) (v : Value) (bits : List Bool) : Prop where
  holds : t.Holds Leaf.Range v
  admits : t.Admits v
  wireBits_eq : t.wireBits v = bits
  scan_eq : t.ScansTo title v bits

theorem Ty.LeafOf.exists_reads (ht : t.LeafOf kind width) (hbits : bits.length = t.nbits) :
    ∃ v, t.Reads title v bits := by
  rw [ht.nbits_eq] at hbits
  obtain ⟨d, hd, rfl⟩ := Leaf.exists_intBits_eq ht.suits hbits
  have hint := Leaf.asInt?_hold hd
  refine ⟨kind.hold d, (ht.holds_iff _ _).2 ⟨d, hint, hd⟩, ht.admits_hold hd, ?_, ht.scansTo hd⟩
  rw [ht.wireBits_eq, Value.lowBits, hint, Option.getD_some]

theorem exists_reads_array {cap : Nat}
    (ih : ∀ bits : List Bool, bits.length = element.nbits → ∃ v, element.Reads title v bits)
    (hbits : bits.length = cap * element.nbits) : ∃ v, (Ty.array o element cap false).Reads title v bits := by
  have hsum : bits.length = ((List.replicate cap element).map Ty.nbits).sum := by simp [hbits]
  obtain ⟨pieces, hpieces, rfl⟩ := exists_pieces (fun t v bits => t.Reads title v bits) Ty.nbits
    (fun t ht bits hlength => by
      obtain rfl := eq_of_mem_replicate ht
      exact ih bits hlength) _ hsum
  obtain rfl : pieces.length = cap := by rw [← hpieces.length_eq, length_replicate]
  have hreads (p : Value × List Bool) (hp : p ∈ pieces) : element.Reads title p.1 p.2 := by
    obtain ⟨k, hk, rfl⟩ := getElem_of_mem hp
    have hat := hpieces.get (by rw [hpieces.length_eq]; exact hk) hk
    simpa using hat
  have hadmits (x : Value) (hx : x ∈ pieces.map (·.1)) : element.Admits x := by
    obtain ⟨p, hp, rfl⟩ := mem_map.1 hx
    exact (hreads p hp).admits
  have hlength : (pieces.map (·.1)).length = pieces.length := length_map _
  refine ⟨element.gather (pieces.map (·.1)), ⟨?_, fun k hk => ?_⟩, trivial, ?_,
    scansTo_array fun p hp => (hreads p hp).scan_eq⟩
  · rw [Ty.size_gather, hlength]
  · rw [← hlength] at hk
    have hmem := getElem_mem hk
    obtain ⟨p, hp, hpx⟩ := mem_map.1 hmem
    exact ⟨_, Ty.item?_gather (hadmits _ hmem) (getElem?_eq_getElem hk), hpx ▸ (hreads p hp).holds⟩
  · rw [← hlength, Ty.wireBits_gather hadmits, flatMap_map]
    exact flatMap_congr fun p hp => (hreads p hp).wireBits_eq

theorem exists_reads_message (hnumbered : Numbered ms)
    (ih : ∀ f ∈ fieldsOf ms, ∀ bits : List Bool, bits.length = f.ty.nbits → ∃ v, f.ty.Reads title v bits)
    (hbits : bits.length = (Def.message h false ms).nbits) :
    ∃ v, (Ty.named (.message h false ms)).Reads title v bits := by
  rw [Def.nbits, if_neg Bool.false_ne_true, Nat.zero_add, fieldBits_eq_ordered] at hbits
  obtain ⟨pieces, hpieces, rfl⟩ := exists_pieces
    (fun (f : Field) (s : Slot × Value) bits => s.1 = f.slot ∧ f.ty.Reads title s.2 bits) (fun f => f.ty.nbits)
    (fun f hf bits hlength => by
      obtain ⟨v, hv⟩ := ih f (mem_orderedFields.1 hf) bits hlength
      exact ⟨(f.slot, v), rfl, hv⟩) _ hbits
  obtain ⟨hslots, hparts⟩ := part?_of_pieces (title (.message h false ms)) hnumbered (hpieces.imp fun f p hp => hp.1)
  refine ⟨.record (title (.message h false ms)) (pieces.map (·.1)),
    holds_message.2 ⟨isRecordOf_of_slots _ hslots, fun f hf => ?_⟩, trivial, ?_, ?_⟩
  · obtain ⟨k, hk, rfl⟩ := getElem_of_mem (mem_orderedFields.2 hf)
    have hk' : k < pieces.length := by rw [← hpieces.length_eq]; exact hk
    exact ⟨_, hparts.get hk hk', (hpieces.get hk hk').2.holds⟩
  · rw [Ty.wireBits, wireBits_message, if_neg Bool.false_ne_true, nil_append]
    refine flatMap_of_forall₂ (List.forall₂_iff_zip.2 ⟨hpieces.length_eq, fun {f p} hfp => ?_⟩)
    have hpart := (List.forall₂_iff_zip.1 hparts).2 hfp
    rw [Field.wireBits, hpart, Option.getD_some, ((List.forall₂_iff_zip.1 hpieces).2 hfp).2.wireBits_eq]
  · exact scansTo_message 0 (hpieces.imp fun f p hp => ⟨hp.1, hp.2.scan_eq⟩) fun hext => absurd hext Bool.false_ne_true

/-- **Any bits are those of a value within bounds**, if the type is traditional: there are no bits that such a type
refuses, and none that it does not read. -/
theorem Ty.WellFormed.exists_reads (hwf : t.WellFormed) (ht : t.Traditional) (hbits : bits.length = t.nbits) :
    ∃ v, t.Reads title v bits := by
  induction t, hwf using Ty.WellFormed.induction generalizing bits with
  | leaf t kind width hwf hleaf => exact hleaf.exists_reads hbits
  | typeAlias h target hwf ih =>
    obtain ⟨v, hv⟩ := ih ht hbits
    exact ⟨v, hv.holds, trivial, hv.wireBits_eq, hv.scan_eq⟩
  | array o element cap ext hwf ih =>
    obtain ⟨rfl, helement⟩ := ht
    refine exists_reads_array (fun bits hlength => ih helement hlength) ?_
    rw [hbits, Ty.nbits, if_neg Bool.false_ne_true, Nat.zero_add]
  | message h ext ms hwf ih =>
    obtain ⟨rfl, hfields⟩ := ht
    exact exists_reads_message hwf.2.numbered
      (fun f hf bits hlength => ih f hf (fieldsTraditional_iff.1 hfields f hf) hlength) hbits

end

end BitSchema
