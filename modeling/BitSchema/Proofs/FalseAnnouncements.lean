import BitSchema.Proofs.MisplacedParts

/-!
# Bytes that announce too much

What is announced in front of something extensible is taken from the bytes, and so is the place where unpacking goes
on behind it.  If nothing is to be read behind anything extensible (`Ty.Closing`), any bytes are unpacked, if there
are enough of them.  If something is, bytes that are all ones lead to a place where there is nothing.  One walk over a
type shows both (`Ty.WellFormed.ends`).
-/

namespace BitSchema

open Wire Loading List

/-! ### Nothing behind something extensible -/

/-- **Parts in a row**: behind one with something extensible in it there are no bits. -/
def Trailing (ts : List Ty) : Prop := ts.Pairwise fun t u => t.Traditional ∨ u.nbits = 0

mutual

/-- **Types inside which nothing is read behind something extensible.** -/
def Ty.Closing : Ty → Prop
  | .array _ element cap _ => element.Closing ∧ Trailing (List.replicate cap element)
  | .named d => d.Closing
  | _ => True

/-- Defined types inside which nothing is read behind something extensible. -/
def Def.Closing : Def → Prop
  | .typeAlias _ target => target.Closing
  | .message _ _ ms => fieldsClosing ms ∧ Trailing ((orderedFields ms).map Field.ty)
  | _ => True

/-- Inside the fields among members nothing is read behind something extensible. -/
def fieldsClosing : List (String × Def) → Prop
  | [] => True
  | (_, d) :: r => d.FieldClosing ∧ fieldsClosing r

def Def.FieldClosing : Def → Prop
  | .field _ ty _ => ty.Closing
  | _ => True

end

theorem fieldsClosing_iff {ms : Members} : fieldsClosing ms ↔ ∀ f ∈ fieldsOf ms, f.ty.Closing :=
  forall_fieldsOf_iff trivial (fun _ _ _ => .rfl) (fun d => by cases d <;> simp [Def.FieldClosing, Def.field?]) ms

theorem Ty.LeafOf.plain {t : Ty} {kind : Leaf} {width : Nat} (ht : t.LeafOf kind width) : t.Traditional ∧ t.Closing := by
  have hleaf := ht.leaf_eq
  cases t with
  | array o element cap ext => cases hleaf
  | named d =>
    cases d with
    | enum h o cap ms => exact ⟨trivial, trivial⟩
    | _ => cases hleaf
  | _ => exact ⟨trivial, trivial⟩

/-! ### What is read -/

namespace Wire.Source

/-- A source of ones, in which nothing is as far away as they announce. -/
structure Ones (src : Source) : Prop where
  number_eq : ∀ i, i + aheadBits ≤ src.limit → src.number i aheadBits = 65535
  limit_le : src.limit ≤ 65535

/-- **How reading ends** that starts at bit `i` and needs `n` bits.  If the parts are `closing`, it fails only where
there is no room.  If they are `plain`, it ends behind these bits.  Ones are read only if the parts are `closing`, and
unless they are `plain` reading ends beyond all bits. -/
def Ends {α : Type} (src : Source) (closing plain : Prop) (i n : Nat) : Option (α × Nat) → Prop
  | none => ¬(closing ∧ (n = 0 ∨ i + n ≤ src.limit))
  | some (_, j) => (plain → j = i + n) ∧
    (src.Ones → closing ∧ i ≤ j ∧ (n = 0 ∨ i < src.limit) ∧ (plain ∨ src.limit ≤ j))

end Wire.Source

variable {title : Def → String} {src : Source} {ts : List Ty} {t : Ty} {i : Nat}

def sizes (ts : List Ty) : Nat := (ts.map Ty.nbits).sum

/-- How a type is read. -/
def Ty.Ends (title : Def → String) (src : Source) (t : Ty) : Prop :=
  ∀ i, src.Ends t.Closing t.Traditional i t.nbits (t.scan title src i)

/-- **Parts are read one after the other.** -/
theorem ends_scanAll (h : ∀ t ∈ ts, t.Ends title src) :
    src.Ends ((∀ t ∈ ts, t.Closing) ∧ Trailing ts) (∀ t ∈ ts, t.Traditional) i (sizes ts)
      (scanAll (ts.map fun t => t.scan title src) i) := by
  induction ts generalizing i with
  | nil => exact ⟨fun _ => rfl, fun _ => ⟨⟨by simp, .nil⟩, le_rfl, .inl rfl, .inl (by simp)⟩⟩
  | cons t ts ih =>
    obtain ⟨ht, hts⟩ := forall_mem_cons.1 h
    have hsizes : sizes (t :: ts) = t.nbits + sizes ts := rfl
    have hnone (hzero : sizes ts = 0) (u : Ty) (hu : u ∈ ts) : u.nbits = 0 :=
      sum_eq_zero_iff.1 hzero _ (mem_map_of_mem hu)
    have hfirst := ht i
    rw [Trailing, pairwise_cons, forall_mem_cons, forall_mem_cons, hsizes, map_cons, scanAll]
    cases hscan : t.scan title src i with
    | none =>
      rw [hscan] at hfirst
      rintro ⟨⟨hclosing, -⟩, hroom⟩
      exact hfirst ⟨hclosing.1, hroom.imp (by omega) (by omega)⟩
    | some r =>
      obtain ⟨v, k⟩ := r
      rw [hscan] at hfirst
      obtain ⟨hplain, hones⟩ := hfirst
      have hrest := ih hts (i := k)
      rw [Option.bind_some]
      cases hscans : scanAll (ts.map fun t => t.scan title src) k with
      | none =>
        rw [hscans] at hrest
        rintro ⟨⟨hclosing, hlast, htrailing⟩, hroom⟩
        refine hrest ⟨⟨hclosing.2, htrailing⟩, ?_⟩
        by_cases htrad : t.Traditional
        · rw [hplain htrad]
          exact hroom.imp (by omega) (by omega)
        · -- there are no bits behind something extensible
          refine .inl (sum_eq_zero fun n hn => ?_)
          obtain ⟨u, hu, rfl⟩ := mem_map.1 hn
          exact (hlast u hu).resolve_left htrad
      | some r' =>
        rw [hscans] at hrest
        obtain ⟨hplain', hones'⟩ := hrest
        refine ⟨fun hall => ?_, fun hsrc => ?_⟩
        · rw [hplain' hall.2, hplain hall.1, Nat.add_assoc]
        · obtain ⟨hclosing, hle, hstart, hends⟩ := hones hsrc
          obtain ⟨⟨hclosing', htrailing⟩, hle', hstart', hends'⟩ := hones' hsrc
          refine ⟨⟨⟨hclosing, hclosing'⟩, fun u hu => ?_, htrailing⟩, hle.trans hle', by omega, ?_⟩
          · exact hends.imp_right fun hfar => hnone (hstart'.resolve_right (by omega)) u hu
          · rcases hends with htrad | hfar
            · exact hends'.imp_left fun hall => ⟨htrad, hall⟩
            · exact .inr (hfar.trans hle')

/-- **Parts are read behind an announcement**, which leads at least as far as it says. -/
theorem ends_framed (target : Nat → Nat → Nat) (f : List Value → Value) (ext : Bool) (htarget : ∀ n, n ≤ target i n)
    (h : ∀ t ∈ ts, t.Ends title src) :
    src.Ends ((∀ t ∈ ts, t.Closing) ∧ Trailing ts) (ext = false ∧ ∀ t ∈ ts, t.Traditional) i
      ((if ext then aheadBits else 0) + sizes ts)
      (src.framed ext target (scanMap f (scanAll (ts.map fun t => t.scan title src))) i) := by
  have hahead : 0 < aheadBits := by decide
  cases ext with
  | false =>
    have hbody := ends_scanAll (i := i) h
    simp only [Source.framed, if_neg Bool.false_ne_true, scanMap, Nat.zero_add, true_and]
    cases hscans : scanAll (ts.map fun t => t.scan title src) i <;> rw [hscans] at hbody <;> exact hbody
  | true =>
    have hbody := ends_scanAll (i := i + aheadBits) h
    rw [Source.framed, if_pos rfl, if_pos rfl]
    split
    · next hlimit =>
      rw [scanMap]
      cases hscans : scanAll (ts.map fun t => t.scan title src) (i + aheadBits) with
      | none =>
        rw [hscans] at hbody
        rintro ⟨hclosing, hroom⟩
        exact hbody ⟨hclosing, .inr (by omega)⟩
      | some r =>
        rw [hscans] at hbody
        refine ⟨fun hplain => (Bool.false_ne_true hplain.1.symm).elim, fun hsrc => ?_⟩
        obtain ⟨hclosing, hle, -⟩ := hbody.2 hsrc
        -- the jump leads beyond the end
        have hfar := htarget 65535
        have hend := hsrc.limit_le
        rw [hsrc.number_eq i hlimit]
        exact ⟨hclosing, by omega, .inr (by omega), .inr (by omega)⟩
    · next hlimit =>
      rintro ⟨-, hroom⟩
      omega

/-- **How well-formed types are read.** -/
theorem Ty.WellFormed.ends (hwf : t.WellFormed) : t.Ends title src := by
  induction t, hwf using Ty.WellFormed.induction with
  | leaf t kind width hwf hleaf =>
    intro i
    have hpos := hleaf.suits.pos
    rw [Ty.scan_leaf title src hleaf.leaf_eq, Source.leaf, hleaf.nbits_eq]
    split
    · exact ⟨fun _ => rfl, fun _ => ⟨hleaf.plain.2, by omega, .inr (by omega), .inl hleaf.plain.1⟩⟩
    · rintro ⟨-, hroom⟩
      omega
  | typeAlias h target hwf ih => exact ih
  | array o element cap ext hwf ih =>
    intro i
    have hall := ends_framed (i := i) (fun start ahead => start + ahead * cap) element.gather ext
      (fun n => (Nat.le_mul_of_pos_right n hwf.1).trans (Nat.le_add_left ..))
      fun u (hu : u ∈ List.replicate cap element) => eq_of_mem_replicate hu ▸ ih
    simp only [forall_mem_replicate, hwf.1.ne', false_or, map_replicate, sizes, sum_replicate_nat] at hall
    exact hall
  | message h ext ms hwf ih =>
    intro i
    have hall := ends_framed (i := i) (· + ·) (recordOf (title (.message h ext ms)) ms) ext (fun n => Nat.le_add_left ..)
      fun u (hu : u ∈ (orderedFields ms).map Field.ty) => by
        obtain ⟨f, hf, rfl⟩ := mem_map.1 hu
        exact ih f (mem_orderedFields.1 hf)
    simp only [forall_mem_map, mem_orderedFields, ← fieldsTraditional_iff, ← fieldsClosing_iff, sizes,
      map_map] at hall
    rw [Ty.scan, scan_message_eq, Ty.nbits, Def.nbits, fieldBits_eq_ordered]
    exact hall

theorem Wire.Source.ones_replicate {n : Nat} (hn : 8 * n ≤ 65535) : (ofBytes (Array.replicate n 255)).Ones := by
  have hlimit : (ofBytes (Array.replicate n 255)).limit = 8 * n := by
    simp only [ofBytes, Array.size_replicate]
    omega
  refine ⟨fun i hi => Nat.eq_of_testBit_eq fun k => ?_, hlimit ▸ hn⟩
  rw [hlimit, show aheadBits = 16 from rfl] at hi
  rw [testBit_number, show (65535 : Nat) = 2 ^ 16 - 1 from rfl, Nat.testBit_two_pow_sub_one]
  by_cases hk : k < 16
  · have hbit : bitAt (Array.replicate n 255) (i + k) = (255 : Nat).testBit ((i + k) % 8) := by
      have hin : (i + k) / 8 < n := by omega
      simp [bitAt, hin]
    have hone : (255 : Nat).testBit ((i + k) % 8) = true := by
      rw [show (255 : Nat) = 2 ^ 8 - 1 from rfl, Nat.testBit_two_pow_sub_one]
      exact decide_eq_true (Nat.mod_lt _ (by norm_num))
    simp [ofBytes, hbit, hone, aheadBits, hk]
  · simp [hk, aheadBits]

/-! ### Objects -/

/-- **Which bytes are unpacked.**  Of an accepted message, let there be at least as many bytes as its size says.

* Unpacking them into a new object is without a fault exactly if all bits that are asked for are there.
* So it is for any bytes, if nothing inside the message is read behind something extensible.
* Otherwise it is not so for bytes that are all ones, unless the message is among the largest there are. -/
theorem unpack_any_bytes {title : Def → String} {d : Def} {new : Object} (hd : d.Accepted) (hmessage : new.message = d)
    (hnew : new.IsNew title) :
    ∃ n, d.nbytes = .ok n ∧
      (∀ bytes : Array UInt8, n ≤ bytes.size → bytes.size ≤ 2 ^ 50 →
        ((Wire.unpack d.processor bytes new.title new.slots).1 = .ok () ↔
          (d.scan title (.ofBytes bytes) 0).isSome = true)) ∧
      (d.Closing → ∀ bytes : Array UInt8, n ≤ bytes.size →
        (Wire.unpack d.processor bytes new.title new.slots).1 = .ok ()) ∧
      (¬d.Closing → 8 * n ≤ 65535 →
        (Wire.unpack d.processor (Array.replicate n 255) new.title new.slots).1 ≠ .ok ()) ∧
      (d.Decodes → ∀ bytes : Array UInt8, n ≤ bytes.size →
        (new.decode bytes).2 = (Wire.unpack d.processor bytes new.title new.slots).1) := by
  obtain ⟨hwf, h, ext, ms, rfl⟩ := hd.wellFormed
  have hinitial := hnew
  rw [Object.IsNew, hmessage] at hinitial
  have hiff (bytes : Array UInt8) (hsize : bytes.size ≤ 2 ^ 50) :
      (Wire.unpack (Def.message h ext ms).processor bytes new.title new.slots).1 = .ok () ↔
        ((Def.message h ext ms).scan title (.ofBytes bytes) 0).isSome = true := by
    constructor
    · intro hok
      obtain ⟨j, hscan⟩ := hwf.scan_of_unpack hsize hinitial.symm (Prod.ext hok rfl)
      rw [hscan]
      rfl
    · intro hsome
      obtain ⟨⟨v, j⟩, hscan⟩ := Option.isSome_iff_exists.1 hsome
      obtain ⟨slots, -, hunpack⟩ := hwf.unpack_eq hinitial.symm hscan
      rw [hunpack]
  have hends (bytes : Array UInt8) : Ty.Ends title (.ofBytes bytes) (.named (.message h ext ms)) :=
    Ty.WellFormed.ends ⟨rfl, hwf⟩
  refine ⟨_, hwf.nbytes_eq, fun bytes _ hsize => hiff bytes hsize, fun hclosing bytes hbytes => ?_,
    fun hopen hn hok => hopen ?_, fun hdecodes bytes hbytes => ?_⟩
  · cases hscan : (Def.message h ext ms).scan title (.ofBytes bytes) 0 with
    | none =>
      have hnone := hends bytes 0
      rw [Ty.scan, hscan] at hnone
      have hle := hwf.nbits_le
      exact (hnone ⟨hclosing, .inr (le_min (by rw [Ty.nbits]; omega) (by rw [Ty.nbits]; omega))⟩).elim
    | some r =>
      obtain ⟨slots, -, hunpack⟩ := hwf.unpack_eq hinitial.symm hscan
      rw [hunpack]
  · obtain ⟨⟨v, j⟩, hscan⟩ := Option.isSome_iff_exists.1 ((hiff _ (by rw [Array.size_replicate]; omega)).1 hok)
    have hsome := hends (Array.replicate (((Def.message h ext ms).nbits + 7) / 8) 255) 0
    rw [Ty.scan, hscan] at hsome
    exact (hsome.2 (Source.ones_replicate hn)).1
  · rw [hnew.decode_eq hdecodes hmessage hwf hbytes]

theorem not_arrayFirst_closing : ¬Sample.arrayFirst.Closing := by
  rintro ⟨-, htrailing⟩
  rw [orderedFields_eq] at htrailing
  rcases (pairwise_cons.1 htrailing).1 _ (mem_singleton.2 rfl) with htrad | hnone
  · exact absurd htrad.1 (by decide)
  · exact absurd hnone (by decide)

theorem unpack_any_bytes_arrayFirst : (Sample.newArrayFirst.decode (Array.replicate 4 255)).2 ≠ .ok () := by
  obtain ⟨n, hn, -, -, hones, hdecode⟩ := unpack_any_bytes (d := Sample.arrayFirst)
    Sample.arrayFirst_accepted rfl Sample.newArrayFirst_isNew
  obtain rfl : 4 = n := by
    have hfour : Sample.arrayFirst.nbytes = .ok 4 := by decide +kernel
    exact Except.ok.inj (hfour.symm.trans hn)
  rw [hdecode (.of_free (by decide +kernel) (by decide)) _ (by simp)]
  exact hones not_arrayFirst_closing (by norm_num)

end BitSchema
