import BitSchema.Proofs.Scanning
import BitSchema.Proofs.WireFormat

/-!
# Any bytes can be unpacked

If nothing inside a message is extensible, its objects and the bits on the wire are the same thing: any bytes, if there
are enough of them, are unpacked into an object with leaves within bounds, and packing the object gives the bits back
(`encode_decode`).
-/

namespace BitSchema

open Wire Loading

/-- **What is read has nothing but fields.** -/
theorem Ty.WellFormed.plain_of_scan {title : Def → String} {src : Source} {t : Ty} {v : Value} {i j : Nat}
    (hwf : t.WellFormed) (h : t.scan title src i = some (v, j)) : v.Plain := by
  induction t, hwf using Ty.WellFormed.induction generalizing v i j with
  | leaf t kind width hwf ht =>
    rw [Ty.scan_leaf title src ht.leaf_eq, Source.leaf] at h
    split at h <;> cases h
    cases kind <;> rfl
  | typeAlias hd target hwf ih => exact ih h
  | array o element cap ext hwf ih =>
    obtain ⟨i', j', h⟩ := Source.exists_of_framed h
    obtain ⟨vs, hvs, rfl⟩ := scanMap_eq_some h
    refine Ty.all_gather fun v hv => ?_
    obtain ⟨s, hs, i, j, hv⟩ := exists_of_scanAll hvs hv
    rw [List.eq_of_mem_replicate hs] at hv
    exact ih hv
  | message hd ext ms hwf ih =>
    obtain ⟨slots, rfl, hslots⟩ := slots_of_scan h
    rw [Ty.scan, scan_message] at h
    obtain ⟨i', j', h⟩ := Source.exists_of_framed h
    obtain ⟨slots', hall, heq⟩ := scanMap_eq_some h
    obtain ⟨-, rfl⟩ := Value.record.inj heq
    rw [Value.Plain, Value.all_record, Bool.and_eq_true, List.all_eq_true, List.all_eq_true]
    refine ⟨fun s hs => ?_, fun e he => ?_⟩
    · obtain ⟨f, hf, hslot⟩ : ∃ f ∈ orderedFields ms, f.slot = s.1 :=
        List.mem_map.1 (hslots ▸ List.mem_map_of_mem hs)
      have hpos := hwf.2.numbered.pos f (mem_orderedFields.1 hf)
      rw [← hslot]
      simpa [Slot.isField, Field.slot] using hpos.ne'
    · obtain ⟨s, hs, i, j, he⟩ := exists_of_scanAll hall he
      obtain ⟨f, hf, rfl⟩ := List.mem_map.1 hs
      obtain ⟨x, hx, rfl⟩ := scanMap_eq_some he
      exact ih f (mem_orderedFields.1 hf) hx

/-- The first `n` bits of a buffer. -/
def Wire.firstBits (bytes : Array UInt8) (n : Nat) : List Bool := (List.range n).map (bitAt bytes)

@[simp] theorem Wire.length_firstBits (bytes : Array UInt8) (n : Nat) : (firstBits bytes n).length = n := by
  simp [firstBits]

theorem Wire.getElem?_firstBits (bytes : Array UInt8) (n k : Nat) :
    (firstBits bytes n)[k]?.getD false = (decide (k < n) && bitAt bytes k) := by
  unfold firstBits
  by_cases hk : k < n <;> simp [hk]

/-- **Any bytes are unpacked** into a new record of a message inside which nothing is extensible, and the record has
the bits that were unpacked. -/
theorem Def.WellFormed.unpack_traditional {title : Def → String} {h : Header} {ext : Bool} {ms : Members}
    {name : String} {slots₀ : List (Slot × Value)} {bits : List Bool} (hwf : (Def.message h ext ms).WellFormed)
    (ht : (Def.message h ext ms).Traditional) (hnew : (Def.message h ext ms).initialBy title = .record name slots₀)
    (hbits : bits.length = (Def.message h ext ms).nbits) :
    ∃ slots, (Def.message h ext ms).InRange (.record name slots) ∧ (Value.record name slots).Plain ∧
      (Def.message h ext ms).wireBits (.record name slots) = bits ∧
      ∀ bytes : Array UInt8, (Def.message h ext ms).nbits ≤ 8 * bytes.size →
        (∀ k < bits.length, bitAt bytes k = bits[k]?.getD false) →
        (Def.message h ext ms).scan title (.ofBytes bytes) 0 = some (.record name slots, (Def.message h ext ms).nbits) ∧
        Wire.unpack (Def.message h ext ms).processor bytes name slots₀ = (.ok (), slots) := by
  obtain ⟨v, hv⟩ : ∃ v, (Ty.named (.message h ext ms)).Reads title v bits :=
    Ty.WellFormed.exists_reads (t := .named (.message h ext ms)) ⟨rfl, hwf⟩ ht hbits
  -- the bits themselves are a source that gives them
  let own : Source := ⟨fun k => bits[k]?.getD false, bits.length⟩
  have hown : own.Gives 0 bits := ⟨by rw [Nat.zero_add], fun k _ => by rw [Nat.zero_add]⟩
  obtain ⟨slots, rfl, -⟩ := slots_of_scan (hv.scan_eq own 0 hown)
  rw [initialBy_message] at hnew
  cases hnew
  refine ⟨slots, hv.holds, ?_, hv.wireBits_eq, fun bytes hsize hgiven => ?_⟩
  · exact Ty.WellFormed.plain_of_scan (t := .named (.message h ext ms)) ⟨rfl, hwf⟩ (hv.scan_eq own 0 hown)
  · have hlimit := hwf.nbits_le
    have hgives := Source.gives_ofBytes (by rw [hbits]; exact hsize) (by omega) hgiven
    have hscan := hv.scan_eq _ 0 hgives
    rw [Nat.zero_add, hbits] at hscan
    obtain ⟨slots', heq, hunpack⟩ := hwf.unpack_eq (initialBy_message title h ext ms) hscan
    cases heq
    exact ⟨hscan, hunpack⟩

theorem Def.WellFormed.exists_scan {title : Def → String} {h : Header} {ext : Bool} {ms : Members} {name : String}
    {slots₀ : List (Slot × Value)} (hwf : (Def.message h ext ms).WellFormed) (ht : (Def.message h ext ms).Traditional)
    (hnew : (Def.message h ext ms).initialBy title = .record name slots₀) {bytes : Array UInt8}
    (hroom : (Def.message h ext ms).nbits ≤ 8 * bytes.size) :
    ∃ slots, (Def.message h ext ms).scan title (.ofBytes bytes) 0 =
      some (.record name slots, (Def.message h ext ms).nbits) ∧
      Wire.unpack (Def.message h ext ms).processor bytes name slots₀ = (.ok (), slots) := by
  obtain ⟨slots, -, -, -, hunpack⟩ := hwf.unpack_traditional ht hnew (length_firstBits bytes _)
  refine ⟨slots, hunpack bytes hroom fun k hk => ?_⟩
  rw [length_firstBits] at hk
  rw [getElem?_firstBits]
  simp [hk]

namespace Sample

def entryValue (b a₀ a₁ : Int) : Value :=
  .record "Q" [(⟨1, "b", some (.leaf 0 .unsigned)⟩, .int b), (⟨2, "a", some (.leaf 1 (.signed 16))⟩,
    .list #[.int a₀, .int a₁])]

/-- An object of a message inside which nothing is extensible. -/
def tableObject (first second : Value) (z : Bool) (r : Array UInt8) : Object :=
  ⟨table, "T", [
    (⟨1, "q", some (.child 1)⟩, .list #[first, second]), (⟨2, "z", some (.leaf 0 .bool)⟩, .bool z),
    (⟨3, "r", some (.leaf 1 .unsigned)⟩, .bytes r)]⟩

def newTable : Object := tableObject (entryValue 0 0 0) (entryValue 0 0 0) false #[0, 0]

theorem newTable_isNew : newTable.IsNew Def.name := by
  have hentry : entry.initialBy Def.name = entryValue 0 0 0 := by
    rw [entry, message, initialBy_message, orderedFields_eq]
    rfl
  show _ = table.initialBy Def.name
  rw [table, message, initialBy_message, orderedFields_eq]
  show _ = Value.record "T" [
    (⟨1, "q", some (.child 1)⟩, .list (Array.replicate 2 (entry.initialBy Def.name))),
    (⟨2, "z", some (.leaf 0 .bool)⟩, .bool false), (⟨3, "r", some (.leaf 1 .unsigned)⟩, .bytes #[0, 0])]
  rw [hentry]
  rfl

end Sample

end BitSchema
