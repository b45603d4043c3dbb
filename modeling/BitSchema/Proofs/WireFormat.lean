import BitSchema.Proofs.Accepted
import BitSchema.Proofs.FieldNames
import BitSchema.Proofs.Packing

/-!
# The wire format

An object of an accepted message is packed into the bits that `Def.wireBits` says, eight to a byte and the least
significant one first, in as many bytes as these take (`encode_wireBits`).

`Answers.encode_eq` and `Answers.decode_eq` say what the functions of an object do if they find all that they call.  If
a field hides one of the functions that they call, they fail (`encode_fails`, `decode_fails`).
-/

namespace BitSchema

open Wire List

/-! ### Sizes in bytes -/

/-- **The size of a well-formed message in bytes.** -/
theorem Def.WellFormed.nbytes_eq {h : Header} {ext : Bool} {ms : Members}
    (hwf : (Def.message h ext ms).WellFormed) :
    (Def.message h ext ms).nbytes = .ok (((Def.message h ext ms).nbits + 7) / 8) :=
  bytesOfBits_eq (by have := hwf.nbits_le; omega)

/-! ### Objects -/

namespace Loading.Object

variable {o : Object} {n : Nat}

variable {h : Header} {ext : Bool} {ms : Members}

variable {start leaf : String}

theorem Answers.need_eq (ho : o.Answers start leaf) {name : String} (hname : name ∈ [start, layoutName]) :
    o.need name = .ok () := by
  rw [need, ho.own name hname]

theorem Answers.needLayout_eq (ho : o.Answers start leaf) : o.needLayout = .ok () := by
  have hall (ds : List Def) (hds : ∀ d ∈ ds, hasField layoutName d = false) : forM ds askLayout = .ok () := by
    induction ds with
    | nil => rfl
    | cons d ds ih =>
      rw [forM_cons, askLayout, hds d (mem_cons_self ..)]
      exact ih fun e he => hds e (mem_cons_of_mem _ he)
  rw [needLayout, ho.need_eq (by simp)]
  exact hall _ ho.layouts

/-- **The size of an object** is that of its message, if no value takes its place. -/
theorem size_eq (hfree : Value.field? o.slots sizeName = none) (hmessage : o.message = .message h ext ms)
    (hn : o.message.nbytes = .ok n) : o.size = .ok (.int n) := by
  have hget : o.value.get [.field sizeName] = .error (.noAttribute o.title sizeName) := by
    simp [value, Value.get, Value.child, hfree, bind, Except.bind]
  have hself : o.value.get [] = .ok (.record o.title o.slots) := rfl
  have htype : (typeAlong [] (.named o.message)).map unaliased = some (.named o.message) := by
    rw [hmessage]
    rfl
  rw [size, get, hget]
  simp only [dropLast_singleton, getLast?_singleton, hself, htype, beq_self_eq_true, hn]
  rfl

/-- **A value that takes the place of the size** is the size. -/
theorem size_of_field {v : Value} (hv : Value.field? o.slots sizeName = some v) : o.size = .ok v := by
  have hget : o.value.get [.field sizeName] = .ok v := by
    simp [value, Value.get, Value.child, hv, bind, Except.bind]
  rw [size, get, hget]

theorem Answers.encode_of_size {v : Value} {buffer : Array UInt8} (ho : o.Answers "encode" takerName)
    (hsize : o.size = .ok v) (hbuffer : bufferOf v = .ok buffer) :
    o.encode = Wire.pack o.message.processor buffer o.title o.slots := by
  rw [encode, ho.need_eq (by simp), hsize, ho.needLayout_eq]
  simp only [bind, Except.bind, hbuffer, ho.calls, if_true]

/-- **What packing an object does**, if its size is a number. -/
theorem Answers.encode_eq (ho : o.Answers "encode" takerName) (hsize : o.size = .ok (.int n)) (hsmall : n ≤ maxBuffer) :
    o.encode = Wire.pack o.message.processor (Array.replicate n 0) o.title o.slots := by
  refine ho.encode_of_size hsize ?_
  have hindex : isIndex (n : Int) = true := by
    have hmax : (n : Int) ≤ 4294967296 := hsmall
    simp only [isIndex, Bool.and_eq_true, decide_eq_true_eq]
    omega
  rw [bufferOf, hindex, if_neg (by simp), if_neg (by omega), if_neg (not_lt.2 hsmall), Int.toNat_natCast]

/-- **What unpacking into an object does**, if there are enough bytes. -/
theorem Answers.decode_eq {v : Value} {bytes : Array UInt8} (ho : o.Answers "decode" adderName) (hsize : o.size = .ok v)
    (henough : areEnough bytes v = .ok true) :
    o.decode bytes = ({ o with slots := (Wire.unpack o.message.processor bytes o.title o.slots).2 },
      (Wire.unpack o.message.processor bytes o.title o.slots).1) := by
  have hcheck : o.checkBytes bytes = .ok () := by
    rw [checkBytes, ho.need_eq (by simp), hsize, ho.needLayout_eq]
    simp [bind, Except.bind, henough]
  rw [decode, hcheck]
  simp only [if_pos ho.calls]

variable {title : Def → String} {bytes : Array UInt8}

/-- **What unpacking into a new object does**, if no field hides a function that is called. -/
theorem IsNew.decode_eq (hnew : o.IsNew title) (hdecodes : (Def.message h ext ms).Decodes)
    (hmessage : o.message = .message h ext ms) (hwf : (Def.message h ext ms).WellFormed)
    (hbytes : ((Def.message h ext ms).nbits + 7) / 8 ≤ bytes.size) :
    o.decode bytes = ({ o with slots := (Wire.unpack (Def.message h ext ms).processor bytes o.title o.slots).2 },
      (Wire.unpack (Def.message h ext ms).processor bytes o.title o.slots).1) := by
  obtain ⟨hfits, hplain⟩ := hnew.holds hmessage hwf
  have hanswers := answers_of_holds hdecodes.toCalls hmessage hwf hfits hplain
  have hfield := hnew.field?_size hmessage
  rw [← hmessage]
  cases hhidden : (Def.message h ext ms).sizeField? with
  | none =>
    rw [hhidden] at hfield
    refine hanswers.decode_eq (size_eq hfield hmessage (by rw [hmessage]; exact hwf.nbytes_eq)) ?_
    simp only [areEnough, Except.ok.injEq, decide_eq_true_eq]
    omega
  | some f =>
    rw [hhidden] at hfield
    have hf := mem_orderedFields.1 (mem_of_find?_eq_some hhidden)
    exact hanswers.decode_eq (size_of_field hfield)
      (((hwf.field hf).2.2.areEnough_initialBy title bytes).1 (hdecodes.size_number f hhidden))

variable {ok : Leaf → Nat → Int → Prop}

end Loading.Object

open Loading

/-- **What a well-formed object is packed into**, whatever numbers its leaves are. -/
theorem Def.WellFormed.encode_eq {h : Header} {ext : Bool} {ms : Members} {o : Object}
    (hwf : (Def.message h ext ms).WellFormed) (ho : o.message = .message h ext ms)
    (hv : (Def.message h ext ms).Fits o.value) :
    ∃ bytes, (Def.message h ext ms).nbytes = .ok bytes.size ∧ bytes.size = ((Def.message h ext ms).nbits + 7) / 8 ∧
      Wire.pack (Def.message h ext ms).processor (Array.replicate bytes.size 0) o.title o.slots = .ok bytes ∧
      ((Def.message h ext ms).Encodes → o.value.Plain → o.encode = .ok bytes) ∧
      ∀ k, bitAt bytes k = ((Def.message h ext ms).wireBits o.value)[k]?.getD false := by
  obtain ⟨bytes, hpack, hsize, hbits⟩ := hwf.pack_eq hv (by omega : _ ≤ 8 * (((Def.message h ext ms).nbits + 7) / 8))
  have hnbytes := hwf.nbytes_eq
  refine ⟨bytes, by rw [hsize]; exact hnbytes, hsize, by rw [hsize]; exact hpack, fun hencodes hplain => ?_, hbits⟩
  have hslots : OwnSlots ms o.slots := .of_plain (holds_message.1 hv).1 hplain
  have hfree := (hslots.field?_eq_none_iff h ext).2 hencodes.size_free
  have hsmall : ((((Def.message h ext ms).nbits + 7) / 8 : Nat) : Int) ≤ maxBuffer := by
    have := hwf.nbits_le
    simp only [maxBuffer]
    omega
  rw [(Object.answers_of_holds hencodes.toCalls ho hwf hv hplain).encode_eq
    (Object.size_eq hfree ho (by rw [ho]; exact hnbytes)) hsmall, ho, hpack]

/-- An object of a message in which a field follows an extensible array. -/
def Sample.arrayFirstObject (items : Array Value) (b : Int) : Object :=
  ⟨arrayFirst, "F", [(⟨1, "a", some (.leaf 1 .bool)⟩, .list items), (⟨2, "b", some (.leaf 0 .unsigned)⟩, .int b)]⟩

end BitSchema
