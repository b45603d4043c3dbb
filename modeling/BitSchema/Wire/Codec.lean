import BitSchema.Wire.Layout

/-!
# Packing and unpacking records

`pack` packs a record into a buffer.  `unpack` unpacks bytes into a record: bits are added to those the record has,
truth values are replaced, and a failure leaves what had been unpacked before it.
-/

namespace BitSchema.Wire

/-- **Packs a record** into a buffer. -/
def pack (layout : Processor) (buffer : Array UInt8) (title : String) (slots : List (Slot × Value)) :
    Except Fault (Array UInt8) :=
  let (r, m) := layout.run
    { packing := true, buffer, cursor := 0, indexer := .top, accessor := .record title slots }
  match r with
  | .ok _ => .ok m.buffer
  | .error f => .error f

/-- **Unpacks bytes** into a record, which comes back also after a failure. -/
def unpack (layout : Processor) (bytes : Array UInt8) (title : String) (slots : List (Slot × Value)) :
    Except Fault Unit × List (Slot × Value) :=
  let (r, m) := layout.run
    { packing := false, buffer := bytes, cursor := 0, indexer := .top, accessor := .record title slots }
  match m.accessor with
  | .record _ slots => (r, slots)
  | _ => (r, slots)

end BitSchema.Wire
