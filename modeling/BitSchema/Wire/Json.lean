import BitSchema.Numeral
import BitSchema.Wire.Value

/-!
# JSON text of values

Values as JSON, on one line or indented, with a choice of separators.  Fields come in the order of the
record.  Runs of bytes have no JSON form.
-/

namespace BitSchema.Wire

structure JsonLayout where
  /-- What stands before an item for each level; none for text on one line. -/
  indent : Option String := none
  itemSeparator : String := ", "
  keySeparator : String := ": "

namespace JsonLayout

def of (indent : Option String) (separators : List String) : Except Fault JsonLayout :=
  match separators, indent with
  | [i, k], _ => .ok ⟨indent, i, k⟩
  | [], some _ => .ok { indent, itemSeparator := "," }
  | [], none => .ok {}
  | [_], _ => .error (.badValue "not enough values to unpack (expected 2, got 1)")
  | _, _ => .error (.badValue "too many values to unpack (expected 2)")

def enclose (l : JsonLayout) (level : Nat) (opening closing : String) (items : List String) :
    String :=
  if items.isEmpty then opening ++ closing
  else
    match l.indent with
    | none => opening ++ l.itemSeparator.intercalate items ++ closing
    | some unit =>
      let line := fun k => "\n" ++ String.join (List.replicate k unit)
      opening ++ line (level + 1) ++ (l.itemSeparator ++ line (level + 1)).intercalate items ++
        line level ++ closing

end JsonLayout

/-- A name in quotes.  Names are ASCII words. -/
def jsonName (s : String) : String := "\"" ++ s ++ "\""

mutual

def Value.jsonAt (l : JsonLayout) (level : Nat) : Value → Except Fault String
  | .bool b => .ok (if b then "true" else "false")
  | .int n => Numeral.ofInt n
  | .bytes bs => .error (.notSerializable (Value.bytes bs).kindWord)
  | .list ⟨items⟩ => do return l.enclose level "[" "]" (← jsonItems l level items)
  | .record _ slots => do return l.enclose level "\x7b" "\x7d" (← jsonFields l level slots)

def jsonItems (l : JsonLayout) (level : Nat) : List Value → Except Fault (List String)
  | [] => .ok []
  | v :: r => do return (← v.jsonAt l (level + 1)) :: (← jsonItems l level r)

def jsonFields (l : JsonLayout) (level : Nat) : List (Slot × Value) → Except Fault (List String)
  | [] => .ok []
  | (s, v) :: r => do
    if s.isField then
      let text ← v.jsonAt l (level + 1)
      return (jsonName s.name ++ l.keySeparator ++ text) :: (← jsonFields l level r)
    else jsonFields l level r

end

/-- **JSON text** of a value. -/
def Value.json (l : JsonLayout) (v : Value) : Except Fault String := v.jsonAt l 0

end BitSchema.Wire
