/-!
# Terminal colours
-/

namespace BitSchema.Text

inductive Colour where
  | black | red | green | yellow | blue | magenta | cyan | white
deriving DecidableEq, Repr

namespace Colour

def code : Colour → Nat
  | .black => 0
  | .red => 1
  | .green => 2
  | .yellow => 3
  | .blue => 4
  | .magenta => 5
  | .cyan => 6
  | .white => 7

def ofName? (name : String) : Option Colour :=
  [("BLACK", .black), ("RED", .red), ("GREEN", .green), ("YELLOW", .yellow), ("BLUE", .blue),
   ("MAGENTA", .magenta), ("CYAN", .cyan), ("WHITE", .white)].lookup name

end Colour

/-- **Painting.** The text between the sequences that switch the colour on and off. -/
def paint (s : String) (c : Colour) : String :=
  "\x1b[3" ++ toString c.code ++ "m" ++ s ++ "\x1b[0m"

end BitSchema.Text
