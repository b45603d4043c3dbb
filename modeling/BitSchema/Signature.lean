import BitSchema.Fault

/-!
# Signatures

How many arguments something takes, and what is said when it is given too few or too many.
-/

namespace BitSchema

/-- **Signatures** of what is asked of a thing; the thing itself counts as an argument. -/
structure Signature where
  /-- What is called. -/
  title : String
  /-- The arguments that must be given. -/
  required : List String := []
  /-- How many further arguments may be given. -/
  optional : Nat := 0
  /-- Whether any number of arguments may be given. -/
  anyNumber : Bool := false

namespace Signature

def counted (n : Nat) (word : String) : String :=
  toString n ++ " " ++ word ++ if n = 1 then "" else "s"

def inRow : List String → String
  | [] => ""
  | [a] => a
  | [a, b] => a ++ " and " ++ b
  | names => ", ".intercalate names.dropLast ++ ", and " ++ names.getLast?.getD ""

/-- **Checks the number of arguments.** -/
def check (s : Signature) (given : Nat) : Except Fault Unit :=
  let least := s.required.length
  if s.anyNumber then .ok ()
  else if given < least then
    let missing := s.required.drop given
    .error (.mismatch (s.title ++ "() missing " ++
      counted missing.length "required positional argument" ++ ": " ++
      inRow (missing.map fun n => "'" ++ n ++ "'")))
  else if given > least + s.optional then
    let most := least + s.optional + 1
    let range := if s.optional = 0 then counted most "positional argument"
      else "from " ++ toString (least + 1) ++ " to " ++ counted most "positional argument"
    .error (.mismatch (s.title ++ "() takes " ++ range ++ " but " ++ toString (given + 1) ++
      (if given = 0 then " was given" else " were given")))
  else .ok ()

end Signature

end BitSchema
