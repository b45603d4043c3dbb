import BitSchema.Content

/-!
# Reports from details

A report can be made from a problem and details given by name, which nobody has checked before.  Each
family of problems takes some details and not others (`Problem.takes`).  Details that are false are left
out, and details of the wrong sort are a fault (`Report.ofDetails`).
-/

namespace BitSchema

inductive Detail where
  | text | note | file | token | line | suggestion | language
deriving DecidableEq, Repr

def Problem.takes (p : Problem) : Detail → Bool
  | .text => true
  | .note | .file | .token | .line => p.family.located
  | .suggestion => p.family = .lint
  | .language => p = .noOptimization

namespace Report

def optionalText (c : Content) : Except Fault String :=
  if c.truth then c.plain else .ok ""

def replacement : Content → Except Fault String
  | .text s => .ok s
  | c => if c.truth then .error (c.lacks "splitlines") else .ok ""

def proposal : Content → Except Fault String
  | .text s => .ok s
  | c =>
    if c.truth then
      .error (.mismatch ("can only concatenate str (not \"" ++ c.sort ++ "\") to str"))
    else .ok ""

def lineOf (c : Content) : Except Fault LineMark :=
  match c with
  | .int n => .ok (.number n)
  | c => LineMark.word <$> c.plain

def withDetail (r : Report) : Detail × Content → Except Fault Report
  | (.text, c) => return { r with text := ← replacement c }
  | (.note, c) => return { r with note := ← optionalText c }
  | (.file, c) => return { r with file := ← optionalText c }
  | (.token, c) => return { r with token := ← c.plain }
  | (.line, c) => return { r with line := ← lineOf c }
  | (.suggestion, c) => return { r with suggestion := ← proposal c }
  | (.language, c) => return { r with language := ← optionalText c }

/-- **A report** of a problem with the given details. -/
def ofDetails (problem : Problem) (details : List (Detail × Content)) : Except Fault Report :=
  let whole := details.filter fun d => d.1 = .text && d.2.truth
  (if whole.isEmpty then details else whole).foldlM withDetail { problem }

/-- A report without a problem has no mark to stand before its lines, and so cannot be shown. -/
def unmarked (details : List (Detail × Content)) : Except Fault Report := do
  for d in details do
    if d.1 = .text then discard (replacement d.2)
  throw (.mismatch "unsupported operand type(s) for +: 'NoneType' and 'str'")

end Report

end BitSchema
