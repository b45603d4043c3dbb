import BitSchema.Schema.Rules
import BitSchema.Text.Case

/-!
# Style warnings

The linter looks at the definitions of a file kind by kind, and at those of a kind in the order in which
`Def.select` lists them.  A `Rule` says what is wrong with a definition of its kind, if something is.

* Names of aliases, enums and messages are in pascal case, those of message fields in snake case, those of
  constants and enum fields in capitals.
* An enum has a field with the value zero.
* A definition that starts its line is indented by four spaces for each scope around it but the file.
-/

namespace BitSchema

open Text

namespace Lint

/-- **Rules.** A check of the definitions of a kind under the names by which their scopes know them. -/
structure Rule where
  kind : Kind
  check : String → Def → Option Report

def warn (problem : Problem) (d : Def) (suggestion : String) : Report :=
  { Report.about problem d.header.origin "" with suggestion }

def checkedName (name : String) (d : Def) : String := if name.isEmpty then d.name else name

/-- Names of a kind are as `expect` writes them. -/
def caseRule (kind : Kind) (problem : Problem) (expect : String → String) : Rule where
  kind
  check name d :=
    let name := checkedName name d
    if name = expect name then none else some (warn problem d (expect name))

def upperRule (kind : Kind) (problem : Problem) : Rule where
  kind
  check name d :=
    let name := checkedName name d
    if isUpperCase name then none else some (warn problem d (upperCase name))

def zeroRule : Rule where
  kind := .enum
  check _ d :=
    if d.enumFields.any fun f => f.value == 0 then none else some (warn .enumZeroMissing d "")

def expectedIndent (d : Def) : Int := ((d.header.scopes.length : Int) - 1) * 4

def indentRule : Rule where
  kind := .boundDefinition
  check _ d :=
    let expect := expectedIndent d
    if d.header.indent > 0 ∧ expect ≥ 0 ∧ d.header.indent ≠ expect then
      some (warn .indent d s!"{expect} spaces")
    else none

def rules : List Rule := [
  indentRule,
  caseRule .typeAlias .aliasName pascalCase,
  upperRule .constant .constantName,
  caseRule .enum .enumName pascalCase,
  zeroRule,
  upperRule .enumField .enumFieldName,
  caseRule .message .messageName pascalCase,
  caseRule .messageField .fieldName snakeCase]

/-- The kinds in the order in which they are looked at.  There are no rules for files and for definitions as such. -/
def kinds : List Kind :=
  [.typeAlias, .constant, .enum, .enumField, .message, .messageField, .proto, .definition, .boundDefinition]

/-- The definitions of a kind that are looked at.  A file is not a member of itself. -/
def members (file : Def) (kind : Kind) : Except Fault (List (String × Def)) :=
  if kind = .proto then .ok [(file.name, file)] else file.select kind true (some file.id)

def warningsOf (kind : Kind) (member : String × Def) : List Report :=
  (rules.filter fun r => r.kind = kind).filterMap fun r => r.check member.1 member.2

end Lint

/-- **Linting.** The warnings about the definitions of a file. -/
def Def.lint (file : Def) : Except Fault (List Report) := do
  let parts ← Lint.kinds.mapM fun k => do
    return (← Lint.members file k).flatMap (Lint.warningsOf k)
  return parts.flatten

end BitSchema
