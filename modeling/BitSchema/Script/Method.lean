import BitSchema.Script.Format
import BitSchema.Wire.Hex

/-!
# What values can do

The members of values that are functions: `Run.method` carries one out.
-/

namespace BitSchema.Script.Run

def argumentWord (n : Nat) : String := if n = 1 then "argument" else "arguments"

/-- How many arguments a function of a value may have. -/
def checkArity (tool : String) (args : List Val) (named : Names) : Run Unit := do
  let given := " (" ++ toString args.length ++ " given)"
  if !named.isEmpty then mismatch (tool ++ "() takes no keyword arguments")
  if tool == "dict.items" && args.length != 0 then mismatch (tool ++ "() takes no arguments" ++ given)
  if tool == "list.append" && args.length != 1 then mismatch (tool ++ "() takes exactly one argument" ++ given)

/-- **Carries out a function of a value**: the type and the name of the function are told. -/
def method (type tool : String) (args : List Val) (named : Names) : Run Val := do
  let title := type ++ "." ++ tool
  match title, args with
  | "object.__new__", cls :: _ => alloc (.thing cls [])
  | _, self :: args =>
    if !(← belongs self (.tool type)) then
      mismatch ("descriptor '" ++ tool ++ "' for '" ++ type ++ "' objects doesn't apply to a '" ++
        (← kindWord self) ++ "' object")
    if tool == "__init__" || tool == "__init_subclass__" then return .none
    else if tool.startsWith "__" then beyond
    else
      if self matches .text _ then beyond
      checkArity title args named
      match self with
      | .bytes bs => if tool == "hex" then return .text (Wire.Hex.write bs.toArray) else beyond
      | .problem kind as => if tool == "with_traceback" then return .problem kind as else return .none
      | .ref k =>
        match ← read k, tool with
        | .list items, "append" => do
          write k (.list (items.push ((args[0]?).getD .none)))
          return .none
        | .list items, "pop" => do
          if !args.isEmpty then beyond
          match items.back? with
          | none => fail "IndexError" "pop from empty list"
          | some v =>
            write k (.list items.pop)
            return v
        | .dict entries, "items" => list (entries.toList.map fun (a, b) => .tuple [a, b])
        | .bytearray bs, "hex" => return .text (Wire.Hex.write bs)
        | .iterator (v :: r), _ => do
          write k (.iterator r)
          return v
        | .iterator [], _ => throw (.raised (.problem (.tool "StopIteration") []))
        | .thing (.tool "property") names, "setter" =>
          alloc (.thing (.tool "property") (names.put "fset" ((args[0]?).getD .none)))
        | .thing (.tool "property") names, "getter" =>
          alloc (.thing (.tool "property") (names.put "fget" ((args[0]?).getD .none)))
        | .thing (.tool "property") _, _ => return self
        | _, _ => beyond
      | _ => beyond
  | _, [] => mismatch ("unbound method " ++ title ++ "() needs an argument")

end BitSchema.Script.Run
