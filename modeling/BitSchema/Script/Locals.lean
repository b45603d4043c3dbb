import BitSchema.Script.Code

/-!
# Names of a block

The names that the statements of a function give a value are its own, unless it says otherwise:
`Locals.ofBody`.
-/

namespace BitSchema.Script.Locals

def depth : Nat := 1000

def inTarget : Nat → Expr → List String
  | 0, _ => []
  | fuel + 1, e =>
    match e with
    | .name id => [id]
    | .tuple es | .list es => es.flatMap (inTarget fuel)
    | .starred e => inTarget fuel e
    | _ => []

/-- The names that get a value inside an expression; other functions do not count. -/
def inExpr : Nat → Expr → List String
  | 0, _ => []
  | fuel + 1, e =>
    let all := fun (es : List Expr) => es.flatMap (inExpr fuel)
    match e with
    | .walrus id e => id :: inExpr fuel e
    | .joined es | .tuple es | .list es | .set es | .both es | .either es => all es
    | .field e _ f => all (e :: f.toList)
    | .dict es => all (es.flatMap fun (k, v) => k.toList ++ [v])
    | .starred e | .unary _ e | .attr e _ => inExpr fuel e
    | .binary _ a b | .subscript a b => all [a, b]
    | .compare e r => all (e :: r.map (·.2))
    | .conditional a b c => all [a, b, c]
    | .slice a b c => all (a.toList ++ b.toList ++ c.toList)
    | .call f args named => all (f :: args ++ named.map (·.2))
    | .function ps _ => all (ps.filterMap (·.fallback))
    | .gather _ e v cs => all (e :: v.toList ++ cs.flatMap fun (_, s, conditions) => s :: conditions)
    | _ => []

def firstPart (s : String) : String := (s.splitOn ".").headD s

def inStmt : Nat → Stmt → List String
  | 0, _ => []
  | fuel + 1, s =>
    let block := fun (ss : List Stmt) => ss.flatMap (inStmt fuel)
    let es := fun (es : List Expr) => es.flatMap (inExpr depth)
    let ts := fun (ts : List Expr) => ts.flatMap (inTarget depth)
    match s with
    | .expr e => es [e]
    | .assign targets value => ts targets ++ es (value :: targets)
    | .augment t _ e => ts [t] ++ es [e]
    | .annotate t _ _ e => ts [t] ++ es e.toList
    | .delete targets => ts targets
    | .give e => es e.toList
    | .raise e c => es (e.toList ++ c.toList)
    | .assert e w => es (e :: w.toList)
    | .bring names => names.map fun (n, new) => new.getD (firstPart n)
    | .bringFrom _ _ names => names.map fun (n, new) => new.getD n
    | .branch c yes no => es [c] ++ block yes ++ block no
    | .loop c body last => es [c] ++ block body ++ block last
    | .each t s body last => ts [t] ++ es [s] ++ block body ++ block last
    | .during items body => items.flatMap (fun (e, t) => es [e] ++ ts t.toList) ++ block body
    | .attempt body handlers last final =>
      block body ++ handlers.flatMap (fun (e, id, b) => es e.toList ++ id.toList ++ block b) ++ block last ++
        block final
    | .define _ id _ _ _ => [id]
    | .makeClass _ id _ _ _ => [id]
    | _ => []

def declared (global : Bool) : Nat → Stmt → List String
  | 0, _ => []
  | fuel + 1, s =>
    let block := fun (ss : List Stmt) => ss.flatMap (declared global fuel)
    match s with
    | .global names => if global then names else []
    | .outer names => if global then [] else names
    | .branch _ yes no => block yes ++ block no
    | .loop _ body last | .each _ _ body last => block body ++ block last
    | .during _ body => block body
    | .attempt body handlers last final =>
      block body ++ handlers.flatMap (fun h => block h.2.2) ++ block last ++ block final
    | _ => []

def globals (body : List Stmt) : List String := body.flatMap (declared true depth)

def outers (body : List Stmt) : List String := body.flatMap (declared false depth)

/-- **The names of a function's own**, those of its parameters included. -/
def ofBody (params : List String) (body : List Stmt) : List String :=
  let elsewhere := globals body ++ outers body
  (params ++ body.flatMap (inStmt depth)).eraseDups.filter fun n => !elsewhere.contains n

def annotates : Nat → Stmt → Bool
  | 0, _ => false
  | fuel + 1, s =>
    let block := fun (ss : List Stmt) => ss.any (annotates fuel)
    match s with
    | .annotate _ _ _ _ => true
    | .branch _ yes no => block yes || block no
    | .loop _ body last | .each _ _ body last => block body || block last
    | .during _ body => block body
    | .attempt body handlers last final =>
      block body || handlers.any (fun h => block h.2.2) || block last || block final
    | _ => false

end BitSchema.Script.Locals
