import BitSchema.Script.Grammar

/-!
# The grammar of expressions

Expressions, arguments of calls, and the targets of assignments.  See `BitSchema.Script.Grammar` for the
notation.
-/

namespace BitSchema.Script

def operatorRules : List Written := rulesOf "
  expressions: expression ( ',' expression )+ ','? -> tuple
    expression ',' -> tuple
    expression
  expression*: wrong_expression
    wrong_legacy
    disjunction 'if' disjunction 'else' expression -> conditional
    disjunction
    lambda
  quiet_expression~: disjunction 'if' disjunction 'else' expression -> conditional
    disjunction
    lambda
  yield_expr: 'yield' 'from' expression -> yield from
    'yield' star_expressions? -> yield
  star_expressions: star_expression ( ',' star_expression )+ ','? -> tuple
    star_expression ',' -> tuple
    star_expression
  star_expression*: '*' bitwise_or -> starred
    expression
  star_named_expressions: star_named_expression, ','?
  star_named_expression: '*' bitwise_or -> starred
    named_expression
  walrus: NAME ':=' ~ expression -> walrus
  named_expression: walrus
    wrong_named
    expression !':='
  disjunction*: conjunction ( 'or' conjunction )+ -> or
    conjunction
  conjunction*: inversion ( 'and' inversion )+ -> and
    inversion
  inversion*: 'not' inversion -> not
    comparison
  comparison: bitwise_or compared+ -> compare
    bitwise_or
  compared: '==' bitwise_or -> ==
    '!=' bitwise_or -> !=
    '<=' bitwise_or -> <=
    '<' bitwise_or -> <
    '>=' bitwise_or -> >=
    '>' bitwise_or -> >
    'not' 'in' bitwise_or -> not in
    'in' bitwise_or -> in
    'is' 'not' bitwise_or -> is not
    'is' bitwise_or -> is
  bitwise_or: bitwise_xor
    + '|' bitwise_xor -> |
  bitwise_xor: bitwise_and
    + '^' bitwise_and -> ^
  bitwise_and: shift
    + '&' shift -> &
  shift: sum
    + '<<' sum -> <<
    + '>>' sum -> >>
  sum: term
    + '+' term -> +
    + '-' term -> -
  term: factor
    + '*' factor -> *
    + '/' factor -> /
    + '//' factor -> //
    + '%' factor -> %
    + '@' factor -> @
  factor*: '+' factor -> plus
    '-' factor -> minus
    '~' factor -> invert
    power
  power: await_primary '**' factor -> **
    await_primary
  await_primary*: 'await' primary -> await
    primary"

def primaryRules : List Written := rulesOf "
  primary: atom
    + '.' NAME -> attribute
    + genexp -> call with
    + '(' arguments? ')' -> call
    + '[' slices ']' -> subscript
  slices: slice !','
    ( slice | starred ), ','? -> slices
  slice: expression? ':' expression? ( ':' expression? )? -> slice
    named_expression
  atom: NAME -> name
    'True' -> true
    'False' -> false
    'None' -> none
    &TEXT texts
    NUMBER -> numeral
    &'(' ( tuple | group | genexp )
    &'[' ( list | listcomp )
    &BRACE ( dict | set | dictcomp | setcomp )
    '...' -> ellipsis
  group: '(' ( yield_expr | named_expression ) ')'
    wrong_group
  texts*: TEXT+ -> texts
  list: '[' star_named_expressions? ']' -> list
  tuple: '(' ( star_named_expression ',' star_named_expressions? )? ')' -> tuple in brackets
  set: BRACE star_named_expressions UNBRACE -> set
  dict: BRACE pairs? UNBRACE -> dict
    BRACE wrong_pairs UNBRACE
  pairs: pair_or_spread, ','?
  pair_or_spread: '**' bitwise_or -> spread
    pair
  pair: expression ':' expression -> pair
  clauses: clause+ -> clauses
  clause: 'async' 'for' star_targets 'in' ~ disjunction ( 'if' disjunction )* -> async clause
    'for' star_targets 'in' ~ disjunction ( 'if' disjunction )* -> clause
    wrong_for_target
  listcomp: '[' named_expression clauses ']' -> list comprehension
    wrong_comprehension
  setcomp: BRACE named_expression clauses UNBRACE -> set comprehension
    wrong_comprehension
  genexp: '(' ( walrus | expression !':=' ) clauses ')' -> generator
    wrong_comprehension
  dictcomp: BRACE pair clauses UNBRACE -> dict comprehension
    wrong_dict_comprehension
  lambda: 'lambda' lambda_params? ':' expression -> lambda
  arguments*: args ','? &')'
    wrong_arguments
  args: ( starred | ( walrus | expression !':=' ) !'=' ), ( ',' kwargs )? -> arguments
    kwargs -> named arguments
  kwargs: kwarg_or_starred, ',' kwarg_or_spread, -> kwargs
    kwarg_or_starred, -> kwargs
    kwarg_or_spread, -> kwargs
  starred: '*' expression -> starred
    '*' =. Invalid star expression
  kwarg_or_starred: wrong_kwarg
    NAME '=' expression -> kwarg
    starred
  kwarg_or_spread: wrong_kwarg
    NAME '=' expression -> kwarg
    '**' expression -> spread"

def targetRules : List Written := rulesOf "
  star_targets: star_target !','
    star_target ( ',' star_target )* ','? -> tuple
  star_target*: '*' ( !'*' star_target ) -> starred
    star_member_target
  star_member_target*: target_primary '.' NAME !opening -> attribute
    target_primary '[' slices ']' !opening -> subscript
    star_atom
  star_atom: NAME -> name
    '(' star_member_target ')'
    '(' ( star_target ( ',' star_target )+ ','? | star_target ',' )? ')' -> tuple in brackets
    '[' ( star_target, ','? )? ']' -> list
  single_target: member_target
    NAME -> name
    '(' single_target ')'
  member_target: target_primary '.' NAME !opening -> attribute
    target_primary '[' slices ']' !opening -> subscript
  target_primary: atom &opening
    + '.' NAME &opening -> attribute
    + '[' slices ']' &opening -> subscript
    + genexp &opening -> call with
    + '(' arguments? ')' &opening -> call
  opening: '('
    '['
    '.'
  del_targets: del_target, ','?
  del_target*: target_primary '.' NAME !opening -> attribute
    target_primary '[' slices ']' !opening -> subscript
    del_atom
  del_atom: NAME -> name
    '(' del_target ')'
    '(' del_targets? ')' -> tuple in brackets
    '[' del_targets? ']' -> list"

end BitSchema.Script
