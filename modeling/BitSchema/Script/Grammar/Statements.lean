import BitSchema.Script.Grammar

/-!
# The grammar of statements

Statements on one line, blocks, and what is defined by them.  See `BitSchema.Script.Grammar` for the notation.
-/

namespace BitSchema.Script

def lineRules : List Written := rulesOf "
  file: statements? END -> module
  statements: statement+ -> block
  statement: compound
    simples
  simples: simple !';' NEWLINE -> line
    simple ( ';' simple )* ';'? NEWLINE -> line
  simple*: assignment
    star_expressions -> expression
    &'return' return
    &( 'import' | 'from' ) import
    &'raise' raise
    'pass' -> pass
    &'del' delete
    &'yield' yield_expr -> expression
    &'assert' assert
    'break' -> break
    'continue' -> continue
    &'global' global
    &'nonlocal' nonlocal
  compound: &( 'def' | '@' | 'async' ) function
    &'if' if
    &( 'class' | '@' ) class
    &( 'with' | 'async' ) with
    &( 'for' | 'async' ) for
    &'try' try
    &'while' while
    match
  assignment: NAME ':' expression ( '=' any_value )? -> annotate
    ( '(' single_target ')' | member_target ) ':' expression ( '=' any_value )? -> annotate member
    ( star_targets '=' )+ any_value !'=' -> assign
    single_target augmented ~ any_value -> augment
    wrong_assignment
  any_value: yield_expr
    star_expressions
  augmented: '+=' -> +
    '-=' -> -
    '*=' -> *
    '@=' -> @
    '/=' -> /
    '%=' -> %
    '&=' -> &
    '|=' -> |
    '^=' -> ^
    '<<=' -> <<
    '>>=' -> >>
    '**=' -> **
    '//=' -> //
  return: 'return' star_expressions? -> return
  raise: 'raise' expression ( 'from' expression )? -> raise
    'raise' -> raise
  global: 'global' NAME, -> global
  nonlocal: 'nonlocal' NAME, -> nonlocal
  delete: 'del' del_targets &( ';' | NEWLINE ) -> delete
    wrong_delete
  assert: 'assert' expression ( ',' expression )? -> assert
  import: 'import' import_name, -> import
    'from' ( dot | dots )* dotted_name 'import' import_targets -> from
    'from' ( dot | dots )+ 'import' import_targets -> from dots
  dot: '.' -> .
  dots: '...' -> ...
  import_targets: '(' import_target, ','? ')' -> names
    import_target, !',' -> names
    '*' -> everything
    wrong_import_targets
  import_target: NAME ( 'as' NAME )? -> named
  import_name: dotted_name ( 'as' NAME )? -> named
  dotted_name: NAME -> dotted
    + '.' NAME -> dotted"

def blockRules : List Written := rulesOf "
  block*: NEWLINE INDENT statements DEDENT
    simples -> block
    wrong_block
  decorators: ( '@' named_expression NEWLINE )+
  class: decorators plain_class -> decorated
    plain_class
  plain_class: wrong_class
    'class' NAME ( '(' arguments? ')' )? ':' block -> class
  function: decorators plain_function -> decorated
    plain_function
  plain_function: wrong_function
    'def' NAME ='(' def_params? ')' ( '->' expression )? =':' block -> def
    'async' 'def' NAME ='(' def_params? ')' ( '->' expression )? =':' block -> async def
  if: wrong_if
    'if' named_expression ':' block elif -> if
    'if' named_expression ':' block else? -> if
  elif: wrong_elif
    'elif' named_expression ':' block elif -> if
    'elif' named_expression ':' block else? -> if
  else: wrong_else
    'else' =':' block
  while: wrong_while
    'while' named_expression ':' block else? -> while
  for: wrong_for
    'for' star_targets 'in' ~ star_expressions ':' block else? -> for
    'async' 'for' star_targets 'in' ~ star_expressions ':' block else? -> async for
    wrong_for_target
  with: wrong_with_block
    'with' '(' with_item, ','? ')' ':' block -> with
    'with' with_item, ':' block -> with
    'async' 'with' '(' with_item, ','? ')' ':' block -> async with
    'async' 'with' with_item, ':' block -> async with
    wrong_with
  with_item: expression 'as' star_target &( ',' | ')' | ':' ) -> with item
    wrong_with_item
    expression -> with item
  try: wrong_try
    'try' =':' block finally -> try finally
    'try' =':' block except+ else? finally? -> try
    'try' =':' block except_group+ else? finally? -> try group
  except: wrong_except_block
    'except' expression ( 'as' NAME )? ':' block -> except
    'except' ':' block -> except all
    wrong_except
  except_group: wrong_except_group_block
    'except' '*' expression ( 'as' NAME )? ':' block -> except
    wrong_except
  finally: wrong_finally
    'finally' =':' block"

/-- **Parameters**, of functions or of lambdas.  `%` stands for what has them and `$` for the sign behind them. -/
def parameterRules (owner close : String) : List Written := rulesOf <| .replace (.replace "
  %_params: wrong_%_parameters
    %_parameters
  %_parameters: %_slash_plain %_plain* %_default* %_star_etc? -> parameters
    %_slash_default %_default* %_star_etc? -> parameters
    %_plain+ %_default* %_star_etc? -> parameters
    %_default+ %_star_etc? -> parameters
    %_star_etc -> parameters
  %_slash_plain: %_plain+ '/' ',' -> slash
    %_plain+ '/' &'$' -> slash
  %_slash_default: %_plain* %_default+ '/' ',' -> slash
    %_plain* %_default+ '/' &'$' -> slash
  %_star_etc: wrong_%_star_etc
    '*' %_plain %_maybe* %_keywords? -> star
    '*' %_starred %_maybe* %_keywords? -> star
    '*' ',' %_maybe+ %_keywords? -> bare star
    %_keywords -> only keywords
  %_keywords: wrong_%_keywords
    '**' %_plain
  %_plain: %_param ',' -> plain
    %_param &'$' -> plain
  %_default: %_param default ',' -> defaulted
    %_param default &'$' -> defaulted
  %_maybe: %_param default? ',' -> maybe
    %_param default? &'$' -> maybe
  wrong_%_parameters: %_plain* wrong_%_defaults @%_plain => non-default argument follows default argument
    wrong_%_brackets
    @'/' ',' => at least one argument must precede /
    ( %_slash_plain | %_slash_default ) %_maybe* @'/' => / may appear only once
    ( %_slash_plain | %_slash_default )? %_maybe* '*' ( ',' | %_plain ) %_maybe* @'/' => / must be ahead of *
    %_maybe+ '/' @'*' => expected comma between / and *
  wrong_%_defaults: %_slash_default
    %_default+
  wrong_%_star_etc: wrong_%_star
    '*' %_param @'=' => var-positional argument cannot have default value
    '*' ( %_plain | ',' ) %_maybe* @'*' ( %_plain | ',' ) => * argument may appear only once
  wrong_%_keywords: '**' %_param @'=' => var-keyword argument cannot have default value
    '**' %_param ',' @%_param => arguments cannot follow var-keyword argument
    '**' %_param ',' @( '*' | '**' | '/' ) => arguments cannot follow var-keyword argument" "%" owner) "$" close

/-- Where the parameters of functions and those of lambdas differ. -/
def parameterRulesApart : List Written := rulesOf "
  def_starred: NAME ':' star_expression ',' -> plain
    NAME ':' star_expression &')' -> plain
  def_param: NAME ( ':' expression )? -> param
  default: '=' expression
    wrong_default
  wrong_def_brackets: def_plain* @'(' def_plain+ ','? ')' => Function parameters cannot be parenthesized
  wrong_def_star: @'*' ( ')' | ',' ( ')' | '**' ) ) => named arguments must follow bare *
  wrong_default: @'=' &( ')' | ',' ) => expected default value expression
  lambda_starred: lambda_plain
  lambda_param: NAME -> param
  wrong_lambda_brackets: lambda_plain* @'(' lambda_param, ','? ')' => Lambda expression parameters cannot be parenthesized
  wrong_lambda_star: '*' ( ':' | ',' ( ':' | '**' ) ) =. named arguments must follow bare *"

def matchRules : List Written := rulesOf "
  match: ^match subject ':' NEWLINE INDENT case+ DEDENT -> match
    wrong_match
  subject: star_named_expression ',' star_named_expressions? -> tuple
    named_expression
  case: wrong_case
    ^case patterns guard? ':' block -> case
  guard: 'if' named_expression
  patterns: open_sequence -> pattern sequence
    pattern
  pattern: as_pattern
    or_pattern
  as_pattern: or_pattern 'as' capture_target -> pattern as
    wrong_as_pattern
  or_pattern: closed_pattern ( '|' closed_pattern )* -> pattern or
  closed_pattern*: signed_number !( '+' | '-' ) -> pattern value
    complex_number -> pattern value
    texts -> pattern value
    'None' -> pattern none
    'True' -> pattern true
    'False' -> pattern false
    capture_target -> pattern capture
    ^_ -> pattern anything
    dotted_value !( '.' | '(' | '=' ) -> pattern value
    '(' pattern ')'
    '[' maybe_sequence? ']' -> pattern sequence
    '(' open_sequence? ')' -> pattern sequence
    BRACE UNBRACE -> pattern mapping
    BRACE '**' capture_target ','? UNBRACE -> pattern mapping
    BRACE key_pattern, ',' '**' capture_target ','? UNBRACE -> pattern mapping
    BRACE key_pattern, ','? UNBRACE -> pattern mapping
    class_pattern
  signed_number: NUMBER -> numeral
    '-' NUMBER -> minus
  complex_number: signed_number '+' NUMBER -> +
    signed_number '-' NUMBER -> -
  capture_target: !^_ NAME !( '.' | '(' | '=' )
  dotted_value: NAME '.' NAME ( '.' NAME )* -> dotted value
  name_or_value: NAME ( '.' NAME )* -> dotted value
  open_sequence: maybe_star ',' maybe_sequence?
  maybe_sequence: maybe_star, ','?
  maybe_star: star_pattern
    pattern
  star_pattern*: '*' capture_target -> pattern star
    '*' ^_ -> pattern star
  key_pattern: ( signed_number !( '+' | '-' ) | complex_number | texts | 'None' | 'True' | 'False' | dotted_value ) ':' pattern -> pattern pair
  class_pattern: name_or_value '(' ')' -> pattern class
    name_or_value '(' pattern, ','? ')' -> pattern class
    name_or_value '(' keyword_pattern, ','? ')' -> pattern class
    name_or_value '(' pattern, ',' keyword_pattern, ','? ')' -> pattern class
    wrong_class_pattern
  keyword_pattern: NAME '=' pattern -> pattern keyword
  wrong_match: ^match subject NEWLINE =. expected ':'
    @^match subject ':' NEWLINE !INDENT >> 'match' statement
  wrong_case: ^case patterns guard? NEWLINE =. expected ':'
    @^case patterns guard? ':' NEWLINE !INDENT >> 'case' statement
  wrong_as_pattern: or_pattern 'as' @^_ => cannot use '_' as a target
    or_pattern 'as' !NAME @expression => invalid pattern target
  wrong_class_pattern: name_or_value '(' ( pattern, ',' )? keyword_pattern, ',' @( pattern, ) => positional patterns follow keyword patterns"

end BitSchema.Script
