import BitSchema.Script.Grammar

/-!
# Frequent mistakes

Rules that fit scripts with a mistake and have words for it.  See `BitSchema.Script.Grammar` for the notation.
-/

namespace BitSchema.Script

def expressionMistakes : List Written := rulesOf "
  wrong_arguments: @args ',' '*' => iterable argument unpacking follows keyword argument unpacking
    @expression clauses ',' ( args | expression clauses )? => Generator expression must be parenthesized
    @NAME '=' expression clauses => invalid syntax. Maybe you meant '==' or ':=' instead of '='?
    @args clauses ?? bare generator
    args ',' @expression clauses => Generator expression must be parenthesized
    @args ',' args ?? argument order
  wrong_kwarg: @( @'True' | @'False' | @'None' ) '=' => cannot assign to %t
    @NAME '=' expression clauses => invalid syntax. Maybe you meant '==' or ':=' instead of '='?
    !( NAME '=' ) @expression '=' => expression cannot contain assignment, perhaps you meant \"==\"?
  wrong_legacy: @NAME !'(' star_expressions ?? legacy
  wrong_expression: !( NAME TEXT | SOFT ) @disjunction quiet_expression ?? comma
    @disjunction 'if' disjunction !( 'else' | ':' ) => expected 'else' after 'if' expression
  wrong_named*: @expression ':=' expression => cannot use assignment expressions with %k
    @NAME '=' bitwise_or !( '=' | ':=' ) => invalid syntax. Maybe you meant '==' or ':=' instead of '='?
    !( list | tuple | genexp | 'True' | 'None' | 'False' ) @bitwise_or '=' bitwise_or !( '=' | ':=' ) => cannot assign to %k here. Maybe you meant '==' instead of '='?
  wrong_assignment: @wrong_annotated ':' expression => only single target (not %k) can be annotated
    @star_named_expression ',' star_named_expressions* ':' expression => only single target (not tuple) can be annotated
    @expression ':' expression => illegal target for annotation
    ( star_targets '=' )* @star_expressions '=' ?? target
    ( star_targets '=' )* @yield_expr '=' => assignment to yield expression not possible
    @star_expressions augmented any_value => '%k' is an illegal expression for augmented assignment
  wrong_annotated: list
    tuple
    '(' wrong_annotated ')'
  wrong_comprehension: ( '[' | '(' | BRACE ) @starred clauses => iterable unpacking cannot be used in comprehension
    ( '[' | BRACE ) @star_named_expression ',' star_named_expressions clauses => did you forget parentheses around the comprehension target?
    ( '[' | BRACE ) @star_named_expression ',' clauses => did you forget parentheses around the comprehension target?
  wrong_dict_comprehension: BRACE @'**' bitwise_or clauses UNBRACE => dict unpacking cannot be used in dict comprehension
  wrong_group: '(' @starred ')' => cannot use starred expression here
    '(' @'**' expression ')' => cannot use double starred expression here
  wrong_pairs: pair_or_spread, ',' wrong_pair
    expression ':' @'*' bitwise_or => cannot use a starred expression in a dictionary value
    expression @':' &( UNBRACE | ',' ) => expression expected after dictionary key and ':'
  wrong_pair: @expression !':' => ':' expected after dictionary key
    expression ':' @'*' bitwise_or => cannot use a starred expression in a dictionary value
    expression @':' &( UNBRACE | ',' ) => expression expected after dictionary key and ':'
  wrong_for_target: 'async'? 'for' @star_expressions ?? loop target"

def statementMistakes : List Written := rulesOf "
  wrong_delete: 'del' @star_expressions ?? deleted
  wrong_import_targets: import_target, ',' NEWLINE =. trailing comma not allowed without surrounding parentheses
  wrong_block: NEWLINE !INDENT >>
  wrong_if: 'if' named_expression NEWLINE =. expected ':'
    @'if' named_expression ':' NEWLINE !INDENT >> 'if' statement
  wrong_elif: 'elif' named_expression NEWLINE =. expected ':'
    @'elif' named_expression ':' NEWLINE !INDENT >> 'elif' statement
  wrong_else: @'else' ':' NEWLINE !INDENT >> 'else' statement
  wrong_while: 'while' named_expression NEWLINE =. expected ':'
    @'while' named_expression ':' NEWLINE !INDENT >> 'while' statement
  wrong_for: 'async'? 'for' star_targets 'in' star_expressions NEWLINE =. expected ':'
    'async'? @'for' star_targets 'in' star_expressions ':' NEWLINE !INDENT >> 'for' statement
  wrong_function: 'async'? @'def' NAME '(' params? ')' ( '->' expression )? ':' NEWLINE !INDENT >> function definition
  wrong_class: 'class' NAME ( '(' arguments? ')' )? NEWLINE =. expected ':'
    @'class' NAME ( '(' arguments? ')' )? ':' NEWLINE !INDENT >> class definition
  wrong_with: 'async'? 'with' ( expression ( 'as' star_target )? ), NEWLINE =. expected ':'
    'async'? 'with' '(' ( expressions ( 'as' star_target )? ), ','? ')' NEWLINE =. expected ':'
  wrong_with_block: 'async'? @'with' ( expression ( 'as' star_target )? ), ':' NEWLINE !INDENT >> 'with' statement
    'async'? @'with' '(' ( expressions ( 'as' star_target )? ), ','? ')' ':' NEWLINE !INDENT >> 'with' statement
  wrong_with_item: expression 'as' @expression &( ',' | ')' | ':' ) ?? target
  wrong_try: @'try' ':' NEWLINE !INDENT >> 'try' statement
    'try' ':' block !( 'except' | 'finally' ) =. expected 'except' or 'finally' block
    'try' ':' block* except+ @'except' '*' expression ( 'as' NAME )? ':' => cannot have both 'except' and 'except*' on the same 'try'
    'try' ':' block* except_group+ @'except' ( expression ( 'as' NAME )? )? ':' => cannot have both 'except' and 'except*' on the same 'try'
  wrong_except: 'except' '*'? @expression ',' expressions ( 'as' NAME )? ':' => multiple exception types must be parenthesized
    'except' '*'? expression ( 'as' NAME )? NEWLINE =. expected ':'
    'except' NEWLINE =. expected ':'
    'except' '*' ( NEWLINE | ':' ) =. expected one or more exception types
  wrong_except_block: @'except' expression ( 'as' NAME )? ':' NEWLINE !INDENT >> 'except' statement
    @'except' ':' NEWLINE !INDENT >> 'except' statement
  wrong_except_group_block: @'except' '*' expression ( 'as' NAME )? ':' NEWLINE !INDENT >> 'except*' statement
  wrong_finally: @'finally' ':' NEWLINE !INDENT >> 'finally' statement"

end BitSchema.Script
