/-!
# Kinds

Every element of a concrete tree, token or node, has a kind. This file holds the enumeration, the
label a kind is printed with, its number, and the two ways back from a label and to the list of all
kinds. The order of the constructors matters: the number of a kind is its place in it, and the
classes of `GoFront.Kind.Class` are intervals of numbers.
-/

namespace GoFront

/-- The kinds of tokens and nodes, tokens first. -/
inductive Kind where
  -- Blanks and comments.
  | whitespace | newline | lineComment | blockComment
  -- Brackets and punctuation.
  | leftParen | rightParen | leftBracket | rightBracket | leftBrace | rightBrace | comma | dot
  | ellipsis | semicolon | colon
  -- Operators.
  | plus | minus | star | slash | percent | amp | pipe | caret | shiftLeft | shiftRight
  | andNot | plusEq | minusEq | starEq | slashEq | percentEq | ampEq | pipeEq | caretEq
  | shiftLeftEq | shiftRightEq | andNotEq | andAnd | orOr | arrow | increment | decrement
  | eqEq | notEq | less | lessEq | greater | greaterEq | assign | define | bang | tilde
  -- Keywords of the source language.
  | breakKeyword | caseKeyword | chanKeyword | constKeyword | continueKeyword | defaultKeyword
  | deferKeyword | elseKeyword | fallthroughKeyword | forKeyword | funcKeyword | goKeyword
  | gotoKeyword | ifKeyword | importKeyword | interfaceKeyword | mapKeyword | packageKeyword
  | rangeKeyword | returnKeyword | selectKeyword | structKeyword | switchKeyword | typeKeyword
  | varKeyword
  -- Further keywords of the template language.
  | endKeyword | withKeyword | defineKeyword | templateKeyword | blockKeyword | trueKeyword
  | falseKeyword | nilKeyword
  -- Names and literals.
  | identifier | intNumber | floatNumber | imaginaryNumber | rune | string | rawString
  -- What the lexers produce in place of a token that is never finished.
  | unterminatedString | unterminatedRawString | unterminatedRune | unterminatedComment
  | badCharacter
  -- Tokens of the template language.
  | text | leftDelimiter | rightDelimiter | field | variable | compareOperator | logicOperator
  -- The end of the input; no token of a document has this kind.
  | endOfInput
  -- Files and declarations.
  | sourceFile | packageClause | importDeclaration | importSpec | functionDeclaration
  | receiver | typeParameterList | typeParameter | parameterList | parameter | result
  | typeDeclaration | typeSpec | variableDeclaration | variableSpec | constantDeclaration
  | constantSpec | name | block
  -- Statements.
  | emptyStatement | expressionStatement | assignStatement | shortVariableDeclaration
  | stepStatement | sendStatement | labeledStatement | goStatement | deferStatement
  | returnStatement | breakStatement | continueStatement | gotoStatement | fallthroughStatement
  | ifStatement | forStatement | forClause | rangeClause | switchStatement | caseClause
  | selectStatement | communicationClause | declarationStatement
  -- Expressions.
  | expressionList | literal | nameRef | parenExpression | unaryExpression | binaryExpression
  | callExpression | argumentList | selectorExpression | indexExpression | sliceExpression
  | typeAssertExpression | compositeLiteral | literalValue | keyedElement | functionLiteral
  -- Types.
  | typeName | typeArguments | pointerType | arrayType | sliceType | mapType | channelType
  | functionType | structType | fieldDeclaration | interfaceType | methodSpec | typeElement
  | parenType
  -- Templates.
  | template | templateList | templateAction | templateIf | templateRange | templateWith
  | templateDefine | templateBlock | templateCall | templateElse | templateEnd | templateBreak
  | templateContinue | templateReturn | templatePipeline | templateDeclaration
  | templateCommand | templateFieldChain | templateVariable | templateFunction
  | templateLiteral | templateDot | templateParen | templateChain
  -- A stretch that could not be parsed, and a kind no node of a finished tree has.
  | error | vacant
  deriving DecidableEq, Repr

namespace Kind

/-- The place of a kind in the order of declaration, from 0. -/
def number (k : Kind) : Nat := k.ctorIdx

/-- All kinds, by ascending number. -/
def all : List Kind := [
  .whitespace, .newline, .lineComment, .blockComment, .leftParen, .rightParen, .leftBracket,
  .rightBracket, .leftBrace, .rightBrace, .comma, .dot, .ellipsis, .semicolon, .colon, .plus,
  .minus, .star, .slash, .percent, .amp, .pipe, .caret, .shiftLeft, .shiftRight, .andNot,
  .plusEq, .minusEq, .starEq, .slashEq, .percentEq, .ampEq, .pipeEq, .caretEq, .shiftLeftEq,
  .shiftRightEq, .andNotEq, .andAnd, .orOr, .arrow, .increment, .decrement, .eqEq, .notEq,
  .less, .lessEq, .greater, .greaterEq, .assign, .define, .bang, .tilde, .breakKeyword,
  .caseKeyword, .chanKeyword, .constKeyword, .continueKeyword, .defaultKeyword, .deferKeyword,
  .elseKeyword, .fallthroughKeyword, .forKeyword, .funcKeyword, .goKeyword, .gotoKeyword,
  .ifKeyword, .importKeyword, .interfaceKeyword, .mapKeyword, .packageKeyword, .rangeKeyword,
  .returnKeyword, .selectKeyword, .structKeyword, .switchKeyword, .typeKeyword, .varKeyword,
  .endKeyword, .withKeyword, .defineKeyword, .templateKeyword, .blockKeyword, .trueKeyword,
  .falseKeyword, .nilKeyword, .identifier, .intNumber, .floatNumber, .imaginaryNumber, .rune,
  .string, .rawString, .unterminatedString, .unterminatedRawString, .unterminatedRune,
  .unterminatedComment, .badCharacter, .text, .leftDelimiter, .rightDelimiter, .field,
  .variable, .compareOperator, .logicOperator, .endOfInput, .sourceFile, .packageClause,
  .importDeclaration, .importSpec, .functionDeclaration, .receiver, .typeParameterList,
  .typeParameter, .parameterList, .parameter, .result, .typeDeclaration, .typeSpec,
  .variableDeclaration, .variableSpec, .constantDeclaration, .constantSpec, .name, .block,
  .emptyStatement, .expressionStatement, .assignStatement, .shortVariableDeclaration,
  .stepStatement, .sendStatement, .labeledStatement, .goStatement, .deferStatement,
  .returnStatement, .breakStatement, .continueStatement, .gotoStatement, .fallthroughStatement,
  .ifStatement, .forStatement, .forClause, .rangeClause, .switchStatement, .caseClause,
  .selectStatement, .communicationClause, .declarationStatement, .expressionList, .literal,
  .nameRef, .parenExpression, .unaryExpression, .binaryExpression, .callExpression,
  .argumentList, .selectorExpression, .indexExpression, .sliceExpression,
  .typeAssertExpression, .compositeLiteral, .literalValue, .keyedElement, .functionLiteral,
  .typeName, .typeArguments, .pointerType, .arrayType, .sliceType, .mapType, .channelType,
  .functionType, .structType, .fieldDeclaration, .interfaceType, .methodSpec, .typeElement,
  .parenType, .template, .templateList, .templateAction, .templateIf, .templateRange,
  .templateWith, .templateDefine, .templateBlock, .templateCall, .templateElse, .templateEnd,
  .templateBreak, .templateContinue, .templateReturn, .templatePipeline, .templateDeclaration,
  .templateCommand, .templateFieldChain, .templateVariable, .templateFunction,
  .templateLiteral, .templateDot, .templateParen, .templateChain, .error, .vacant]

/-- The label a kind is printed with. -/
def label : Kind → String
  | .whitespace => "WHITESPACE"
  | .newline => "NEWLINE"
  | .lineComment => "LINE_COMMENT"
  | .blockComment => "BLOCK_COMMENT"
  | .leftParen => "LEFT_PAREN"
  | .rightParen => "RIGHT_PAREN"
  | .leftBracket => "LEFT_BRACKET"
  | .rightBracket => "RIGHT_BRACKET"
  | .leftBrace => "LEFT_BRACE"
  | .rightBrace => "RIGHT_BRACE"
  | .comma => "COMMA"
  | .dot => "DOT"
  | .ellipsis => "ELLIPSIS"
  | .semicolon => "SEMICOLON"
  | .colon => "COLON"
  | .plus => "PLUS"
  | .minus => "MINUS"
  | .star => "STAR"
  | .slash => "SLASH"
  | .percent => "PERCENT"
  | .amp => "AMP"
  | .pipe => "PIPE"
  | .caret => "CARET"
  | .shiftLeft => "SHL"
  | .shiftRight => "SHR"
  | .andNot => "AMP_CARET"
  | .plusEq => "PLUS_EQ"
  | .minusEq => "MINUS_EQ"
  | .starEq => "STAR_EQ"
  | .slashEq => "SLASH_EQ"
  | .percentEq => "PERCENT_EQ"
  | .ampEq => "AMP_EQ"
  | .pipeEq => "PIPE_EQ"
  | .caretEq => "CARET_EQ"
  | .shiftLeftEq => "SHL_EQ"
  | .shiftRightEq => "SHR_EQ"
  | .andNotEq => "AMP_CARET_EQ"
  | .andAnd => "AMP_AMP"
  | .orOr => "PIPE_PIPE"
  | .arrow => "ARROW"
  | .increment => "PLUS_PLUS"
  | .decrement => "MINUS_MINUS"
  | .eqEq => "EQ_EQ"
  | .notEq => "NEQ"
  | .less => "LT"
  | .lessEq => "LTEQ"
  | .greater => "GT"
  | .greaterEq => "GTEQ"
  | .assign => "EQ"
  | .define => "COLON_EQ"
  | .bang => "BANG"
  | .tilde => "TILDE"
  | .breakKeyword => "BREAK_KW"
  | .caseKeyword => "CASE_KW"
  | .chanKeyword => "CHAN_KW"
  | .constKeyword => "CONST_KW"
  | .continueKeyword => "CONTINUE_KW"
  | .defaultKeyword => "DEFAULT_KW"
  | .deferKeyword => "DEFER_KW"
  | .elseKeyword => "ELSE_KW"
  | .fallthroughKeyword => "FALLTHROUGH_KW"
  | .forKeyword => "FOR_KW"
  | .funcKeyword => "FUNC_KW"
  | .goKeyword => "GO_KW"
  | .gotoKeyword => "GOTO_KW"
  | .ifKeyword => "IF_KW"
  | .importKeyword => "IMPORT_KW"
  | .interfaceKeyword => "INTERFACE_KW"
  | .mapKeyword => "MAP_KW"
  | .packageKeyword => "PACKAGE_KW"
  | .rangeKeyword => "RANGE_KW"
  | .returnKeyword => "RETURN_KW"
  | .selectKeyword => "SELECT_KW"
  | .structKeyword => "STRUCT_KW"
  | .switchKeyword => "SWITCH_KW"
  | .typeKeyword => "TYPE_KW"
  | .varKeyword => "VAR_KW"
  | .endKeyword => "END_KW"
  | .withKeyword => "WITH_KW"
  | .defineKeyword => "DEFINE_KW"
  | .templateKeyword => "TEMPLATE_KW"
  | .blockKeyword => "BLOCK_KW"
  | .trueKeyword => "TRUE_KW"
  | .falseKeyword => "FALSE_KW"
  | .nilKeyword => "NIL_KW"
  | .identifier => "IDENT"
  | .intNumber => "INT_NUMBER"
  | .floatNumber => "FLOAT_NUMBER"
  | .imaginaryNumber => "IMAGINARY_NUMBER"
  | .rune => "RUNE"
  | .string => "STRING"
  | .rawString => "RAW_STRING"
  | .unterminatedString => "UNTERMINATED_STRING"
  | .unterminatedRawString => "UNTERMINATED_RAW_STRING"
  | .unterminatedRune => "UNTERMINATED_RUNE"
  | .unterminatedComment => "UNTERMINATED_COMMENT"
  | .badCharacter => "BAD_CHAR"
  | .text => "TEXT"
  | .leftDelimiter => "LEFT_DELIM"
  | .rightDelimiter => "RIGHT_DELIM"
  | .field => "FIELD"
  | .variable => "VARIABLE"
  | .compareOperator => "COMPARE_OP"
  | .logicOperator => "LOGIC_OP"
  | .endOfInput => "EOF"
  | .sourceFile => "SOURCE_FILE"
  | .packageClause => "PACKAGE_CLAUSE"
  | .importDeclaration => "IMPORT_DECL"
  | .importSpec => "IMPORT_SPEC"
  | .functionDeclaration => "FUNC_DECL"
  | .receiver => "RECEIVER"
  | .typeParameterList => "TYPE_PARAM_LIST"
  | .typeParameter => "TYPE_PARAM"
  | .parameterList => "PARAM_LIST"
  | .parameter => "PARAM"
  | .result => "RESULT"
  | .typeDeclaration => "TYPE_DECL"
  | .typeSpec => "TYPE_SPEC"
  | .variableDeclaration => "VAR_DECL"
  | .variableSpec => "VAR_SPEC"
  | .constantDeclaration => "CONST_DECL"
  | .constantSpec => "CONST_SPEC"
  | .name => "NAME"
  | .block => "BLOCK"
  | .emptyStatement => "EMPTY_STMT"
  | .expressionStatement => "EXPR_STMT"
  | .assignStatement => "ASSIGN_STMT"
  | .shortVariableDeclaration => "SHORT_VAR_DECL"
  | .stepStatement => "INC_DEC_STMT"
  | .sendStatement => "SEND_STMT"
  | .labeledStatement => "LABELED_STMT"
  | .goStatement => "GO_STMT"
  | .deferStatement => "DEFER_STMT"
  | .returnStatement => "RETURN_STMT"
  | .breakStatement => "BREAK_STMT"
  | .continueStatement => "CONTINUE_STMT"
  | .gotoStatement => "GOTO_STMT"
  | .fallthroughStatement => "FALLTHROUGH_STMT"
  | .ifStatement => "IF_STMT"
  | .forStatement => "FOR_STMT"
  | .forClause => "FOR_CLAUSE"
  | .rangeClause => "RANGE_CLAUSE"
  | .switchStatement => "SWITCH_STMT"
  | .caseClause => "CASE_CLAUSE"
  | .selectStatement => "SELECT_STMT"
  | .communicationClause => "COMM_CLAUSE"
  | .declarationStatement => "DECL_STMT"
  | .expressionList => "EXPR_LIST"
  | .literal => "LITERAL"
  | .nameRef => "NAME_REF"
  | .parenExpression => "PAREN_EXPR"
  | .unaryExpression => "UNARY_EXPR"
  | .binaryExpression => "BINARY_EXPR"
  | .callExpression => "CALL_EXPR"
  | .argumentList => "ARG_LIST"
  | .selectorExpression => "SELECTOR_EXPR"
  | .indexExpression => "INDEX_EXPR"
  | .sliceExpression => "SLICE_EXPR"
  | .typeAssertExpression => "TYPE_ASSERT_EXPR"
  | .compositeLiteral => "COMPOSITE_LIT"
  | .literalValue => "LITERAL_VALUE"
  | .keyedElement => "KEYED_ELEMENT"
  | .functionLiteral => "FUNC_LIT"
  | .typeName => "TYPE_NAME"
  | .typeArguments => "TYPE_ARGS"
  | .pointerType => "POINTER_TYPE"
  | .arrayType => "ARRAY_TYPE"
  | .sliceType => "SLICE_TYPE"
  | .mapType => "MAP_TYPE"
  | .channelType => "CHAN_TYPE"
  | .functionType => "FUNC_TYPE"
  | .structType => "STRUCT_TYPE"
  | .fieldDeclaration => "FIELD_DECL"
  | .interfaceType => "INTERFACE_TYPE"
  | .methodSpec => "METHOD_SPEC"
  | .typeElement => "TYPE_ELEM"
  | .parenType => "PAREN_TYPE"
  | .template => "TEMPLATE"
  | .templateList => "TMPL_LIST"
  | .templateAction => "TMPL_ACTION"
  | .templateIf => "TMPL_IF"
  | .templateRange => "TMPL_RANGE"
  | .templateWith => "TMPL_WITH"
  | .templateDefine => "TMPL_DEFINE"
  | .templateBlock => "TMPL_BLOCK"
  | .templateCall => "TMPL_TEMPLATE"
  | .templateElse => "TMPL_ELSE"
  | .templateEnd => "TMPL_END"
  | .templateBreak => "TMPL_BREAK"
  | .templateContinue => "TMPL_CONTINUE"
  | .templateReturn => "TMPL_RETURN"
  | .templatePipeline => "TMPL_PIPELINE"
  | .templateDeclaration => "TMPL_DECLARATION"
  | .templateCommand => "TMPL_COMMAND"
  | .templateFieldChain => "TMPL_FIELD_CHAIN"
  | .templateVariable => "TMPL_VARIABLE"
  | .templateFunction => "TMPL_FUNCTION"
  | .templateLiteral => "TMPL_LITERAL"
  | .templateDot => "TMPL_DOT"
  | .templateParen => "TMPL_PAREN"
  | .templateChain => "TMPL_CHAIN"
  | .error => "ERROR"
  | .vacant => "TOMBSTONE"

/-- The kind with a given label. -/
def ofLabel? (s : String) : Option Kind := all.find? (fun k => k.label == s)

/-- The list of all kinds is the list of constructors: the `n`-th one has number `n`. -/
theorem map_number_all : all.map number = List.range 203 := by decide +kernel

/-- Kinds with the same number are equal. -/
theorem number_injective {j k : Kind} (h : j.number = k.number) : j = k := by
  have := congrArg ofNat h
  rwa [number, number, ofNat_ctorIdx, ofNat_ctorIdx] at this

end Kind

end GoFront
