import GoFront.Kind.Basic
import GoFront.Text.Basic

/-!
# Spellings

Operators, punctuation and keywords are always written the same way. Their one table of spellings
serves the lexers, which look a spelling up, and the messages, which quote it.
-/

namespace GoFront.Kind

/-- The way a token of the kind is always written. -/
def spelling? : Kind → Option Text
  | .leftParen => some ['(']
  | .rightParen => some [')']
  | .leftBracket => some ['[']
  | .rightBracket => some [']']
  | .leftBrace => some ['{']
  | .rightBrace => some ['}']
  | .comma => some [',']
  | .dot => some ['.']
  | .ellipsis => some ['.', '.', '.']
  | .semicolon => some [';']
  | .colon => some [':']
  | .plus => some ['+']
  | .minus => some ['-']
  | .star => some ['*']
  | .slash => some ['/']
  | .percent => some ['%']
  | .amp => some ['&']
  | .pipe => some ['|']
  | .caret => some ['^']
  | .shiftLeft => some ['<', '<']
  | .shiftRight => some ['>', '>']
  | .andNot => some ['&', '^']
  | .plusEq => some ['+', '=']
  | .minusEq => some ['-', '=']
  | .starEq => some ['*', '=']
  | .slashEq => some ['/', '=']
  | .percentEq => some ['%', '=']
  | .ampEq => some ['&', '=']
  | .pipeEq => some ['|', '=']
  | .caretEq => some ['^', '=']
  | .shiftLeftEq => some ['<', '<', '=']
  | .shiftRightEq => some ['>', '>', '=']
  | .andNotEq => some ['&', '^', '=']
  | .andAnd => some ['&', '&']
  | .orOr => some ['|', '|']
  | .arrow => some ['<', '-']
  | .increment => some ['+', '+']
  | .decrement => some ['-', '-']
  | .eqEq => some ['=', '=']
  | .notEq => some ['!', '=']
  | .less => some ['<']
  | .lessEq => some ['<', '=']
  | .greater => some ['>']
  | .greaterEq => some ['>', '=']
  | .assign => some ['=']
  | .define => some [':', '=']
  | .bang => some ['!']
  | .tilde => some ['~']
  | .breakKeyword => some ['b', 'r', 'e', 'a', 'k']
  | .caseKeyword => some ['c', 'a', 's', 'e']
  | .chanKeyword => some ['c', 'h', 'a', 'n']
  | .constKeyword => some ['c', 'o', 'n', 's', 't']
  | .continueKeyword => some ['c', 'o', 'n', 't', 'i', 'n', 'u', 'e']
  | .defaultKeyword => some ['d', 'e', 'f', 'a', 'u', 'l', 't']
  | .deferKeyword => some ['d', 'e', 'f', 'e', 'r']
  | .elseKeyword => some ['e', 'l', 's', 'e']
  | .fallthroughKeyword => some ['f', 'a', 'l', 'l', 't', 'h', 'r', 'o', 'u', 'g', 'h']
  | .forKeyword => some ['f', 'o', 'r']
  | .funcKeyword => some ['f', 'u', 'n', 'c']
  | .goKeyword => some ['g', 'o']
  | .gotoKeyword => some ['g', 'o', 't', 'o']
  | .ifKeyword => some ['i', 'f']
  | .importKeyword => some ['i', 'm', 'p', 'o', 'r', 't']
  | .interfaceKeyword => some ['i', 'n', 't', 'e', 'r', 'f', 'a', 'c', 'e']
  | .mapKeyword => some ['m', 'a', 'p']
  | .packageKeyword => some ['p', 'a', 'c', 'k', 'a', 'g', 'e']
  | .rangeKeyword => some ['r', 'a', 'n', 'g', 'e']
  | .returnKeyword => some ['r', 'e', 't', 'u', 'r', 'n']
  | .selectKeyword => some ['s', 'e', 'l', 'e', 'c', 't']
  | .structKeyword => some ['s', 't', 'r', 'u', 'c', 't']
  | .switchKeyword => some ['s', 'w', 'i', 't', 'c', 'h']
  | .typeKeyword => some ['t', 'y', 'p', 'e']
  | .varKeyword => some ['v', 'a', 'r']
  | .endKeyword => some ['e', 'n', 'd']
  | .withKeyword => some ['w', 'i', 't', 'h']
  | .defineKeyword => some ['d', 'e', 'f', 'i', 'n', 'e']
  | .templateKeyword => some ['t', 'e', 'm', 'p', 'l', 'a', 't', 'e']
  | .blockKeyword => some ['b', 'l', 'o', 'c', 'k']
  | .trueKeyword => some ['t', 'r', 'u', 'e']
  | .falseKeyword => some ['f', 'a', 'l', 's', 'e']
  | .nilKeyword => some ['n', 'i', 'l']
  | _ => none

/-- The words the source language reserves. -/
def sourceKeywords : List Kind := [
  .breakKeyword, .caseKeyword, .chanKeyword, .constKeyword, .continueKeyword, .defaultKeyword,
  .deferKeyword, .elseKeyword, .fallthroughKeyword, .forKeyword, .funcKeyword, .goKeyword,
  .gotoKeyword, .ifKeyword, .importKeyword, .interfaceKeyword, .mapKeyword, .packageKeyword,
  .rangeKeyword, .returnKeyword, .selectKeyword, .structKeyword, .switchKeyword, .typeKeyword,
  .varKeyword]

/-- The words the template language reserves. -/
def templateKeywords : List Kind := [
  .ifKeyword, .elseKeyword, .endKeyword, .rangeKeyword, .withKeyword, .defineKeyword,
  .templateKeyword, .blockKeyword, .breakKeyword, .continueKeyword, .returnKeyword, .trueKeyword,
  .falseKeyword, .nilKeyword]

/-- Operators and punctuation of the source language, longer spellings first, so that the first one
that fits is the longest. -/
def sourceOperators : List Kind := [
  .ellipsis, .shiftLeftEq, .shiftRightEq, .andNotEq,
  .shiftLeft, .shiftRight, .andNot, .plusEq, .minusEq, .starEq, .slashEq, .percentEq, .ampEq,
  .pipeEq, .caretEq, .andAnd, .orOr, .arrow, .increment, .decrement, .eqEq, .notEq, .lessEq,
  .greaterEq, .define,
  .leftParen, .rightParen, .leftBracket, .rightBracket, .leftBrace, .rightBrace, .comma, .dot,
  .semicolon, .colon, .plus, .minus, .star, .slash, .percent, .amp, .pipe, .caret, .less, .greater,
  .assign, .bang, .tilde]

/-- The kind among `ks` that is spelled `word`. -/
def spelled? (ks : List Kind) (word : Text) : Option Kind :=
  ks.find? (fun k => k.spelling? == some word)

/-- The source keyword spelled `word`. -/
def ofKeyword? (word : Text) : Option Kind := spelled? sourceKeywords word

/-- The template keyword spelled `word`. -/
def ofTemplateKeyword? (word : Text) : Option Kind := spelled? templateKeywords word

/-- Assignments that also compute, such as `+=`. -/
def isCompoundAssignment : Kind → Bool
  | .plusEq | .minusEq | .starEq | .slashEq | .percentEq | .ampEq | .pipeEq | .caretEq
  | .shiftLeftEq | .shiftRightEq | .andNotEq => true
  | _ => false

/-- What a token of a kind without a spelling of its own is called in messages. -/
def noun : Kind → String
  | .newline => "newline"
  | .identifier => "identifier"
  | .intNumber | .floatNumber | .imaginaryNumber => "number"
  | .rune | .unterminatedRune => "rune literal"
  | .string | .rawString | .unterminatedString | .unterminatedRawString => "string"
  | .badCharacter => "invalid character"
  | .text => "text"
  | .leftDelimiter => "left delimiter"
  | .rightDelimiter => "right delimiter"
  | .field => "field"
  | .variable => "variable"
  | .compareOperator => "comparison"
  | .logicOperator => "logical operator"
  | .endOfInput => "end of file"
  | _ => "syntax"

/-- How messages speak of a token: the quoted spelling if it has one, else a noun. -/
def describe (k : Kind) : String :=
  if k.isCompoundAssignment then "assignment operator"
  else match k.spelling? with
    | some word => "'" ++ String.ofList word ++ "'"
    | none => k.noun

/-- A kind found by its spelling has that spelling. -/
theorem spelling?_of_spelled? {ks : List Kind} {word : Text} {k : Kind}
    (h : spelled? ks word = some k) : k.spelling? = some word := by
  simpa using List.find?_some h

end GoFront.Kind
