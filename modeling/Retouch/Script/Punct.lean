import Retouch.Text.Basic

/-!
# Punctuators

The marks of a script. `Punct.longest?` finds the longest one a text begins with; the signs that
begin with `>` are told apart later, since the mark itself also closes tags and type arguments.
-/

namespace Retouch.Script

/-- A mark made of signs. -/
inductive Punct where
  | braceOpen | braceClose | parenOpen | parenClose | bracketOpen | bracketClose | dot | ellipsis
  | semicolon | comma | question | questionDot | coalesce | coalesceAssign | colon | at | arrow
  | assign | equal | identical | not | notEqual | notIdentical | plus | plusPlus | plusAssign
  | minus | minusMinus | minusAssign | star | starAssign | power | powerAssign | slash
  | slashAssign | percent | percentAssign | less | lessEqual | shiftLeft | shiftLeftAssign
  | greater | greaterEqual | shiftRight | shiftRightAssign | shiftRightZero
  | shiftRightZeroAssign | bitAnd | bitAndAssign | logicAnd | logicAndAssign | bitOr
  | bitOrAssign | logicOr | logicOrAssign | caret | caretAssign | tilde
deriving DecidableEq, Repr

namespace Punct

/-- The signs of a mark. -/
def text : Punct → Text
  | .braceOpen => ['\x7b']
  | .braceClose => ['\x7d']
  | .parenOpen => ['(']
  | .parenClose => [')']
  | .bracketOpen => ['[']
  | .bracketClose => [']']
  | .dot => ['.']
  | .ellipsis => ['.', '.', '.']
  | .semicolon => [';']
  | .comma => [',']
  | .question => ['?']
  | .questionDot => ['?', '.']
  | .coalesce => ['?', '?']
  | .coalesceAssign => ['?', '?', '=']
  | .colon => [':']
  | .at => ['@']
  | .arrow => ['=', '>']
  | .assign => ['=']
  | .equal => ['=', '=']
  | .identical => ['=', '=', '=']
  | .not => ['!']
  | .notEqual => ['!', '=']
  | .notIdentical => ['!', '=', '=']
  | .plus => ['+']
  | .plusPlus => ['+', '+']
  | .plusAssign => ['+', '=']
  | .minus => ['-']
  | .minusMinus => ['-', '-']
  | .minusAssign => ['-', '=']
  | .star => ['*']
  | .starAssign => ['*', '=']
  | .power => ['*', '*']
  | .powerAssign => ['*', '*', '=']
  | .slash => ['/']
  | .slashAssign => ['/', '=']
  | .percent => ['%']
  | .percentAssign => ['%', '=']
  | .less => ['<']
  | .lessEqual => ['<', '=']
  | .shiftLeft => ['<', '<']
  | .shiftLeftAssign => ['<', '<', '=']
  | .greater => ['>']
  | .greaterEqual => ['>', '=']
  | .shiftRight => ['>', '>']
  | .shiftRightAssign => ['>', '>', '=']
  | .shiftRightZero => ['>', '>', '>']
  | .shiftRightZeroAssign => ['>', '>', '>', '=']
  | .bitAnd => ['&']
  | .bitAndAssign => ['&', '=']
  | .logicAnd => ['&', '&']
  | .logicAndAssign => ['&', '&', '=']
  | .bitOr => ['|']
  | .bitOrAssign => ['|', '=']
  | .logicOr => ['|', '|']
  | .logicOrAssign => ['|', '|', '=']
  | .caret => ['^']
  | .caretAssign => ['^', '=']
  | .tilde => ['~']

/-- The marks found in code, longer ones first. Of those that begin with `>` only that sign. -/
def inCode : List Punct := [
  .ellipsis, .coalesceAssign, .identical, .notIdentical, .powerAssign, .shiftLeftAssign,
  .logicAndAssign, .logicOrAssign, .questionDot, .coalesce, .arrow, .equal, .notEqual, .plusPlus,
  .plusAssign, .minusMinus, .minusAssign, .starAssign, .power, .slashAssign, .percentAssign,
  .lessEqual, .shiftLeft, .bitAndAssign, .logicAnd, .bitOrAssign, .logicOr, .caretAssign,
  .braceOpen, .braceClose, .parenOpen, .parenClose, .bracketOpen, .bracketClose, .dot,
  .semicolon, .comma, .question, .colon, .at, .assign, .not, .plus, .minus, .star, .slash,
  .percent, .less, .greater, .bitAnd, .bitOr, .caret, .tilde]

/-- The marks that begin with `>`, longer ones first. -/
def fromGreater : List Punct := [.shiftRightZeroAssign, .shiftRightAssign, .shiftRightZero, .greaterEqual, .shiftRight, .greater]

/-- The first of `marks` that `t` begins with. -/
def longest? (marks : List Punct) (t : Text) : Option Punct :=
  marks.find? fun p => p.text.isPrefixOf t

/-- Whether a mark assigns to what stands before it. -/
def assigns : Punct → Bool
  | .assign | .coalesceAssign | .plusAssign | .minusAssign | .starAssign | .powerAssign | .slashAssign
  | .percentAssign | .shiftLeftAssign | .shiftRightAssign | .shiftRightZeroAssign | .bitAndAssign
  | .logicAndAssign | .bitOrAssign | .logicOrAssign | .caretAssign => true
  | _ => false

/-- How closely a binary operator binds; greater binds closer. -/
def precedence? : Punct → Option Nat
  | .coalesce => some 1
  | .logicOr => some 2
  | .logicAnd => some 3
  | .bitOr => some 4
  | .caret => some 5
  | .bitAnd => some 6
  | .equal | .notEqual | .identical | .notIdentical => some 7
  | .less | .greater | .lessEqual | .greaterEqual => some 8
  | .shiftLeft | .shiftRight | .shiftRightZero => some 9
  | .plus | .minus => some 10
  | .star | .slash | .percent => some 11
  | .power => some 12
  | _ => none

example : longest? inCode "===x".toList = some .identical := by decide
example : longest? inCode ">>=".toList = some .greater := by decide
example : longest? fromGreater ">>=".toList = some .shiftRightAssign := by decide

end Punct

end Retouch.Script
