import Retouch.Text.Basic

/-!
# Diagnostics

What can be wrong with a script, where, and how it is told to the user.
-/

namespace Retouch.Script

/-- What is wrong with a script. -/
inductive Cause where
  /-- A token that cannot stand where it does. -/
  | unexpectedToken
  /-- Another token than the one that has to follow. -/
  | expected (wanted found : Text)
  | unexpectedCharacter
  | unterminatedString
  | unterminatedComment
  | unterminatedRegex
  | invalidEscape
  | invalidNumber
  | invalidRegexFlag
  /-- A closing tag that does not close the element open there, whose name is given. -/
  | closingTagMismatch (name : Text)
  /-- A sign that begins or ends code, bare in the text of an element. -/
  | bareGreater
  | bareBrace
  | emptyAttributeExpression
  | hyphenInMember
  | semicolonMissing
  | constWithoutValue
  | patternWithoutValue
  | functionWithoutName
  | invalidTarget
  /-- `name = value` in an object that turned out to be no pattern. -/
  | defaultOutsidePattern
  | escapedKeyword
  | reservedName (name : Text)
  | returnOutsideFunction
  | awaitOutsideAsync
  | yieldOutsideGenerator
  | operatorAsName (name : Text)
  | lineBreak
  | mixedCoalesce
  | unaryBeforePower
  | superAlone
  | chainNotAllowed
  | declarationNotAllowed
  | handlerMissing
  | restNotLast
  | typesNotAllowed
  | misplacedModifier
  | misplacedDecorator
  | emptyTypeList
deriving DecidableEq, Repr

/-- The message shown to the user. -/
def Cause.message : Cause → Text
  | .unexpectedToken => "Unexpected token".toList
  | .expected wanted found =>
    "Expected `".toList ++ wanted ++ "` but found `".toList ++ found ++ "`".toList
  | .unexpectedCharacter => "Invalid Character".toList
  | .unterminatedString => "Unterminated string".toList
  | .unterminatedComment => "Unterminated multiline comment".toList
  | .unterminatedRegex => "Unterminated regular expression".toList
  | .invalidEscape => "Invalid escape sequence".toList
  | .invalidNumber => "Invalid Number".toList
  | .invalidRegexFlag => "Unexpected flag in regular expression literal".toList
  | .closingTagMismatch name =>
    "Expected corresponding JSX closing tag for '".toList ++ name ++ "'.".toList
  | .bareGreater => "Unexpected token. Did you mean `\x7b'>'\x7d` or `&gt;`?".toList
  | .bareBrace => "Unexpected token. Did you mean `\x7b'\x7d'\x7d` or `&rbrace;`?".toList
  | .emptyAttributeExpression =>
    "JSX attributes must only be assigned a non-empty 'expression'.".toList
  | .hyphenInMember => "Identifiers in JSX cannot contain hyphens".toList
  | .semicolonMissing =>
    "Expected a semicolon or an implicit semicolon after a statement, but found none".toList
  | .constWithoutValue => "Missing initializer in const declaration".toList
  | .patternWithoutValue => "Missing initializer in destructuring declaration".toList
  | .functionWithoutName => "Expected function name".toList
  | .invalidTarget => "Cannot assign to this expression".toList
  | .defaultOutsidePattern => "Invalid assignment in object literal".toList
  | .escapedKeyword => "Keywords cannot contain escape characters".toList
  | .reservedName name => "Identifier expected. '".toList ++ name ++
    "' is a reserved word that cannot be used here.".toList
  | .returnOutsideFunction =>
    "A 'return' statement can only be used within a function body.".toList
  | .awaitOutsideAsync =>
    "`await` is only allowed within async functions and at the top levels of modules".toList
  | .yieldOutsideGenerator =>
    "A 'yield' expression is only allowed in a generator body.".toList
  | .operatorAsName name => "Cannot use `".toList ++ name ++ "` as an identifier here".toList
  | .lineBreak => "Line terminator not permitted here".toList
  | .mixedCoalesce => "Logical expressions and coalesce expressions cannot be mixed".toList
  | .unaryBeforePower => "Unexpected exponentiation expression".toList
  | .superAlone => "'super' can only be used with function calls or in property accesses".toList
  | .chainNotAllowed => "Optional chain is not allowed here".toList
  | .declarationNotAllowed =>
    "Declarations are not allowed in single-statement contexts".toList
  | .handlerMissing => "Expected `catch` or `finally` after the try block".toList
  | .restNotLast => "A rest element must be last".toList
  | .typesNotAllowed => "Types can only be used in typed sources".toList
  | .misplacedModifier => "A modifier cannot be used here".toList
  | .misplacedDecorator => "Decorators are not valid here.".toList
  | .emptyTypeList => "A list of types cannot be empty".toList

/-- Something wrong with a script, and the byte offset where it shows. -/
structure Diagnostic where
  offset : Nat
  cause : Cause
deriving DecidableEq, Repr

end Retouch.Script
