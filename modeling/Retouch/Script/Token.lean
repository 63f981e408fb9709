import Retouch.Script.Diagnostic
import Retouch.Script.Keyword
import Retouch.Script.Punct

/-!
# Tokens

The pieces a script is cut into, with the byte offsets where they stand.
-/

namespace Retouch.Script

/-- What a token is. -/
inductive TokenKind where
  | endOfSource
  | punct (mark : Punct)
  /-- A word that is no keyword. -/
  | name (text : Text)
  | keyword (word : Keyword)
  /-- A name behind a number sign. -/
  | privateName
  | number
  | bigNumber
  | string (value : Text)
  /-- A template from its backquote or a brace on, up to the end or to the next substitution. -/
  | template (fromStart toEnd : Bool) (sound : Bool)
  | regex
  /-- The text between tags. -/
  | markupText (raw : Text)
  /-- Characters that make no token. -/
  | malformed
deriving DecidableEq, Repr

/-- How a token is called in a message. -/
def TokenKind.describe : TokenKind → Text
  | .endOfSource => "EOF".toList
  | .punct mark => mark.text
  | .name _ => "Identifier".toList
  | .keyword word => word.text
  | .privateName => "PrivateIdentifier".toList
  | .number => "number".toList
  | .bigNumber => "bigint".toList
  | .string _ => "string".toList
  | .template .. => "template".toList
  | .regex => "regexp".toList
  | .markupText _ => "JSXText".toList
  | .malformed => "Undetermined".toList

/-- A piece of a script. -/
structure Token where
  kind : TokenKind
  start : Nat
  stop : Nat
  /-- Whether a line ends between the token before it and this one. -/
  onNewLine : Bool
  /-- Whether a word has escapes. -/
  escaped : Bool
  /-- What is wrong with the piece, or with what stands before it. -/
  faults : List Diagnostic
deriving DecidableEq, Repr

namespace TokenKind

/-- The word that a name or keyword is. -/
def word? : TokenKind → Option Text
  | .name text => some text
  | .keyword word => some word.text
  | _ => none

/-- Whether a token can be a name where every word is one. -/
def isWord (k : TokenKind) : Bool := k.word?.isSome

/-- Whether a token can be the name of a variable, with `await` and `yield` where they are no
operators. -/
def isBinding : TokenKind → Bool
  | .name _ => true
  | .keyword word => word.isBinding
  | _ => false

/-- Whether a token is an identifier wherever it stands. -/
def isIdentifier : TokenKind → Bool
  | .name _ => true
  | .keyword word => !word.isReserved
  | _ => false

/-- Whether a token can say something about what stands behind it. -/
def isModifier : TokenKind → Bool
  | .keyword word => word.isModifier
  | _ => false

/-- Whether a token is a literal. -/
def isLiteral : TokenKind → Bool
  | .number | .bigNumber | .string _ | .keyword .true_ | .keyword .false_ | .keyword .null => true
  | _ => false

/-- Whether a token begins a template. -/
def startsTemplate : TokenKind → Bool
  | .template true _ _ => true
  | _ => false

/-- Whether a token can be the name of a property. -/
def startsPropertyName : TokenKind → Bool
  | .number | .bigNumber | .string _ | .privateName | .punct .bracketOpen => true
  | k => k.isWord

end TokenKind

end Retouch.Script
