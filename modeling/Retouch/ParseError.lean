import Retouch.Script.Diagnostic

/-!
# Parse errors

Why a source cannot be read, as it is told to a user.
-/

namespace Retouch

/-- Why a source cannot be read, and the byte offset where that shows. -/
inductive ParseError where
  | syntaxError (offset : Nat) (message : Text)
  /-- Nothing more can be said than that reading stopped. -/
  | gaveUp (offset : Nat)
deriving DecidableEq

namespace ParseError

/-- The error that a diagnostic tells of. -/
def ofDiagnostic (d : Script.Diagnostic) : ParseError := .syntaxError d.offset d.cause.message

/-- Where the error shows. -/
def offset : ParseError → Nat
  | syntaxError offset _ => offset
  | gaveUp offset => offset

/-- What is wrong. -/
def message : ParseError → Text
  | syntaxError _ message => message
  | gaveUp _ => "source could not be parsed".toList

/-- What is wrong and where. -/
def display : ParseError → Text
  | syntaxError offset message =>
    "Syntax error at ".toList ++ Nat.toDigits 10 offset ++ ": ".toList ++ message
  | gaveUp offset => "Parser gave up at ".toList ++ Nat.toDigits 10 offset

end ParseError

end Retouch
