import Retouch.Json.Record

/-!
# Dialects

The two kinds of source: script with markup, with or without types.
-/

namespace Retouch

/-- The kind of a source. -/
inductive Dialect where
  /-- Markup and types. -/
  | tsx
  /-- Markup only. -/
  | jsx
deriving DecidableEq, Repr, Inhabited

namespace Dialect

/-- Whether types may be written. -/
def typed : Dialect → Bool
  | tsx => true
  | jsx => false

/-- The word for a dialect. -/
def word : Dialect → Text
  | tsx => "tsx".toList
  | jsx => "jsx".toList

/-- The dialect that a word names. -/
def ofWord? (t : Text) : Option Dialect := [tsx, jsx].find? fun d => d.word == t

/-- The dialect in a JSON value. -/
def ofJson? (v : Json) : Option Dialect := (Json.choice? v).bind ofWord?

/-- A dialect as a JSON value. -/
def toJson (d : Dialect) : Json := .string d.word

end Dialect

end Retouch
