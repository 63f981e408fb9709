import Retouch.Json.Value

/-!
# Records in JSON

How records and choices are read from JSON values.

* A record is an object with a field for each part, others ignored and none of its own given
  twice, or an array of the parts in order. Parts that may be missing may be left out, in an array
  only at the end.
* A choice between records is told by a tag: one field of the object, or the first item of the
  array. All the rest of the value must be readable, also what is ignored then.
* A choice between words is a string, or an object that gives null to the word.
-/

namespace Retouch.Json

/-- A part of a record: its name, and whether it may be missing. -/
structure Part where
  name : Text
  optional : Bool

/-- A part that must be given. -/
def required (name : String) : Part := ⟨name.toList, false⟩

/-- A part that may be missing. -/
def optional (name : String) : Part := ⟨name.toList, true⟩

/-- The values that the fields called `name` have, in order. -/
def valuesOf (name : Text) (fields : List (Text × Json)) : List Json :=
  (fields.filter fun field => field.1 == name).map Prod.snd

/-- The value of one part in the fields of an object. The outer `none` is an error. -/
def partOf? (fields : List (Text × Json)) (part : Part) : Option (Option Json) :=
  match valuesOf part.name fields with
  | [] => if part.optional then some none else none
  | [v] => some (some v)
  | _ => none

/-- The parts given by the items of an array. -/
def partsOfItems? : List Part → List Json → Option (List (Option Json))
  | [], [] => some []
  | [], _ :: _ => none
  | part :: parts, [] => if part.optional then (partsOfItems? parts []).map (none :: ·) else none
  | _ :: parts, v :: items => (partsOfItems? parts items).map (some v :: ·)

/-- The values of the parts of a record, in the order of `parts`. -/
def record? (parts : List Part) : Json → Option (List (Option Json))
  | object fields => parts.mapM (partOf? fields)
  | array items => partsOfItems? parts items
  | _ => none

/-- The deepest nesting of arrays and objects that is read. -/
def maxDepth : Nat := 127

/-- The tag of a choice and the value without it. -/
def tagged? (tag : Text) (v : Json) : Option (Text × Json) :=
  if v.depth ≤ maxDepth && v.readable then
    match v with
    | object fields =>
      match valuesOf tag fields with
      | [string choice] => some (choice, object (fields.filter fun field => field.1 != tag))
      | _ => none
    | array (string choice :: items) => some (choice, array items)
    | _ => none
  else none

/-- The word of a choice between words. -/
def choice? : Json → Option Text
  | string text => some text
  | object [(name, null)] => some name
  | _ => none

/-- The word of a choice between words inside a tagged value, where an empty object will do for
null. -/
def taggedChoice? : Json → Option Text
  | object [(name, object [])] => some name
  | v => choice? v

/-- A text. -/
def text? : Json → Option Text
  | string text => some text
  | _ => none

/-- A truth value. -/
def bool? : Json → Option Bool
  | bool b => some b
  | _ => none

/-- A whole number from 0 to `limit`. -/
def nat? (limit : Nat) : Json → Option Nat
  | number literal => literal.toNat? limit
  | _ => none

/-- The greatest number of 32 bits. -/
def max32 : Nat := 0xffffffff

/-- The greatest number of 64 bits. -/
def max64 : Nat := 0xffffffffffffffff

/-- A float. -/
def float? : Json → Option Float
  | number literal => literal.toFloat?
  | _ => none

/-- A value, or none for null and for a missing part. -/
def optional? {α : Type} (decode : Json → Option α) : Option Json → Option (Option α)
  | none => some none
  | some null => some none
  | some v => (decode v).map some

/-- A value, or `default` for a missing part. Null is no value. -/
def orDefault? {α : Type} (default : α) (decode : Json → Option α) : Option Json → Option α
  | none => some default
  | some v => decode v

end Retouch.Json
