import Retouch.Edit.Basic

/-!
# Edits in JSON

An edit is an object with its fields and a tag `kind`, which says whether it is one of text or of
style.
-/

namespace Retouch

open Json (required optional record? text? bool? float? nat? optional? max32)

namespace Address

/-- The address in a JSON value. -/
def ofJson? (v : Json) : Option Address := do
  match ← record? [required "tag", required "index"] v with
  | [some tag, some index] => return of (← text? tag) (← nat? max32 index)
  | _ => none

/-- An address as a JSON value. -/
def toJson (a : Address) : Json :=
  .object [("tag".toList, .string a.tag), ("index".toList, .ofNat a.index)]

end Address

namespace TextEdit

/-- The edit of text in a JSON value. -/
def ofJson? (v : Json) : Option TextEdit := do
  match ← record? [required "address", required "text"] v with
  | [some address, some text] => return ⟨← Address.ofJson? address, ← text? text⟩
  | _ => none

/-- The fields of an edit of text. -/
def fields (edit : TextEdit) : List (Text × Json) :=
  [("address".toList, edit.address.toJson), ("text".toList, .string edit.text)]

end TextEdit

namespace StyleEdit

/-- The parts of an edit of style. -/
def parts : List Json.Part :=
  [required "address", required "backgroundColor", required "textColor", required "fontSizePx",
    required "bold", optional "targetTag"]

/-- The edit of style in a JSON value. -/
def ofJson? (v : Json) : Option StyleEdit := do
  match ← record? parts v with
  | [some address, some background, some color, some size, some bold, target] =>
    return {
      address := ← Address.ofJson? address
      backgroundColor := ← Color.ofJson? background
      textColor := ← Color.ofJson? color
      fontSize := ← float? size
      bold := ← bool? bold
      targetTag := ← optional? text? target }
  | _ => none

/-- The fields of an edit of style. -/
def fields (edit : StyleEdit) : List (Text × Json) :=
  [("address".toList, edit.address.toJson),
    ("backgroundColor".toList, edit.backgroundColor.toJson),
    ("textColor".toList, edit.textColor.toJson),
    ("fontSizePx".toList, .ofFloat edit.fontSize),
    ("bold".toList, .bool edit.bold)]
  ++ match edit.targetTag with
    | none => []
    | some tag => [("targetTag".toList, .string tag)]

end StyleEdit

namespace PendingEdit

/-- The tag that says what kind an edit has. -/
def kindTag : Text := "kind".toList

/-- The word for the kind of an edit. -/
def kind : PendingEdit → Text
  | text _ => "text".toList
  | style _ => "style".toList

/-- The edit in a JSON value. -/
def ofJson? (v : Json) : Option PendingEdit := do
  let (kind, rest) ← Json.tagged? kindTag v
  if kind == "text".toList then return text (← TextEdit.ofJson? rest)
  else if kind == "style".toList then return style (← StyleEdit.ofJson? rest)
  else none

/-- An edit as a JSON value. -/
def toJson (edit : PendingEdit) : Json :=
  .object ((kindTag, .string edit.kind) :: match edit with
    | text e => e.fields
    | style e => e.fields)

end PendingEdit

end Retouch
