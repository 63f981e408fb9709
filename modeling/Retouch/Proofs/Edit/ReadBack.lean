import Retouch.Edit.Json
import Retouch.Proofs.Address.Matching
import Retouch.Proofs.Decimal.Floats
import Retouch.Proofs.Preview.Frames
import Retouch.Proofs.Style.Language

/-!
# Edits are read back from JSON

What reading checks and puts into normal spelling is so already in every edit: a normal tag name stays
itself, and so does a colour. An edit that was written is therefore read as itself, but for its font
size, which is what the number is read as (`PendingEdit.read?_write`). An edit that was read from any
text fits the wire, so it can be written and read again.
-/

namespace Retouch

open Json (required optional record? SpeltFields)

namespace Address

/-- An address is that of its own name and rank. -/
theorem of_tag_index (a : Address) : of a.tag a.index = a := ext a.normal rfl

theorem ofJson?_toJson {a : Address} (h : a.index ≤ Json.max32) : ofJson? a.toJson = some a := by
  rw [toJson, ofJson?_object, if_pos h, of_tag_index]

/-- The rank of an address that was read is a number of 32 bits. -/
theorem index_le_of_ofJson? {v : Json} {a : Address} (h : ofJson? v = some a) :
    a.index ≤ Json.max32 := by
  obtain ⟨tag, index, hfields, rfl⟩ := ofJson?_eq_some_iff.1 h
  cases hfields with
  | object name rank fits => exact Decimal.Literal.toNat?_le fits
  | array fits => exact Decimal.Literal.toNat?_le fits

theorem spelt_toJson (a : Address) : a.toJson.Spelt :=
  ⟨trivial, Decimal.Literal.spelt_ofNat a.index, trivial⟩

end Address

theorem Color.ofJson?_toJson (color : Color) : ofJson? color.toJson = some color := by
  show (ofText color.text).toOption = some color
  rw [color.ofText_text]
  rfl

namespace TextEdit

/-- An edit of text is read as itself. -/
theorem ofJson?_fields {edit : TextEdit} (h : edit.address.index ≤ Json.max32) :
    ofJson? (.object edit.fields) = some edit := by
  have hrecord : record? [required "address", required "text"] (.object edit.fields)
      = some [some edit.address.toJson, some (.string edit.text)] := rfl
  unfold ofJson?
  refine Option.bind_eq_some_iff.2 ⟨_, hrecord, ?_⟩
  refine Option.bind_eq_some_iff.2 ⟨edit.address, Address.ofJson?_toJson h, ?_⟩
  exact Option.bind_eq_some_iff.2 ⟨edit.text, rfl, rfl⟩

theorem index_le_of_ofJson? {v : Json} {edit : TextEdit} (h : ofJson? v = some edit) :
    edit.address.index ≤ Json.max32 := by
  obtain ⟨parts, -, h⟩ := Option.bind_eq_some_iff.1 h
  split at h
  · obtain ⟨address, haddress, h⟩ := Option.bind_eq_some_iff.1 h
    obtain ⟨text, -, h⟩ := Option.bind_eq_some_iff.1 h
    cases h
    exact Address.index_le_of_ofJson? haddress
  · cases h

end TextEdit

namespace StyleEdit

/-- An edit of style is read as itself, with the size that its number is read as. -/
theorem ofJson?_fields {edit : StyleEdit} (h : edit.address.index ≤ Json.max32) :
    ofJson? (.object edit.fields)
      = (Json.float? (.ofFloat edit.fontSize)).map fun size => { edit with fontSize := size } := by
  obtain ⟨address, background, color, fontSize, bold, target⟩ := edit
  have hrecord : record? parts
      (.object (StyleEdit.mk address background color fontSize bold target).fields)
        = some [some address.toJson, some background.toJson, some color.toJson,
            some (.ofFloat fontSize), some (.bool bold), target.map Json.string] := by
    cases target <;> rfl
  have htarget : Json.optional? Json.text? (target.map Json.string) = some target := by
    cases target <;> rfl
  rw [ofJson?, hrecord]
  simp only [Option.bind_eq_bind, Option.bind_some, Address.ofJson?_toJson h,
    Color.ofJson?_toJson, htarget]
  cases Json.float? (.ofFloat fontSize) <;> rfl

theorem index_le_of_ofJson? {v : Json} {edit : StyleEdit} (h : ofJson? v = some edit) :
    edit.address.index ≤ Json.max32 := by
  obtain ⟨parts, -, h⟩ := Option.bind_eq_some_iff.1 h
  split at h
  · obtain ⟨address, haddress, h⟩ := Option.bind_eq_some_iff.1 h
    obtain ⟨background, -, h⟩ := Option.bind_eq_some_iff.1 h
    obtain ⟨color, -, h⟩ := Option.bind_eq_some_iff.1 h
    obtain ⟨size, -, h⟩ := Option.bind_eq_some_iff.1 h
    obtain ⟨bold, -, h⟩ := Option.bind_eq_some_iff.1 h
    obtain ⟨target, -, h⟩ := Option.bind_eq_some_iff.1 h
    cases h
    exact Address.index_le_of_ofJson? haddress
  · cases h

end StyleEdit

namespace PendingEdit

/-- The edit that a text of JSON holds. -/
def read? (t : Text) : Option PendingEdit := (Json.parse? t).bind ofJson?

/-- Whether the rank in the address of an edit has the size of those on the wire. -/
def Fits (edit : PendingEdit) : Prop := edit.address.index ≤ Json.max32

/-- The colours of an edit. -/
def colors : PendingEdit → List Color
  | text _ => []
  | style edit => [edit.backgroundColor, edit.textColor]

/-- The font size of an edit, if it has one. -/
def fontSize? : PendingEdit → Option Float
  | text _ => none
  | style edit => some edit.fontSize

/-- Whether the font size of an edit, if it has one, is read as itself. -/
def SizeReadBack (edit : PendingEdit) : Prop :=
  ∀ size ∈ edit.fontSize?, Json.float? (.ofFloat size) = some size

/-- An edit with what the number of its font size is read as in the place of that, if it has one and that
can be read. -/
def reread : PendingEdit → Option PendingEdit
  | text edit => some (text edit)
  | style edit =>
    (Json.float? (.ofFloat edit.fontSize)).map fun size => style { edit with fontSize := size }

theorem reread_of_sizeReadBack {edit : PendingEdit} (h : edit.SizeReadBack) :
    edit.reread = some edit := by
  cases edit with
  | text e => rfl
  | style e => rw [reread, h e.fontSize rfl, Option.map_some]

/-! ## Reading what was written -/

/-- The JSON of an edit can be spelt. -/
theorem spelt_toJson (edit : PendingEdit) : edit.toJson.Spelt := by
  refine ⟨trivial, ?_⟩
  cases edit with
  | text e => exact ⟨e.address.spelt_toJson, trivial, trivial⟩
  | style e =>
    have hsize := Json.spelt_ofFloat e.fontSize
    obtain ⟨address, background, color, fontSize, bold, target⟩ := e
    cases target with
    | none => exact ⟨address.spelt_toJson, trivial, trivial, hsize, trivial, trivial⟩
    | some tag => exact ⟨address.spelt_toJson, trivial, trivial, hsize, trivial, trivial, trivial⟩

theorem tagged?_toJson_text (e : TextEdit) :
    Json.tagged? kindTag (text e).toJson = some ("text".toList, .object e.fields) := by
  refine Json.tagged?_object rfl ?_ ?_
  · simp [TextEdit.fields, Address.toJson, Json.readableFields, Json.readable, Json.readable_ofNat]
  · simp [TextEdit.fields, Address.toJson, Json.depthFields, Json.depth, Json.ofNat, Json.maxDepth]

theorem tagged?_toJson_style (e : StyleEdit) :
    Json.tagged? kindTag (style e).toJson
      = if (Json.ofFloat e.fontSize).readable then some ("style".toList, .object e.fields) else none := by
  have hreadable : Json.readableFields e.fields = (Json.ofFloat e.fontSize).readable := by
    obtain ⟨address, background, color, fontSize, bold, target⟩ := e
    cases target <;>
      simp [StyleEdit.fields, Address.toJson, Color.toJson, Json.readableFields, Json.readable,
        Json.readable_ofNat]
  rw [← hreadable]
  have hdepth := Json.depth_ofFloat e.fontSize
  obtain ⟨address, background, color, fontSize, bold, target⟩ := e
  refine Json.tagged?_object_eq ?_ ?_
  · cases target <;> rfl
  · cases target <;>
      simp [StyleEdit.fields, Address.toJson, Color.toJson, Json.depthFields, Json.depth,
        Json.ofNat, Json.maxDepth, hdepth]

/-- A number that is read as a float is readable. -/
theorem readable_of_float? {v : Json} {x : Float} (h : Json.float? v = some x) : v.readable = true := by
  cases v with
  | number l =>
    have hfloat : l.toFloat? = some x := h
    rw [Json.readable, hfloat, Option.isSome_some, Bool.or_true]
  | _ => cases h

theorem ofJson?_of_text {v rest : Json} (h : Json.tagged? kindTag v = some ("text".toList, rest)) :
    ofJson? v = (TextEdit.ofJson? rest).map text := by
  simp only [ofJson?, h, Option.bind_eq_bind, Option.bind_some]
  rw [if_pos (beq_self_eq_true _), Option.map_eq_bind]
  rfl

theorem ofJson?_of_style {v rest : Json} (h : Json.tagged? kindTag v = some ("style".toList, rest)) :
    ofJson? v = (StyleEdit.ofJson? rest).map style := by
  have htext : ¬ ("style".toList == "text".toList) = true := by decide +kernel
  simp only [ofJson?, h, Option.bind_eq_bind, Option.bind_some]
  rw [if_neg htext, if_pos (beq_self_eq_true _), Option.map_eq_bind]
  rfl

theorem ofJson?_toJson {edit : PendingEdit} (h : edit.Fits) : ofJson? edit.toJson = edit.reread := by
  cases edit with
  | text e => rw [ofJson?_of_text (tagged?_toJson_text e), TextEdit.ofJson?_fields h]; rfl
  | style e =>
    have hfields := @StyleEdit.ofJson?_fields e h
    have htagged := tagged?_toJson_style e
    split at htagged
    · rw [ofJson?_of_style htagged, hfields, Option.map_map]
      rfl
    · next hunreadable =>
      have hnone : Json.float? (.ofFloat e.fontSize) = none :=
        Option.eq_none_iff_forall_ne_some.2 fun size hsize => hunreadable (readable_of_float? hsize)
      rw [ofJson?, htagged, reread, hnone]
      rfl

theorem read?_write {edit : PendingEdit} (h : edit.Fits) :
    read? edit.toJson.write = edit.reread := by
  rw [read?, Json.parse?_write edit.spelt_toJson]
  exact ofJson?_toJson h

/-! ## Writing what was read -/

/-- An edit that was read fits the wire. -/
theorem fits_of_ofJson? {v : Json} {edit : PendingEdit} (h : ofJson? v = some edit) : edit.Fits := by
  obtain ⟨⟨kind, rest⟩, -, h⟩ := Option.bind_eq_some_iff.1 h
  dsimp only at h
  split at h
  · obtain ⟨e, he, h⟩ := Option.bind_eq_some_iff.1 h
    cases h
    exact TextEdit.index_le_of_ofJson? he
  · split at h
    · obtain ⟨e, he, h⟩ := Option.bind_eq_some_iff.1 h
      cases h
      exact StyleEdit.index_le_of_ofJson? he
    · cases h

theorem fits_of_read? {t : Text} {edit : PendingEdit} (h : read? t = some edit) : edit.Fits := by
  obtain ⟨v, -, hv⟩ := Option.bind_eq_some_iff.1 h
  exact fits_of_ofJson? hv

/-- **Edits survive JSON.** An edit that was written is read as itself, but for its font size, which is
what the number is read as. So is one that any text gave: its address is in normal spelling and its
colours are taken for themselves, so that reading it again checks nothing new. If the number is read as
itself, all of the edit is. -/
theorem read?_roundTrip :
    (∀ edit : PendingEdit, edit.Fits → read? edit.toJson.write = edit.reread ∧
        (edit.SizeReadBack → read? edit.toJson.write = some edit)) ∧
      ∀ (t : Text) (edit : PendingEdit), read? t = some edit →
        edit.Fits ∧ Address.of edit.address.tag edit.address.index = edit.address ∧
          (∀ color ∈ edit.colors, Color.ofText color.text = .ok color) ∧
          read? edit.toJson.write = edit.reread ∧
          (edit.SizeReadBack → read? edit.toJson.write = some edit) := by
  have hself : ∀ {edit : PendingEdit}, edit.Fits → edit.SizeReadBack →
      read? edit.toJson.write = some edit := fun hfits hsize =>
    (read?_write hfits).trans (reread_of_sizeReadBack hsize)
  refine ⟨fun edit h => ⟨read?_write h, hself h⟩, fun t edit h => ?_⟩
  have hfits := fits_of_read? h
  exact ⟨hfits, edit.address.of_tag_index, fun color _ => color.ofText_text, read?_write hfits,
    hself hfits⟩

/-- An edit of style with a new name is read as itself. So is one that an array gave, with blanks
around its name and its colour. -/
theorem read?_roundTrip_style :
    (∃ edit : StyleEdit, edit = ⟨.of ['p'] 0, .white, .black, 12.5, true, some ['h', '1']⟩ ∧
        read? (style edit).toJson.write = some (style edit)) ∧
      ∃ edit, read? "[\"style\",[\" P\",0],\" #FFF \",\"red\",12.5,true]".toList = some edit ∧
        read? edit.toJson.write = some edit := by
  have hsize : Json.float? (.ofFloat 12.5) = some 12.5 := by decide +kernel
  refine ⟨⟨_, rfl, (read?_roundTrip.1 _ (Nat.zero_le _)).2 fun size h => ?_⟩, ?_⟩
  · exact Option.some.inj h ▸ hsize
  have hread : (read? "[\"style\",[\" P\",0],\" #FFF \",\"red\",12.5,true]".toList).any
      (fun edit => decide (edit.fontSize? = some 12.5)) = true := by decide +kernel
  obtain ⟨edit, hedit, h⟩ := (Option.any_eq_true _ _).1 hread
  refine ⟨edit, hedit, (read?_roundTrip.2 _ edit hedit).2.2.2.2 fun size h' => ?_⟩
  rw [of_decide_eq_true h] at h'
  exact Option.some.inj h' ▸ hsize

end PendingEdit

end Retouch
