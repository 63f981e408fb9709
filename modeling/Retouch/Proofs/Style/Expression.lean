import Retouch.Edit.Apply
import Retouch.Proofs.Decimal.Digits
import Retouch.Proofs.Script.Container

/-!
# What a style says

The value of a style attribute is written with the colours as they are between quotes. No colour holds
a quote or a backslash (`notMem_of_isColor`), so none can end its string or begin an escape. But blanks
may stand among the arguments of a colour function, and a line break is a blank.

The main statement is `readContainer?_expression`: what is written for a style is read as its four
properties, with their values, exactly if no line ends in a colour. `exists_broken_style` is a style
that cannot be read, for its colour is written over two lines.
-/

namespace Retouch

open Text Script

/-! ## Colours -/

/-- A character that ends a string or begins an escape. -/
def Special (c : Char) : Prop := c = '"' ∨ c = '\\'

theorem notMem_of_isHexColor {t : Text} (h : isHexColor t = true) {c : Char} (hc : Special c) :
    c ∉ t := by
  unfold isHexColor at h
  split at h
  · next digits =>
    simp only [Bool.and_eq_true, List.all_eq_true] at h
    intro hmem
    rcases List.mem_cons.1 hmem with heq | hdigit
    · rcases hc with rfl | rfl <;> cases heq
    · have hsome := h.1 c hdigit
      rcases hc with rfl | rfl <;> cases hsome
  · cases h

/-- A character of a name in any case is one of the letters of the name. -/
theorem exists_letter_of_isNameCase {name t : Text} (h : isNameCase name t = true) {c : Char}
    (hmem : c ∈ t) : ∃ letter ∈ name, isLetterCase letter c = true := by
  induction name generalizing t with
  | nil =>
    cases t with
    | nil => cases hmem
    | cons _ _ => cases h
  | cons letter letters ih =>
    cases t with
    | nil => cases hmem
    | cons first rest =>
      rw [isNameCase, Bool.and_eq_true] at h
      rcases List.mem_cons.1 hmem with rfl | hrest
      · exact ⟨letter, List.mem_cons_self, h.1⟩
      · obtain ⟨other, hother, hcase⟩ := ih h.2 hrest
        exact ⟨other, List.mem_cons_of_mem _ hother, hcase⟩

theorem notMem_of_isNameCase {f name : Text} (hf : f ∈ colorFunctions) (h : isNameCase f name = true)
    {c : Char} (hc : Special c) : c ∉ name := by
  intro hmem
  obtain ⟨letter, hletter, hcase⟩ := exists_letter_of_isNameCase h hmem
  have hnone : ∀ f ∈ colorFunctions,
      (f.any fun letter => isLetterCase letter '"' || isLetterCase letter '\\') = false := by decide
  have hplain := List.any_eq_false.1 (hnone f hf) letter hletter
  rw [Bool.not_eq_true, Bool.or_eq_false_iff] at hplain
  rcases hc with rfl | rfl
  · rw [hplain.1] at hcase
    cases hcase
  · rw [hplain.2] at hcase
    cases hcase

theorem notMem_of_isArguments {t : Text} (h : isArguments t = true) {c : Char} (hc : Special c) :
    c ∉ t := by
  fun_induction isArguments t with
  | case1 =>
    intro hmem
    rcases hc with rfl | rfl <;> simp at hmem
  | case2 first rest _ ih =>
    rw [Bool.and_eq_true] at h
    intro hmem
    rcases List.mem_cons.1 hmem with rfl | hrest
    · rcases hc with rfl | rfl <;> cases h.1
    · exact ih h.2 hrest
  | case3 => exact List.not_mem_nil

theorem notMem_of_isFunctionalColor {t : Text} (h : isFunctionalColor t = true) {c : Char}
    (hc : Special c) : c ∉ t := by
  unfold isFunctionalColor at h
  dsimp only at h
  split at h
  · next sign arguments hdrop =>
    rw [Bool.and_eq_true, List.any_eq_true] at h
    obtain ⟨⟨f, hf, hname⟩, harguments⟩ := h
    have hsign := List.head?_dropWhile_not (fun c => c != '(') t
    rw [hdrop] at hsign
    obtain rfl : sign = '(' := by simpa using hsign
    rw [← List.takeWhile_append_dropWhile (l := t), hdrop]
    intro hmem
    rcases List.mem_append.1 hmem with hmem | hmem
    · exact notMem_of_isNameCase hf hname hc hmem
    · rcases List.mem_cons.1 hmem with rfl | hmem
      · rcases hc with heq | heq <;> cases heq
      · exact notMem_of_isArguments harguments hc hmem
  · cases h

/-- **No colour holds a quote or a backslash.** -/
theorem notMem_of_isColor {t : Text} (h : isColor t = true) {c : Char} (hc : Special c) : c ∉ t := by
  simp only [isColor, Bool.or_eq_true] at h
  rcases h with (hhex | hfunctional) | hkeyword
  · exact notMem_of_isHexColor hhex hc
  · exact notMem_of_isFunctionalColor hfunctional hc
  · simp only [isKeywordColor, Bool.and_eq_true, List.all_eq_true] at hkeyword
    intro hmem
    have hletter := hkeyword.2 c hmem
    rcases hc with rfl | rfl <;> cases hletter

/-! ## Styles -/

namespace StyleEdit

/-- The properties that a style writes, with their values. -/
def properties (edit : StyleEdit) : List (Text × Text) :=
  [("backgroundColor".toList, edit.backgroundColor.text),
    ("color".toList, edit.textColor.text),
    ("fontSize".toList, Decimal.displayFloat edit.fontSize ++ ['p', 'x']),
    ("fontWeight".toList, (if edit.bold then "bold" else "normal").toList)]

/-- A style with a usable font size is written as its properties. -/
theorem expression_eq (edit : StyleEdit) : edit.expression
    = if isUsableSize edit.fontSize then .ok (writeContainer edit.properties)
      else .error (.unusableFontSize edit.fontSize) := by
  simp [expression, properties, writeContainer, writeProperties, writeProperty, property]

/-- The font size that a style writes holds no quote, no backslash and no line break. -/
theorem notMem_fontSize (size : Float) {c : Char} (hc : Special c ∨ endsString c = true) :
    c ∉ Decimal.displayFloat size ++ ['p', 'x'] := by
  have hvalues : c = '"' ∨ c = '\\' ∨ c = '\n' ∨ c = '\r' := by
    simpa [Special, endsString, or_assoc] using hc
  intro hmem
  have hshown : c.isDigit = true ∨ c ∈ "-.NaNinf".toList ++ ['p', 'x'] := by
    rcases List.mem_append.1 hmem with hmem | hmem
    · exact (Decimal.of_mem_displayFloat hmem).imp_right (List.mem_append_left _)
    · exact .inr (List.mem_append_right _ hmem)
  rcases hvalues with rfl | rfl | rfl | rfl <;> revert hshown <;> decide

/-- The properties of a style can be written as they are, but for line breaks. -/
theorem plain_of_mem_properties (edit : StyleEdit) {property : Text × Text}
    (h : property ∈ edit.properties) : Plain property := by
  have hname : ∀ name ∈ ["backgroundColor", "color", "fontSize", "fontWeight"],
      name.toList ≠ [] ∧ name.toList.all Char.isAlpha = true ∧
        wordKind name.toList = .name name.toList := by decide
  have hplain : ∀ name ∈ ["backgroundColor", "color", "fontSize", "fontWeight"], ∀ value : Text,
      (∀ c, Special c → c ∉ value) → Plain (name.toList, value) := by
    intro name hmem value hvalue
    obtain ⟨hne, hletters, hkind⟩ := hname name hmem
    exact ⟨hne, List.all_eq_true.1 hletters, hkind, hvalue _ (.inl rfl), hvalue _ (.inr rfl)⟩
  simp only [properties, List.mem_cons, List.not_mem_nil, or_false] at h
  rcases h with rfl | rfl | rfl | rfl
  · exact hplain _ (by decide) _ fun c hc => notMem_of_isColor edit.backgroundColor.valid hc
  · exact hplain _ (by decide) _ fun c hc => notMem_of_isColor edit.textColor.valid hc
  · exact hplain _ (by decide) _ fun c hc => notMem_fontSize edit.fontSize (.inl hc)
  · refine hplain _ (by decide) _ fun c hc => ?_
    rcases hc with rfl | rfl <;> cases edit.bold <;> decide

/-- Of the properties of a style only the colours may hold a line break. -/
theorem any_isBroken_properties (edit : StyleEdit) : edit.properties.any isBroken
    = (edit.backgroundColor.text ++ edit.textColor.text).any endsString := by
  have hsize : (Decimal.displayFloat edit.fontSize ++ ['p', 'x']).any endsString = false := by
    rw [List.any_eq_false]
    intro c hmem hends
    exact notMem_fontSize edit.fontSize (.inr hends) hmem
  have hweight : (if edit.bold then "bold" else "normal").toList.any endsString = false := by
    cases edit.bold <;> decide
  simp only [properties, isBroken, List.any_cons, List.any_nil, hsize, hweight, List.any_append,
    Bool.or_false]

end StyleEdit

/-- **What a style says.** With a usable font size, what is written for a style is read as an object in
braces with the four properties of the style, in their order and with their values, exactly if no line
ends in either colour, whatever stands behind it. -/
theorem readContainer?_expression (edit : StyleEdit)
    (h : StyleEdit.isUsableSize edit.fontSize = true) :
    ∃ value, edit.expression = .ok value ∧ ∀ rest offset, readContainer? ⟨value ++ rest, offset⟩
      = if (edit.backgroundColor.text ++ edit.textColor.text).any endsString then none
        else some
          ([("backgroundColor".toList, edit.backgroundColor.text),
              ("color".toList, edit.textColor.text),
              ("fontSize".toList, Decimal.displayFloat edit.fontSize ++ "px".toList),
              ("fontWeight".toList, (if edit.bold then "bold" else "normal").toList)],
            ⟨rest, offset + byteLength value⟩) := by
  refine ⟨writeContainer edit.properties, ?_, ?_⟩
  · rw [StyleEdit.expression_eq, if_pos h]
  · intro rest offset
    have hne : edit.properties ≠ [] := List.cons_ne_nil _ _
    rw [readContainer?_writeContainer hne fun property => edit.plain_of_mem_properties,
      edit.any_isBroken_properties]
    rfl

/-- A colour function with blanks among its arguments. -/
theorem readContainer?_expression_blanks :
    let edit : StyleEdit :=
      ⟨.of "p".toList 0, ⟨"rgb(0, 0, 0)".toList, by decide⟩, .white, 12.5, true, none⟩
    StyleEdit.isUsableSize edit.fontSize = true ∧
      ∃ value, edit.expression = .ok value ∧ ∀ rest offset, readContainer? ⟨value ++ rest, offset⟩
        = some
          ([("backgroundColor".toList, "rgb(0, 0, 0)".toList), ("color".toList, "#ffffff".toList),
              ("fontSize".toList, "12.5px".toList), ("fontWeight".toList, "bold".toList)],
            ⟨rest, offset + byteLength value⟩) := by
  intro edit
  have husable : StyleEdit.isUsableSize edit.fontSize = true := by decide +kernel
  obtain ⟨value, hvalue, hread⟩ := readContainer?_expression edit husable
  refine ⟨husable, value, hvalue, fun rest offset => ?_⟩
  have hsize : Decimal.displayFloat edit.fontSize = "12.5".toList := by decide +kernel
  rw [hread, if_neg (by decide), hsize]
  rfl

/-- A line break among the arguments of a colour function is taken for a blank, and ends the string
that the colour is written into. The source with the style in it cannot be read; with a blank in that
place it can. -/
theorem exists_broken_style :
    let style (color : Color) : StyleEdit := ⟨.of "p".toList 0, color, .black, 16, false, none⟩
    let edited (color : Color) := applyEdit .tsx "<p>a</p>".toList (.style (style color))
    ∃ broken blank, Color.ofText "rgb(0,\n0,0)".toList = .ok broken ∧
      Color.ofText "rgb(0, 0,0)".toList = .ok blank ∧
      (∃ value, (style broken).expression = .ok value ∧ readContainer? ⟨value, 0⟩ = none) ∧
      (edited broken).toOption = none ∧ (edited blank).toOption.isSome = true := by
  refine ⟨⟨"rgb(0,\n0,0)".toList, by decide⟩, ⟨"rgb(0, 0,0)".toList, by decide⟩, rfl, rfl,
    ⟨_, if_pos (by decide +kernel), by decide +kernel⟩, by decide +kernel, by decide +kernel⟩

end Retouch
