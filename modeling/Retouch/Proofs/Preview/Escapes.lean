import Retouch.Preview.Page
import Retouch.Proofs.Edit.RenderedText
import Retouch.Proofs.Text.Filling
import Retouch.Proofs.Text.References

/-!
# What is put into the sandbox page is read back

A value is put into the page in two ways. In an attribute the signs that mean something are written as
references, each character by itself (`escapeAttribute_eq`), so one pass over the references gives the
value back. In a script the value is a string literal of data in which each `</` gets a backslash:
whatever stands for a text between quotes still stands for it then (`Json.BodyOf.slashed`), and no `</` is
left (`notInfix_slashed`). Main statement: `escapes_read`.
-/

namespace Retouch

open Text Script

/-! ## Attributes -/

/-- An attribute is written character by character, although one sign is replaced after the other: what
is put in for a sign has none of those that are replaced later. -/
theorem escapeAttribute_eq (value : Text) : escapeAttribute value = value.flatMap writeSign := by
  unfold escapeAttribute
  simp only [replaceAll_singleton, List.flatMap_assoc]
  refine List.flatMap_congr fun c _ => ?_
  rcases writeSign_cases c with ⟨sign, hsign, rfl, -⟩ | ⟨hplain, hwrite⟩
  · simp only [markupSigns, List.mem_cons, List.not_mem_nil, or_false] at hsign
    rcases hsign with rfl | rfl | rfl | rfl <;> rfl
  · simp only [markupSigns, List.forall_mem_cons] at hplain
    obtain ⟨hamp, hquote, hless, hgreater, -⟩ := hplain
    simp only [if_neg hamp, if_neg hquote, if_neg hless, if_neg hgreater, List.flatMap_singleton, hwrite]

/-- A sign that ends an attribute or a tag is not in what is written for any character. -/
theorem notMem_escapeAttribute {c : Char} (h : c = '"' ∨ c = '<' ∨ c = '>') (value : Text) :
    c ∉ escapeAttribute value := by
  rw [escapeAttribute_eq]
  intro hmem
  obtain ⟨d, -, hd⟩ := List.mem_flatMap.1 hmem
  have hreferences : ∀ sign ∈ markupSigns,
      '"' ∉ '&' :: sign.2 ∧ '<' ∉ '&' :: sign.2 ∧ '>' ∉ '&' :: sign.2 := by decide
  have hsigns : c ∈ markupSigns.map Prod.fst := by
    rcases h with rfl | rfl | rfl <;> decide
  rcases writeSign_cases d with ⟨sign, hsign, -, hwrite⟩ | ⟨hplain, hwrite⟩
  · obtain ⟨hquote, hless, hgreater⟩ := hreferences sign hsign
    rw [hwrite] at hd
    rcases h with rfl | rfl | rfl
    · exact hquote hd
    · exact hless hd
    · exact hgreater hd
  · obtain ⟨sign, hsign, hsame⟩ := List.mem_map.1 hsigns
    rw [hwrite, List.mem_singleton] at hd
    exact hplain sign hsign (hd.symm.trans hsame.symm)

/-! ## Scripts -/

/-- A text with a backslash in each `</`. -/
def slashed (t : Text) : Text := replaceAll ['<', '/'] ['<', '\\', '/'] t

theorem slashed_pair (rest : Text) :
    slashed ('<' :: '/' :: rest) = '<' :: '\\' :: '/' :: slashed rest := rfl

/-- Either a text begins with `</`, or its first character stays as it is. -/
theorem slashed_cases (c : Char) (rest : Text) :
    (∃ behind, c = '<' ∧ rest = '/' :: behind) ∨
      ((c = '<' → rest.head? ≠ some '/') ∧ slashed (c :: rest) = c :: slashed rest) := by
  by_cases h : List.isPrefixOf ['<', '/'] (c :: rest) = true
  · obtain ⟨rfl, behind, rfl⟩ := List.cons_prefix_cons.1 (List.isPrefixOf_iff_prefix.1 h)
    exact .inl ⟨behind, rfl, rfl⟩
  · refine .inr ⟨?_, ?_⟩
    · rintro rfl hslash
      obtain ⟨behind, rfl⟩ := List.head?_eq_some_iff.1 hslash
      exact h rfl
    · rw [slashed, replaceAll, replaceFrom, if_neg h]
      rfl

theorem slashed_cons_of_ne {c : Char} (h : c ≠ '<') (rest : Text) :
    slashed (c :: rest) = c :: slashed rest := by
  rcases slashed_cases c rest with ⟨behind, hless, -⟩ | ⟨-, hkept⟩
  · exact absurd hless h
  · exact hkept

/-- A text without `<` stays as it is. -/
theorem slashed_append {first : Text} (h : '<' ∉ first) (rest : Text) :
    slashed (first ++ rest) = first ++ slashed rest := by
  induction first with
  | nil => rfl
  | cons c first ih =>
    obtain ⟨hc, hfirst⟩ := not_or.1 (mt List.mem_cons.2 h)
    rw [List.cons_append, slashed_cons_of_ne (Ne.symm hc), ih hfirst, List.cons_append]

/-- A literal gets its backslashes between its quotes. -/
theorem slashed_literal (body : Text) :
    slashed ('"' :: body ++ ['"']) = '"' :: slashed body ++ ['"'] := by
  have hquote : ∀ name ∈ [['<', '/']], '"' ∉ name := by decide
  have hnil : ∀ name ∈ [['<', '/']], name ≠ [] := by decide
  have hplaces : ∀ place ∈ [((['<', '/'] : Text), (['<', '\\', '/'] : Text))], place.1 ∈ [['<', '/']] := by
    decide
  rw [List.cons_append, slashed_cons_of_ne (by decide)]
  simp only [slashed, replaceAll_eq]
  rw [fillAtOnce_append_cons hnil hquote hplaces]
  rfl

theorem head?_slashed (t : Text) : (slashed t).head? = t.head? := by
  cases t with
  | nil => rfl
  | cons c rest =>
    rcases slashed_cases c rest with ⟨behind, rfl, rfl⟩ | ⟨-, hkept⟩
    · rfl
    · rw [hkept]
      rfl

/-- No `</` is left. -/
theorem notInfix_slashed (t : Text) : ¬ ['<', '/'] <:+: slashed t := by
  induction t with
  | nil => decide
  | cons c rest ih =>
    rcases slashed_cases c rest with ⟨behind, rfl, rfl⟩ | ⟨hslash, hkept⟩
    · rw [slashed_cons_of_ne (by decide), List.infix_cons_iff, not_or] at ih
      rw [slashed_pair]
      simp [List.infix_cons_iff, ih.2]
    · rw [hkept, List.infix_cons_iff]
      rintro (hbegins | hbehind)
      · obtain ⟨hless, behind, hrest⟩ := List.cons_prefix_cons.1 hbegins
        refine hslash hless.symm ?_
        rw [← head?_slashed, ← hrest]
        rfl
      · exact ih hbehind

/-! ## Literals -/

namespace Json

/-- A slash between the quotes of a literal stands for itself. -/
theorem BodyOf.of_slash {t body : Text} (h : BodyOf t ('/' :: body)) :
    ∃ rest, t = '/' :: rest ∧ BodyOf rest body := by
  generalize hslash : '/' :: body = whole at h
  cases h with
  | nil => cases hslash
  | cons first rest =>
    cases first with
    | letter escape => simp at hslash
    | number control => simp at hslash
    | plain quote backslash printed =>
      obtain ⟨rfl, rfl⟩ := List.cons.inj hslash
      exact ⟨_, rfl, rest⟩

/-- The sign `<` stands as it is between the quotes of a literal. -/
theorem StandsFor.eq_of_less {shown : Text} (h : StandsFor '<' shown) : shown = ['<'] := by
  cases h with
  | @letter e escape =>
    unfold simpleEscape? at escape
    split at escape
    all_goals cases escape
  | number control => exact absurd control (by decide)
  | plain quote backslash printed => rfl

/-- No other character is written with it. -/
theorem StandsFor.notMem_less {c : Char} {shown : Text} (h : StandsFor c shown) (hc : c ≠ '<') :
    '<' ∉ shown := by
  have hhex : ∀ n, '<' ≠ hexDigit n := by
    intro n
    have hall : ∀ m < 16, '<' ≠ Nat.digitChar m := by decide
    exact hall (n % 16) (Nat.mod_lt n (by decide))
  cases h with
  | @letter e escape =>
    have he : '<' ≠ e := by
      rintro rfl
      cases escape
    simp [he]
  | number control => simp [hhex]
  | plain quote backslash printed => simpa using hc.symm

/-- Whatever stands for a text between quotes still does so with a backslash in each `</`. -/
theorem bodyOf_slashed {t body : Text} (h : BodyOf t body) : BodyOf t (slashed body) := by
  induction h with
  | nil => exact .nil
  | @cons c shown t body first rest ih =>
    by_cases hc : c = '<'
    · subst hc
      obtain rfl := first.eq_of_less
      rcases slashed_cases '<' body with ⟨behind, -, rfl⟩ | ⟨-, hkept⟩
      · -- The slash is a piece of its own, which is written as an escape instead.
        rw [slashed_cons_of_ne (by decide)] at ih
        obtain ⟨others, rfl, hothers⟩ := ih.of_slash
        show BodyOf _ (['<'] ++ (['\\', '/'] ++ slashed behind))
        exact .cons first (.cons (.letter rfl) hothers)
      · rw [List.singleton_append, hkept]
        exact .cons first ih
    · rw [slashed_append (first.notMem_less hc)]
      exact .cons first ih

end Json

/-- **What is put into the page is read back.** In an attribute a value has no sign that ends the
attribute or a tag, and every reader of references decodes it to the value in one pass. In a script it is
one string literal in double quotes without line breaks that has the value, and nothing in it ends the
script. -/
theorem escapes_read (references : References) (value : Text) :
    ('"' ∉ escapeAttribute value ∧ '<' ∉ escapeAttribute value ∧ '>' ∉ escapeAttribute value) ∧
      references.decode (escapeAttribute value) = value ∧
      IsLiteralOf value (scriptString value) ∧ ¬ ['<', '/'] <:+: scriptString value := by
  refine ⟨⟨?_, ?_, ?_⟩, ?_, ?_, notInfix_slashed _⟩
  · exact notMem_escapeAttribute (.inl rfl) value
  · exact notMem_escapeAttribute (.inr (.inl rfl)) value
  · exact notMem_escapeAttribute (.inr (.inr rfl)) value
  · rw [escapeAttribute_eq, references.decode_flatMap_writeSign]
  · have hliteral : scriptString value = '"' :: slashed (value.flatMap Json.writeChar) ++ ['"'] :=
      slashed_literal _
    rw [hliteral]
    exact isLiteralOf_of_bodyOf (Json.bodyOf_slashed (Json.bodyOf_flatMap_writeChar value))

/-- A value with references of both kinds, and with the end of a script behind another `<`. -/
theorem escapes_read_plain :
    let value := "&#60;&lt;\"<</script>\\\n".toList
    escapeAttribute value = "&amp;#60;&amp;lt;&quot;&lt;&lt;/script&gt;\\\n".toList ∧
      References.plain.decode value = "<<\"<</script>\\\n".toList ∧
      References.plain.decode (escapeAttribute value) = value ∧
      scriptString value = "\"&#60;&lt;\\\"<<\\/script>\\\\\\n\"".toList ∧
      IsLiteralOf value (scriptString value) := by
  intro value
  obtain ⟨-, hdecode, hliteral, -⟩ := escapes_read .plain value
  exact ⟨by decide +kernel, by decide +kernel, hdecode, by decide +kernel, hliteral⟩

end Retouch
