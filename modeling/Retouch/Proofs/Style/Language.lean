import Retouch.Proofs.Style.Expression

/-!
# The language of colours

`ColorForm` says how colours are written, form by form, given how the name of a colour function may
be shown. The main statement is `ofText_iff_accepted`: a text is taken for a colour, blanks around it
apart, exactly if it has one of the forms, and what is taken for a colour is taken for itself again.

Names of functions are shown in either letter case, and the long s is taken for another case of the s:
`hſl(0)` is a colour (`exists_long_s`). The documented language is what is accepted without that
letter (`documentedColor_iff`).
-/

namespace Retouch

open Text

/-! ## Forms -/

/-- Whether a character is one of those from `low` to `high`. -/
def Between (low high c : Char) : Prop := low ≤ c ∧ c ≤ high

/-- A hexadecimal digit. -/
def HexDigit (c : Char) : Prop := Between '0' '9' c ∨ Between 'a' 'f' c ∨ Between 'A' 'F' c

/-- A letter of ASCII. -/
def Letter (c : Char) : Prop := Between 'A' 'Z' c ∨ Between 'a' 'z' c

/-- A character that can stand among the arguments of a colour function. -/
def Argument (c : Char) : Prop :=
  Letter c ∨ Between '0' '9' c ∨ isBlank c = true ∨ c ∈ ['.', ',', '%', '/', '+', '-']

/-- How colours are written, where `shows name shown` says that a function may be shown as `shown`. -/
inductive ColorForm (shows : Text → Text → Prop) : Text → Prop where
  /-- Hexadecimal digits behind a number sign. -/
  | hex {digits : Text} (digit : ∀ c ∈ digits, HexDigit c) (count : digits.length ∈ [3, 4, 6, 8]) :
      ColorForm shows ('#' :: digits)
  /-- A colour function with its arguments in parentheses. -/
  | functional {name shown arguments : Text}
      (known : name ∈ [['r', 'g', 'b'], ['r', 'g', 'b', 'a'], ['h', 's', 'l'], ['h', 's', 'l', 'a']])
      (spelt : shows name shown) (plain : ∀ c ∈ arguments, Argument c) :
      ColorForm shows (shown ++ '(' :: (arguments ++ [')']))
  /-- A word. -/
  | keyword {word : Text} (nonempty : word ≠ []) (letters : ∀ c ∈ word, Letter c) :
      ColorForm shows word

/-- The documented colours: functions are shown under their names in either case of ASCII. -/
def DocumentedColor : Text → Prop := ColorForm fun name shown => lower shown = name

/-- The letter that a long s is a form of; every other character is its own. -/
def roundS (c : Char) : Char := if c = 'ſ' then 's' else c

/-- The accepted colours: an s in the name of a function may be long, too. -/
def AcceptedColor : Text → Prop := ColorForm fun name shown => lower (shown.map roundS) = name

/-! ## Characters -/

section Characters

variable {c : Char}

theorem isDigit_iff_between : c.isDigit = true ↔ Between '0' '9' c := by
  simp [Char.isDigit, Between, Char.le_def]

theorem isLetter_iff : isLetter c = true ↔ Letter c := by
  simp [isLetter, isCapital, isSmall, Letter, Between]

theorem isSome_hexValue?_iff : (hexValue? c).isSome = true ↔ HexDigit c := by
  rw [HexDigit, ← isDigit_iff_between, hexValue?, Between, Between]
  split
  · next h => simp [h]
  · next h =>
    split
    · next hsmall => simpa [h] using .inl (by simpa using hsmall)
    · next hsmall =>
      have hsmall' : ¬ ('a' ≤ c ∧ c ≤ 'f') := by simpa using hsmall
      split
      · next hcapital => simpa [h, hsmall'] using hcapital
      · next hcapital => simpa [h, hsmall'] using hcapital

theorem isArgumentChar_iff : isArgumentChar c = true ↔ Argument c := by
  simp [isArgumentChar, Argument, ← isLetter_iff, ← isDigit_iff_between, or_assoc]

/-- A visible character of ASCII. -/
def Visible (c : Char) : Prop := 0x20 < c.toNat ∧ c.toNat < 0x7f

instance : DecidablePred Visible := fun c => inferInstanceAs (Decidable (_ < c.toNat ∧ c.toNat < _))

theorem Visible.isBlank (h : Visible c) : isBlank c = false := by
  obtain ⟨hlow, hhigh⟩ := h
  simp only [Text.isBlank, Bool.or_eq_false_iff, Bool.and_eq_false_iff, decide_eq_false_iff_not,
    beq_eq_false_iff_ne]
  omega

/-- What stands between visible characters is visible. -/
theorem Between.visible {low high : Char} (h : Between low high c) (hlow : Visible low)
    (hhigh : Visible high) : Visible c :=
  ⟨Nat.lt_of_lt_of_le hlow.1 h.1, Nat.lt_of_le_of_lt h.2 hhigh.2⟩

theorem Letter.visible (h : Letter c) : Visible c := by
  rcases h with h | h
  · exact h.visible (by decide) (by decide)
  · exact h.visible (by decide) (by decide)

theorem HexDigit.visible (h : HexDigit c) : Visible c := by
  rcases h with h | h | h
  · exact h.visible (by decide) (by decide)
  · exact h.visible (by decide) (by decide)
  · exact h.visible (by decide) (by decide)

/-- The long s is no argument. -/
theorem Argument.ne_long_s (h : Argument c) : c ≠ 'ſ' := by
  have hvisible : ¬ Visible 'ſ' := by decide
  rintro rfl
  rcases h with h | h | h | h
  · exact hvisible h.visible
  · exact hvisible (h.visible (by decide) (by decide))
  · cases h
  · simp at h

/-- A character that is a visible one in small letters is visible itself. -/
theorem visible_of_toLower (h : Visible c.toLower) : Visible c := by
  have hlower := toNat_toLower c
  unfold Visible at h ⊢
  split at hlower <;> omega

end Characters

/-! ## Names and arguments -/

/-- A character of a name in any case is the letter of the name, once a long s is round and the case
is small. -/
theorem isLetterCase_iff {letter : Char} (h : letter ≠ 'ſ') (c : Char) :
    isLetterCase letter c = true ↔ (roundS c).toLower = letter := by
  have hlong : ('ſ' : Char).toLower = 'ſ' := by decide
  have hround : ('s' : Char).toLower = 's' := by decide
  by_cases hc : c = 'ſ'
  · subst hc
    rw [isLetterCase, roundS, if_pos rfl, hlong, hround, beq_eq_false_iff_ne.2 h.symm]
    simpa using eq_comm
  · simp [isLetterCase, roundS, hc]

theorem isNameCase_iff {name : Text} (h : 'ſ' ∉ name) (shown : Text) :
    isNameCase name shown = true ↔ lower (shown.map roundS) = name := by
  induction name generalizing shown with
  | nil => cases shown <;> simp [isNameCase, lower]
  | cons letter letters ih =>
    have hletter : 'ſ' ≠ letter := List.ne_of_not_mem_cons h
    have hletters : 'ſ' ∉ letters := List.not_mem_of_not_mem_cons h
    cases shown with
    | nil => simp [isNameCase, lower]
    | cons c rest =>
      rw [isNameCase, Bool.and_eq_true, isLetterCase_iff hletter.symm, ih hletters]
      simp [lower]

theorem isArguments_iff {t : Text} :
    isArguments t = true ↔ ∃ arguments, t = arguments ++ [')'] ∧ ∀ c ∈ arguments, Argument c := by
  fun_induction isArguments t with
  | case1 => exact iff_of_true rfl ⟨[], rfl, by simp⟩
  | case2 c rest hne ih =>
    rw [Bool.and_eq_true, isArgumentChar_iff, ih]
    constructor
    · rintro ⟨hc, arguments, rfl, harguments⟩
      exact ⟨c :: arguments, rfl, List.forall_mem_cons.2 ⟨hc, harguments⟩⟩
    · rintro ⟨arguments, heq, harguments⟩
      cases arguments with
      | nil =>
        obtain ⟨rfl, rfl⟩ := List.cons.inj heq
        exact (hne rfl rfl).elim
      | cons a arguments =>
        obtain ⟨rfl, rfl⟩ := List.cons.inj heq
        obtain ⟨hc, hrest⟩ := List.forall_mem_cons.1 harguments
        exact ⟨hc, arguments, rfl, hrest⟩
  | case3 => simp

/-! ## Colours -/

/-- No function has a long s or a parenthesis in its name. -/
theorem notMem_of_mem_colorFunctions {name : Text} (h : name ∈ colorFunctions) :
    'ſ' ∉ name ∧ '(' ∉ name := by
  have hall : ∀ name ∈ colorFunctions, 'ſ' ∉ name ∧ '(' ∉ name := by decide
  exact hall name h

/-- The name of a function is shown without a parenthesis. -/
theorem notMem_of_lower_eq {name shown : Text} (h : lower (shown.map roundS) = name)
    (hname : '(' ∉ name) : '(' ∉ shown := by
  intro hmem
  refine hname (h ▸ ?_)
  rw [lower, List.map_map]
  exact List.mem_map.2 ⟨'(', hmem, by decide⟩

variable {t : Text}

theorem isHexColor_iff : isHexColor t = true ↔
    ∃ digits, t = '#' :: digits ∧ (∀ c ∈ digits, HexDigit c) ∧ digits.length ∈ [3, 4, 6, 8] := by
  unfold isHexColor
  split
  · next digits =>
    simp only [Bool.and_eq_true, List.all_eq_true, isSome_hexValue?_iff, List.cons.injEq, true_and,
      exists_eq_left', Bool.or_eq_true, beq_iff_eq, List.mem_cons, List.not_mem_nil, or_false,
      or_assoc]
  · next hne => simpa using fun digits ht => absurd ht (hne digits)

theorem isFunctionalColor_iff : isFunctionalColor t = true ↔
    ∃ name ∈ colorFunctions, ∃ shown arguments, lower (shown.map roundS) = name ∧
      (∀ c ∈ arguments, Argument c) ∧ t = shown ++ '(' :: (arguments ++ [')']) := by
  constructor
  · intro h
    unfold isFunctionalColor at h
    dsimp only at h
    split at h
    · next sign behind hdrop =>
      rw [Bool.and_eq_true, List.any_eq_true, isArguments_iff] at h
      obtain ⟨⟨name, hname, hshown⟩, arguments, rfl, harguments⟩ := h
      have hsign := List.head?_dropWhile_not (fun c => c != '(') t
      rw [hdrop] at hsign
      obtain rfl : sign = '(' := by simpa using hsign
      refine ⟨name, hname, t.takeWhile fun c => c != '(', arguments, ?_, harguments, ?_⟩
      · exact (isNameCase_iff (notMem_of_mem_colorFunctions hname).1 _).1 hshown
      · rw [← hdrop, List.takeWhile_append_dropWhile]
    · cases h
  · rintro ⟨name, hname, shown, arguments, hshown, harguments, rfl⟩
    obtain ⟨hlong, hopen⟩ := notMem_of_mem_colorFunctions hname
    have hplain : ∀ c ∈ shown, (c != '(') = true := by
      intro c hc
      rw [bne_iff_ne]
      rintro rfl
      exact notMem_of_lower_eq hshown hopen hc
    have hname' : colorFunctions.any (fun f => isNameCase f shown) = true :=
      List.any_eq_true.2 ⟨name, hname, (isNameCase_iff hlong shown).2 hshown⟩
    have harguments' : isArguments (arguments ++ [')']) = true :=
      isArguments_iff.2 ⟨arguments, rfl, harguments⟩
    rw [isFunctionalColor]
    simp only [List.takeWhile_append_of_pos hplain, List.dropWhile_append_of_pos hplain,
      List.takeWhile_cons, List.dropWhile_cons, bne_self_eq_false, Bool.false_eq_true, if_false,
      List.append_nil, hname', harguments', Bool.and_self]

theorem isKeywordColor_iff : isKeywordColor t = true ↔ t ≠ [] ∧ ∀ c ∈ t, Letter c := by
  simp [isKeywordColor, isLetter_iff]

/-- **The check accepts the forms of colours.** -/
theorem isColor_iff : isColor t = true ↔ AcceptedColor t := by
  rw [isColor, Bool.or_eq_true, Bool.or_eq_true, isHexColor_iff, isFunctionalColor_iff,
    isKeywordColor_iff]
  constructor
  · rintro ((⟨digits, rfl, hdigits, hcount⟩ | ⟨name, hname, shown, arguments, hshown, hplain, rfl⟩) |
      ⟨hne, hletters⟩)
    · exact .hex hdigits hcount
    · exact .functional hname hshown hplain
    · exact .keyword hne hletters
  · intro h
    cases h with
    | hex digit count => exact .inl (.inl ⟨_, rfl, digit, count⟩)
    | functional known spelt plain => exact .inl (.inr ⟨_, known, _, _, spelt, plain, rfl⟩)
    | keyword nonempty letters => exact .inr ⟨nonempty, letters⟩

/-! ## The long s -/

/-- Nothing is changed where no long s stands. -/
theorem map_roundS {shown : Text} (h : 'ſ' ∉ shown) : shown.map roundS = shown := by
  refine (List.map_congr_left fun c hc => ?_).trans (List.map_id shown)
  refine if_neg ?_
  rintro rfl
  exact h hc

theorem notMem_of_documentedColor (h : DocumentedColor t) : 'ſ' ∉ t := by
  have hvisible : ¬ Visible 'ſ' := by decide
  cases h with
  | hex digit count =>
    rw [List.mem_cons, not_or]
    exact ⟨by decide, fun hmem => hvisible (digit _ hmem).visible⟩
  | @functional name shown arguments known spelt plain =>
    have hshown : 'ſ' ∉ shown := fun hmem =>
      (notMem_of_mem_colorFunctions known).1 (spelt ▸ List.mem_map.2 ⟨'ſ', hmem, by decide⟩)
    have harguments : 'ſ' ∉ arguments := fun hmem => (plain _ hmem).ne_long_s rfl
    simpa using ⟨hshown, harguments⟩
  | keyword nonempty letters => exact fun hmem => hvisible (letters _ hmem).visible

/-- **The documented colours are the accepted ones without a long s.** -/
theorem documentedColor_iff : DocumentedColor t ↔ AcceptedColor t ∧ 'ſ' ∉ t := by
  constructor
  · intro h
    refine ⟨?_, notMem_of_documentedColor h⟩
    have hlong := notMem_of_documentedColor h
    cases h with
    | hex digit count => exact .hex digit count
    | @functional name shown arguments known spelt plain =>
      refine .functional known ?_ plain
      rw [map_roundS fun hmem => hlong (List.mem_append_left _ hmem)]
      exact spelt
    | keyword nonempty letters => exact .keyword nonempty letters
  · rintro ⟨h, hlong⟩
    cases h with
    | hex digit count => exact .hex digit count
    | @functional name shown arguments known spelt plain =>
      refine .functional known ?_ plain
      rwa [map_roundS fun hmem => hlong (List.mem_append_left _ hmem)] at spelt
    | keyword nonempty letters => exact .keyword nonempty letters

/-! ## The ends of a colour -/

/-- A colour begins with a visible character. -/
theorem AcceptedColor.exists_eq_cons (h : AcceptedColor t) :
    ∃ first rest, t = first :: rest ∧ Visible first := by
  cases h with
  | @hex digits digit count => exact ⟨'#', digits, rfl, by decide⟩
  | @functional name shown arguments known spelt plain =>
    cases shown with
    | nil =>
      have hne : ([] : Text) ∉ colorFunctions := by decide
      subst spelt
      exact absurd known hne
    | cons first rest =>
      refine ⟨first, _, rfl, ?_⟩
      have hheads : ∀ name ∈ colorFunctions, name.head? = some 'r' ∨ name.head? = some 'h' := by
        decide
      have hhead : name.head? = some (roundS first).toLower := by
        rw [← spelt]
        rfl
      obtain ⟨hvisible, hs⟩ : Visible (roundS first).toLower ∧ (roundS first).toLower ≠ 's' := by
        rcases hheads name known with h | h
        · rw [Option.some.inj (hhead.symm.trans h)]
          decide
        · rw [Option.some.inj (hhead.symm.trans h)]
          decide
      -- The first letter of a name is no s, so it is not shown as a long one.
      have hround : roundS first = first := by
        unfold roundS at hs ⊢
        split
        · next heq => exact absurd (by rw [if_pos heq]; decide) hs
        · rfl
      exact visible_of_toLower (hround ▸ hvisible)
  | keyword nonempty letters =>
    obtain ⟨first, rest, rfl⟩ := List.exists_cons_of_ne_nil nonempty
    exact ⟨first, rest, rfl, (letters first List.mem_cons_self).visible⟩

/-- A colour ends with a visible character. -/
theorem AcceptedColor.exists_eq_concat (h : AcceptedColor t) :
    ∃ front last, t = front ++ [last] ∧ Visible last := by
  cases h with
  | @hex digits digit count =>
    have hne : digits ≠ [] := by
      rintro rfl
      simp at count
    refine ⟨'#' :: digits.dropLast, digits.getLast hne, ?_, (digit _ (List.getLast_mem hne)).visible⟩
    rw [List.cons_append, List.dropLast_concat_getLast]
  | @functional name shown arguments known spelt plain =>
    exact ⟨shown ++ '(' :: arguments, ')', by simp, by decide⟩
  | @keyword word nonempty letters =>
    exact ⟨t.dropLast, t.getLast nonempty, (List.dropLast_concat_getLast nonempty).symm,
      (letters _ (List.getLast_mem nonempty)).visible⟩

theorem trimEnd_concat (front : Text) {last : Char} (h : isBlank last = false) :
    trimEnd (front ++ [last]) = front ++ [last] := by
  induction front with
  | nil => simp [trimEnd, h]
  | cons c front ih => rw [List.cons_append, trimEnd_cons, ih]; simp

/-- **A colour has no blanks around it.** -/
theorem AcceptedColor.trim_eq (h : AcceptedColor t) : trim t = t := by
  obtain ⟨first, rest, hcons, hfirst⟩ := h.exists_eq_cons
  obtain ⟨front, last, hconcat, hlast⟩ := h.exists_eq_concat
  have hstart : trimStart t = t := by
    rw [hcons, trimStart_cons, hfirst.isBlank]
    rfl
  rw [trim, hstart, hconcat, trimEnd_concat front hlast.isBlank]

/-! ## Texts that are taken for colours -/

/-- A colour is taken for itself. -/
theorem Color.ofText_text (color : Color) : ofText color.text = .ok color := by
  have htrim : trim color.text = color.text := (isColor_iff.1 color.valid).trim_eq
  have hvalid : isColor (trim color.text) = true := by rw [htrim]; exact color.valid
  obtain ⟨text, valid⟩ := color
  rw [ofText, dif_pos hvalid]
  simpa using htrim

/-- **The language of colours.** A text is taken for a colour, without the blanks around it, exactly if
an accepted one stands between these, and refused if not. The documented ones are accepted, and the
others have a long s. What is taken for a colour begins with a visible character of ASCII and is taken
for itself. -/
theorem ofText_iff_accepted (value : Text) :
    ((∃ color, Color.ofText value = .ok color) ↔ AcceptedColor (trim value)) ∧
      (¬ AcceptedColor (trim value) →
        Color.ofText value = .error (.unsupportedColor (trim value))) ∧
      (DocumentedColor (trim value) ↔ AcceptedColor (trim value) ∧ 'ſ' ∉ trim value) ∧
      ∀ color, Color.ofText value = .ok color →
        color.text = trim value ∧ Color.ofText color.text = .ok color ∧
          ∃ first rest, color.text = first :: rest ∧ Visible first := by
  refine ⟨?_, ?_, documentedColor_iff, ?_⟩
  · rw [← isColor_iff]
    constructor
    · rintro ⟨color, h⟩
      unfold Color.ofText at h
      split at h
      · next hcolor => exact hcolor
      · cases h
    · intro h
      exact ⟨⟨trim value, h⟩, dif_pos h⟩
  · intro h
    rw [← isColor_iff] at h
    exact dif_neg h
  · intro color h
    refine ⟨?_, color.ofText_text, (isColor_iff.1 color.valid).exists_eq_cons⟩
    unfold Color.ofText at h
    split at h
    · cases h
      rfl
    · cases h

/-- A text with a long s is taken for a colour, and is no documented one. -/
theorem exists_long_s :
    (∃ color, Color.ofText "hſl(0)".toList = .ok color ∧ color.text = "hſl(0)".toList) ∧
      ¬ DocumentedColor (trim "hſl(0)".toList) := by
  refine ⟨⟨⟨"hſl(0)".toList, by decide⟩, rfl, rfl⟩, fun h => ?_⟩
  exact notMem_of_documentedColor h (by decide)

end Retouch
