import Retouch.Script.Scanner

/-!
# Reading moves on

Whatever reads a piece of a script leaves its cursor at a later place of the same text:
`Cursor.LeadsTo`. There is one lemma for each piece, and from them `Scanned.TokenRead` for all that can be
read as a token, `leadsTo_scan` for the next token behind a cursor and `Scanned.Sound` for what a token says
of its own place.
-/

namespace Retouch.Script

open Text

namespace Cursor

/-- Whether the second cursor stands in the text of the first one, at its place or behind it. -/
def LeadsTo (c d : Cursor) : Prop := ∃ used, c.Reaches used d

theorem LeadsTo.refl (c : Cursor) : c.LeadsTo c := ⟨[], .refl c⟩

theorem LeadsTo.trans {c d e : Cursor} (hd : c.LeadsTo d) (he : d.LeadsTo e) : c.LeadsTo e := by
  obtain ⟨s, hs⟩ := hd
  obtain ⟨t, ht⟩ := he
  exact ⟨s ++ t, hs.trans ht⟩

/-- A later place has no smaller offset. -/
theorem LeadsTo.offset_le {c d : Cursor} (h : c.LeadsTo d) : c.offset ≤ d.offset := by
  obtain ⟨used, -, hoffset⟩ := h
  omega

theorem leadsTo_cons (a : Char) (t : Text) (offset : Nat) :
    LeadsTo ⟨a :: t, offset⟩ ⟨t, offset + a.utf8Size⟩ := ⟨[a], .cons a t offset⟩

/-- Behind the first character and then behind what leads on from there. -/
theorem LeadsTo.cons {a : Char} {t : Text} {offset : Nat} {d : Cursor}
    (h : LeadsTo ⟨t, offset + a.utf8Size⟩ d) : LeadsTo ⟨a :: t, offset⟩ d :=
  (leadsTo_cons a t offset).trans h

theorem leadsTo_run (p : Char → Bool) (c : Cursor) : c.LeadsTo (c.run p).2 :=
  ⟨_, reaches_run p c⟩

theorem leadsTo_skip (n : Nat) (c : Cursor) : c.LeadsTo (skip n c) := ⟨_, reaches_skip n c⟩

/-- The end of the text. -/
theorem leadsTo_end (c : Cursor) : c.LeadsTo ⟨[], c.offset + byteLength c.rest⟩ :=
  ⟨c.rest, by simp [Reaches]⟩

end Cursor

open Cursor

/-! ## Gaps and words -/

theorem leadsTo_skipGap (part : GapPart) (t : Text) (offset : Nat) (lineEnded : Bool) :
    LeadsTo ⟨t, offset⟩ (skipGap part t offset lineEnded).cursor := by
  fun_induction skipGap part t offset lineEnded
  case case1 | case2 | case8 =>
    rename_i ih
    exact .cons (.cons ih)
  case case3 | case4 | case6 | case7 | case9 =>
    rename_i ih
    exact .cons ih
  case case5 | case10 | case11 => exact .refl _

theorem leadsTo_skipInterpreterLine (t : Text) :
    LeadsTo ⟨t, 0⟩ (skipInterpreterLine t) := by
  unfold skipInterpreterLine
  split
  · exact LeadsTo.cons (LeadsTo.cons (leadsTo_run _ _))
  · exact LeadsTo.refl _

theorem leadsTo_readWord (covered : Nat) (first : Bool) (t : Text) (offset : Nat) :
    LeadsTo ⟨t, offset⟩ (readWord covered first t offset).behind := by
  fun_induction readWord covered first t offset
  case case2 | case3 =>
    rename_i ih
    exact .cons ih
  case case4 hback _ _ _ _ _ ih =>
    obtain rfl := eq_of_beq hback
    exact .cons ih
  case case1 | case5 | case6 | case7 | case8 => exact .refl _

/-! ## Numerals -/

theorem leadsTo_withPower (n : Numeral) : n.behind.LeadsTo n.withPower.behind := by
  unfold Numeral.withPower
  split
  · split
    · exact (leadsTo_skip _ _).trans (leadsTo_run _ _)
    · exact .refl _
  · exact .refl _

theorem leadsTo_withTail (n : Numeral) : n.behind.LeadsTo n.withTail.behind := by
  unfold Numeral.withTail
  split
  · refine LeadsTo.trans ?_ (leadsTo_withPower _)
    exact (leadsTo_skip _ _).trans (leadsTo_run _ _)
  · exact leadsTo_withPower n

theorem leadsTo_readWhole (isDigit : Char → Bool) (c : Cursor) :
    c.LeadsTo (readWhole isDigit c).behind := by
  unfold readWhole
  simp only
  split
  · exact (leadsTo_run _ c).trans (leadsTo_skip _ _)
  · exact leadsTo_run _ c

theorem leadsTo_readNumeral (c : Cursor) : c.LeadsTo (readNumeral c).behind := by
  unfold readNumeral
  split
  · exact leadsTo_withTail ⟨.number, true, c⟩
  · split
    · exact (leadsTo_skip _ _).trans (leadsTo_readWhole _ _)
    · split
      · exact (leadsTo_skip _ _).trans (leadsTo_readWhole _ _)
      · split
        · exact (leadsTo_skip _ _).trans (leadsTo_readWhole _ _)
        · split
          · simp only
            split
            · exact leadsTo_run _ c
            · exact (leadsTo_run _ c).trans (leadsTo_withTail ⟨.number, true, _⟩)
          · split
            · exact leadsTo_skip _ _
            · exact (leadsTo_skip _ _).trans (leadsTo_withTail ⟨.number, true, _⟩)
  · simp only
    split
    · exact leadsTo_readWhole _ _
    · exact (leadsTo_readWhole _ _).trans (leadsTo_withTail _)

theorem kind_withPower (n : Numeral) : n.withPower.kind = n.kind := by
  unfold Numeral.withPower
  split
  · split <;> rfl
  · rfl

theorem kind_withTail (n : Numeral) : n.withTail.kind = n.kind := by
  unfold Numeral.withTail
  split
  · exact kind_withPower _
  · exact kind_withPower n

/-- A numeral is a number or a big number. -/
def Numeral.IsNumber (n : Numeral) : Prop := n.kind = .number ∨ n.kind = .bigNumber

theorem isNumber_withTail {n : Numeral} (h : n.IsNumber) : n.withTail.IsNumber := by
  unfold Numeral.IsNumber at h ⊢
  rwa [kind_withTail]

theorem isNumber_readWhole (isDigit : Char → Bool) (c : Cursor) : (readWhole isDigit c).IsNumber := by
  unfold readWhole
  simp only
  split
  · exact .inr rfl
  · exact .inl rfl

theorem isNumber_readNumeral (c : Cursor) : (readNumeral c).IsNumber := by
  unfold readNumeral
  split
  · exact isNumber_withTail (.inl rfl)
  · split
    · exact isNumber_readWhole _ _
    · split
      · exact isNumber_readWhole _ _
      · split
        · exact isNumber_readWhole _ _
        · split
          · simp only
            split
            · exact .inl rfl
            · exact isNumber_withTail (.inl rfl)
          · split
            · exact .inr rfl
            · exact isNumber_withTail (.inl rfl)
  · simp only
    split
    · exact isNumber_readWhole _ _
    · exact isNumber_withTail (isNumber_readWhole _ _)

/-! ## Strings, templates and regular expressions -/

/-- A run of characters ends before the first one that does not belong to it. -/
theorem stop_runFrom {q : Char → Bool} {t rest : Text} {k : Nat} {c : Char}
    (h : (runFrom q t k).2.rest = c :: rest) : q c = false := by
  induction t generalizing k with
  | nil => cases h
  | cons d t ih =>
    by_cases hd : q d = true
    · simp only [runFrom, hd, if_true] at h
      exact ih h
    · simp only [runFrom, hd] at h
      obtain ⟨rfl, -⟩ := List.cons.inj h
      exact Bool.not_eq_true _ ▸ hd

/-- A string with escapes ends with its quote. -/
theorem exists_readQuoted_quote {quote : Char} {covered : Nat} {t : Text} {offset : Nat} {q : Quoted}
    (h : readQuoted quote covered t offset = some q) :
    ∃ used, Reaches ⟨t, offset⟩ (used ++ [quote]) q.behind := by
  have hcons : ∀ {c : Char} {rest : Text} {offset : Nat} {d : Cursor},
      (∃ used, Reaches ⟨rest, offset + c.utf8Size⟩ (used ++ [quote]) d) →
      ∃ used, Reaches ⟨c :: rest, offset⟩ (used ++ [quote]) d := by
    rintro c rest offset d ⟨used, hused⟩
    exact ⟨c :: used, (Reaches.cons c rest offset).trans hused⟩
  fun_induction readQuoted quote covered t offset generalizing q
  case case1 | case6 => cases h
  case case2 ih => exact hcons (ih h)
  case case3 hquote =>
    obtain rfl := eq_of_beq hquote
    cases h
    exact ⟨[], .cons _ _ _⟩
  case case4 | case5 | case7 =>
    rename_i ih
    obtain ⟨body, hbody, rfl⟩ := Option.map_eq_some_iff.1 h
    have hbehind := ih hbody
    exact hcons hbehind

/-- So does a string that ends only there. -/
theorem reaches_skip_quote {c : Char} {t : Text} {n : Nat}
    (h : ((⟨t, n⟩ : Cursor).run fun d => d != c).2.rest ≠ []) :
    ∃ used, Reaches ⟨t, n⟩ (used ++ [c]) (((⟨t, n⟩ : Cursor).run fun d => d != c).2.skip 1) := by
  have hused := reaches_run (fun d => d != c) ⟨t, n⟩
  have hstop : ∀ d rest, ((⟨t, n⟩ : Cursor).run fun d => d != c).2.rest = d :: rest →
      (d != c) = false := fun _ _ => stop_runFrom
  generalize (⟨t, n⟩ : Cursor).run (fun d => d != c) = quote at h hused hstop
  obtain ⟨used, ⟨behind, offset⟩⟩ := quote
  cases behind with
  | nil => exact absurd rfl h
  | cons d rest =>
    obtain rfl : d = c := by simpa using hstop d rest rfl
    exact ⟨used, hused.trans (reaches_skip 1 _)⟩

theorem leadsTo_readTemplate {covered : Nat} {t : Text} {offset : Nat} {part : TemplatePart}
    (h : readTemplate covered t offset = some part) : LeadsTo ⟨t, offset⟩ part.behind := by
  fun_induction readTemplate covered t offset generalizing part
  case case1 => cases h
  case case2 | case7 =>
    rename_i ih
    exact .cons (ih h)
  case case3 =>
    cases h
    exact .cons (leadsTo_cons _ _ _)
  case case4 =>
    cases h
    exact leadsTo_cons _ _ _
  case case5 | case6 =>
    rename_i ih
    obtain ⟨body, hbody, rfl⟩ := Option.map_eq_some_iff.1 h
    have hbehind := ih hbody
    exact .cons hbehind

theorem leadsTo_readRegex {inClass escaped : Bool} {t : Text} {offset : Nat} {d : Cursor}
    (h : readRegex inClass escaped t offset = some d) : LeadsTo ⟨t, offset⟩ d := by
  fun_induction readRegex inClass escaped t offset
  case case1 | case2 => cases h
  case case5 =>
    cases h
    exact leadsTo_cons _ _ _
  case case3 | case4 | case6 | case7 | case8 =>
    rename_i ih
    exact .cons (ih h)

/-! ## Tokens -/

theorem isPrefixOf_of_longest? {marks : List Punct} {mark : Punct} {t : Text}
    (h : Punct.longest? marks t = some mark) : mark.text.isPrefixOf t = true := by
  rw [Punct.longest?] at h
  simpa using List.find?_some h

namespace Scanned

/-- What is read at a cursor where no gap stands. A string is read up to the quote that it begins with,
and of a mark its signs are read. -/
inductive TokenRead (here : Cursor) (lineEnded : Bool) : Scanned → Prop where
  | endOfSource : TokenRead here lineEnded (.of .endOfSource [] lineEnded false here here)
  | malformed {faults : List Diagnostic} {after : Cursor} : here.LeadsTo after →
      TokenRead here lineEnded (.of .malformed faults lineEnded false here after)
  | word : (readWord 0 true here.rest here.offset).letters ≠ [] →
      TokenRead here lineEnded (.of (wordKind (readWord 0 true here.rest here.offset).letters) []
        lineEnded (readWord 0 true here.rest here.offset).escaped here
        (readWord 0 true here.rest here.offset).behind)
  | number {faults : List Diagnostic} : TokenRead here lineEnded
      (.of (readNumeral here).kind faults lineEnded false here (readNumeral here).behind)
  | string {value used : Text} {faults : List Diagnostic} {quote : Char} {after : Cursor} :
      quote = '"' ∨ quote = '\'' → here.Reaches (quote :: used ++ [quote]) after →
      TokenRead here lineEnded (.of (.string value) faults lineEnded false here after)
  | template {toEnd sound : Bool} {after : Cursor} : here.LeadsTo after →
      TokenRead here lineEnded (.of (.template true toEnd sound) [] lineEnded false here after)
  | privateName {after : Cursor} : here.LeadsTo after →
      TokenRead here lineEnded (.of .privateName [] lineEnded false here after)
  | mark {mark : Punct} : mark.text.isPrefixOf here.rest = true →
      TokenRead here lineEnded
        (.of (.punct mark) [] lineEnded false here (here.skip mark.text.length))

/-- **Every token is read in one of these ways.** -/
theorem tokenRead_scanToken (place : Place) (here : Cursor) (lineEnded : Bool) :
    TokenRead here lineEnded (scanToken place here lineEnded) := by
  have hstray : TokenRead here lineEnded (.of .malformed [⟨here.offset, .unexpectedCharacter⟩]
      lineEnded false here (here.skip 1)) := .malformed (leadsTo_skip _ _)
  have hbroken : TokenRead here lineEnded (.broken .unterminatedString [] lineEnded here) :=
    .malformed (leadsTo_end here)
  unfold scanToken
  split
  · exact .endOfSource
  · next c rest hrest =>
    obtain ⟨t, offset⟩ := here
    obtain rfl : t = c :: rest := hrest
    simp only
    split
    · split
      · exact hstray
      · next hletters =>
        exact .word fun hnone => hletters (by rw [hnone]; rfl)
    · split
      · split
        · exact .malformed (leadsTo_readNumeral _)
        · exact .number
      · split
        · next hquote =>
          have hstring : ∀ {used value : Text} {faults : List Diagnostic} {after : Cursor},
              Reaches ⟨rest, offset + c.utf8Size⟩ (used ++ [c]) after → TokenRead ⟨c :: rest, offset⟩
                lineEnded (.of (.string value) faults lineEnded false ⟨c :: rest, offset⟩ after) := by
            intro used value faults after hused
            have hall : Reaches ⟨c :: rest, offset⟩ (c :: used ++ [c]) after :=
              (Reaches.cons c rest offset).trans hused
            exact .string (by simpa using hquote) hall
          split
          · split
            · exact hbroken
            · next hopen =>
              obtain ⟨used, hused⟩ := reaches_skip_quote (by simpa using hopen)
              exact hstring hused
          · split
            · next body hbody =>
              obtain ⟨used, hused⟩ := exists_readQuoted_quote hbody
              exact hstring hused
            · exact hbroken
        · split
          · split
            · next part hpart => exact .template (.cons (leadsTo_readTemplate hpart))
            · exact hbroken
          · split
            · split
              · exact hstray
              · exact .privateName (.cons (leadsTo_readWord _ _ _ _))
            · split
              · next hquestion =>
                obtain ⟨⟨rfl, -⟩, -⟩ := by simpa using hquestion
                exact @TokenRead.mark _ _ .question rfl
              · split
                · next mark hmark => exact .mark (isPrefixOf_of_longest? hmark)
                · exact hstray

/-- What holds of a token that was read: the text behind it is what is left of the text at it, and
the sign that begins a tag is there. -/
structure Sound (s : Scanned) : Prop where
  leadsTo : s.here.LeadsTo s.after
  less : s.token.kind = .punct .less → ∃ rest, s.atToken = '<' :: rest ∧ s.token.start < s.token.stop

/-- A token between two cursors is sound if the second one is reached from the first, and if it
is no sign that begins a tag. -/
theorem sound_of {kind : TokenKind} {faults : List Diagnostic} {lineEnded escaped : Bool}
    {here after : Cursor} (hkind : kind ≠ .punct .less) (h : here.LeadsTo after) :
    (Scanned.of kind faults lineEnded escaped here after).Sound :=
  ⟨h, fun hless => absurd hless hkind⟩

/-- The sign that begins a tag. -/
theorem sound_of_less {faults : List Diagnostic} {lineEnded escaped : Bool} {here : Cursor}
    {rest : Text} (h : here.rest = '<' :: rest) :
    (Scanned.of (.punct .less) faults lineEnded escaped here (here.skip 1)).Sound := by
  obtain ⟨t, offset⟩ := here
  obtain rfl : t = '<' :: rest := h
  refine ⟨leadsTo_skip 1 _, fun _ => ⟨rest, rfl, ?_⟩⟩
  show offset < offset + '<'.utf8Size
  exact Nat.lt_add_of_pos_right ('<'.utf8Size_pos)

theorem sound_broken (cause : Cause) (faults : List Diagnostic) (lineEnded : Bool) (here : Cursor) :
    (Scanned.broken cause faults lineEnded here).Sound :=
  sound_of (by simp) (leadsTo_end here)

/-- A mark that the text begins with. -/
theorem sound_of_isPrefixOf {mark : Punct} {faults : List Diagnostic} {lineEnded escaped : Bool}
    {here : Cursor} (h : mark.text.isPrefixOf here.rest = true) :
    (Scanned.of (.punct mark) faults lineEnded escaped here (here.skip mark.text.length)).Sound := by
  by_cases hmark : mark = .less
  · subst hmark
    obtain ⟨rest, hrest⟩ := List.isPrefixOf_iff_prefix.1 h
    exact sound_of_less hrest.symm
  · exact sound_of (by simpa using hmark) (leadsTo_skip _ _)

theorem TokenRead.sound {here : Cursor} {lineEnded : Bool} {s : Scanned}
    (h : TokenRead here lineEnded s) : s.Sound := by
  cases h with
  | endOfSource => exact sound_of (by simp) (.refl _)
  | malformed hafter => exact sound_of (by simp) hafter
  | word _ =>
    refine sound_of ?_ (leadsTo_readWord _ _ _ _)
    unfold wordKind
    split <;> simp
  | number =>
    refine sound_of ?_ (leadsTo_readNumeral _)
    rcases isNumber_readNumeral here with hkind | hkind <;> simp [hkind]
  | string _ hafter => exact sound_of (by simp) ⟨_, hafter⟩
  | template hafter | privateName hafter => exact sound_of (by simp) hafter
  | mark hmark => exact sound_of_isPrefixOf hmark

theorem TokenRead.here_eq {here : Cursor} {lineEnded : Bool} {s : Scanned}
    (h : TokenRead here lineEnded s) : s.here = here := by
  cases h <;> rfl

theorem here_scanToken (place : Place) (here : Cursor) (lineEnded : Bool) :
    (scanToken place here lineEnded).here = here :=
  (tokenRead_scanToken place here lineEnded).here_eq

theorem sound_scanChild (here : Cursor) : (scanChild here).Sound := by
  unfold scanChild
  split
  · exact sound_of (by simp) (.refl _)
  · next h => exact sound_of_less h
  · exact sound_of (by simp) (leadsTo_skip _ _)
  · exact sound_of (by simp) (leadsTo_run _ _)

theorem here_scanChild (here : Cursor) : (scanChild here).here = here := by
  unfold scanChild
  split <;> rfl

/-- What is read behind a cursor is sound. -/
theorem sound_scan (place : Place) (c : Cursor) : (scan place c).Sound := by
  unfold scan
  dsimp only
  split
  · exact sound_scanChild c
  · split
    · exact sound_of (by simp) (.refl _)
    · exact (tokenRead_scanToken place _ _).sound

/-- What is read behind a cursor stands behind it. -/
theorem leadsTo_scan (place : Place) (c : Cursor) : c.LeadsTo (scan place c).here := by
  unfold scan
  dsimp only
  split
  · rw [here_scanChild]
    exact .refl c
  · split
    · exact leadsTo_skipGap _ _ _ _
    · rw [here_scanToken]
      exact leadsTo_skipGap _ _ _ _

/-- A token that is read again stays where it is. -/
theorem here_rescan (how : Rescan) (s : Scanned) : (rescan how s).here = s.here := by
  unfold rescan
  dsimp only
  repeat' split
  all_goals rfl

/-- A sound token that is read again is sound. -/
theorem sound_rescan (how : Rescan) {s : Scanned} (h : s.Sound) : (rescan how s).Sound := by
  unfold rescan
  dsimp only
  split
  · next body hbody =>
    split
    · next slash hslash =>
      refine sound_of (by simp) ?_
      rw [here, hbody]
      exact .cons ((leadsTo_readRegex hslash).trans (leadsTo_run _ _))
    · exact sound_broken _ _ _ _
  · next body hbody =>
    split
    · next part hpart =>
      refine sound_of (by simp) ?_
      rw [here, hbody]
      exact .cons (leadsTo_readTemplate hpart)
    · exact sound_broken _ _ _ _
  · split
    · next mark hmark => exact sound_of_isPrefixOf (isPrefixOf_of_longest? hmark)
    · exact h
  · next rest hrest => exact sound_of_less hrest
  · split
    · exact sound_of (by simp) (h.leadsTo.trans (leadsTo_run _ _))
    · exact h
  · exact h

end Scanned

end Retouch.Script
