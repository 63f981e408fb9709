import Retouch.Proofs.Script.Reach

/-!
# Marks and words are read in full

`Scanned.Sound` says that a token does not end before it begins. Here it is said how far the tokens
go that the tags of markup are made of: what is read of a mark is its signs, and of a word something
is read (`Scanned.Solid`). From this it follows that the parts of a tag are not empty.
-/

namespace Retouch.Script

open Text Cursor

/-- A mark has signs. -/
theorem Punct.byteLength_text_pos (mark : Punct) : 0 < byteLength mark.text := by
  cases mark <;> decide

/-! ## Words -/

/-- Of a word that has letters something is read. -/
theorem lt_offset_readWord {covered : Nat} {first : Bool} {t : Text} {offset : Nat}
    (h : (readWord covered first t offset).letters ≠ []) :
    offset < (readWord covered first t offset).behind.offset := by
  have hbehind : ∀ (covered : Nat) (first : Bool) (c : Char) (rest : Text) (offset : Nat),
      offset < (readWord covered first rest (offset + c.utf8Size)).behind.offset := by
    intro covered first c rest offset
    have hle := (leadsTo_readWord covered first rest (offset + c.utf8Size)).offset_le
    exact Nat.lt_of_lt_of_le (Nat.lt_add_of_pos_right c.utf8Size_pos) hle
  fun_induction readWord covered first t offset
  case case2 | case3 => exact hbehind _ _ _ _ _
  case case4 hback _ _ _ _ _ ih =>
    obtain rfl := eq_of_beq hback
    exact hbehind _ _ '\\' _ _
  case case1 | case5 | case6 | case7 | case8 => exact absurd rfl h

/-! ## Tokens -/

namespace Scanned

/-- What a mark or a word says of the text at it. -/
structure Solid (s : Scanned) : Prop where
  /-- What is read of a mark is its signs. -/
  mark : ∀ mark, s.token.kind = .punct mark → s.here.Reaches mark.text s.after
  /-- Of a word something is read. -/
  word : s.token.kind.isWord = true → s.token.start < s.token.stop

theorem Solid.lt_stop {s : Scanned} (h : s.Solid) {mark : Punct} (hmark : s.token.kind = .punct mark) :
    s.token.start < s.token.stop := by
  obtain ⟨-, hstop⟩ := h.mark mark hmark
  have hstop' : s.token.stop = s.token.start + byteLength mark.text := hstop
  have := mark.byteLength_text_pos
  omega

/-- A token that is neither a mark nor a word. -/
theorem solid_of {s : Scanned} (hmark : ∀ mark, s.token.kind ≠ .punct mark)
    (hword : s.token.kind.isWord = false) : s.Solid :=
  ⟨fun mark h => absurd h (hmark mark), fun h => by rw [hword] at h; cases h⟩

theorem solid_of_mark {mark : Punct} {faults : List Diagnostic} {lineEnded escaped : Bool}
    {here after : Cursor} (h : here.Reaches mark.text after) :
    (Scanned.of (.punct mark) faults lineEnded escaped here after).Solid where
  mark := by
    rintro other hother
    obtain rfl : mark = other := TokenKind.punct.inj hother
    exact h
  word := fun hword => by cases hword

theorem solid_of_word {kind : TokenKind} {faults : List Diagnostic} {lineEnded escaped : Bool}
    {here after : Cursor} (hkind : kind.isWord = true) (h : here.offset < after.offset) :
    (Scanned.of kind faults lineEnded escaped here after).Solid where
  mark := by
    rintro mark hmark
    have hkind' : kind = .punct mark := hmark
    rw [hkind'] at hkind
    cases hkind
  word := fun _ => h

/-- A mark that a text begins with is what is skipped of it. -/
theorem reaches_skip_of_isPrefixOf {mark : Punct} {here : Cursor}
    (h : mark.text.isPrefixOf here.rest = true) :
    here.Reaches mark.text (here.skip mark.text.length) := by
  obtain ⟨rest, hrest⟩ := List.isPrefixOf_iff_prefix.1 h
  have hskip := reaches_skip mark.text.length here
  rwa [← hrest, List.take_left] at hskip

theorem solid_broken (cause : Cause) (faults : List Diagnostic) (lineEnded : Bool) (here : Cursor) :
    (Scanned.broken cause faults lineEnded here).Solid :=
  solid_of (fun _ h => by cases h) rfl

theorem isWord_wordKind (letters : Text) : (wordKind letters).isWord = true := by
  unfold wordKind
  split <;> rfl

theorem TokenRead.solid {here : Cursor} {lineEnded : Bool} {s : Scanned}
    (h : TokenRead here lineEnded s) : s.Solid := by
  cases h with
  | word hletters => exact solid_of_word (isWord_wordKind _) (lt_offset_readWord hletters)
  | number =>
    rcases isNumber_readNumeral here with hkind | hkind <;> rw [hkind] <;>
      exact solid_of (fun _ h => by cases h) rfl
  | mark hmark => exact solid_of_mark (reaches_skip_of_isPrefixOf hmark)
  | endOfSource | malformed _ | string _ _ | template _ | privateName _ =>
    exact solid_of (fun _ h => by cases h) rfl

theorem solid_scanToken (place : Place) (here : Cursor) (lineEnded : Bool) :
    (scanToken place here lineEnded).Solid :=
  (tokenRead_scanToken place here lineEnded).solid

theorem solid_scanChild (here : Cursor) : (scanChild here).Solid := by
  obtain ⟨t, offset⟩ := here
  unfold scanChild
  split
  · exact solid_of (fun _ h => by cases h) rfl
  · next hrest =>
    obtain rfl : t = _ := hrest
    exact solid_of_mark (reaches_skip 1 _)
  · next hrest =>
    obtain rfl : t = _ := hrest
    exact solid_of_mark (reaches_skip 1 _)
  · exact solid_of (fun _ h => by cases h) rfl

/-- What is read behind a cursor is solid. -/
theorem solid_scan (place : Place) (c : Cursor) : (scan place c).Solid := by
  unfold scan
  dsimp only
  split
  · exact solid_scanChild c
  · split
    · exact solid_of (fun _ h => by cases h) rfl
    · exact solid_scanToken _ _ _

/-- A solid token that is read again is solid. -/
theorem solid_rescan (how : Rescan) {s : Scanned} (h : s.Solid) : (rescan how s).Solid := by
  unfold rescan
  dsimp only
  split
  · split
    · exact solid_of (fun _ h => by cases h) rfl
    · exact solid_broken _ _ _ _
  · split
    · exact solid_of (fun _ h => by cases h) rfl
    · exact solid_broken _ _ _ _
  · split
    · next mark hmark => exact solid_of_mark (reaches_skip_of_isPrefixOf (isPrefixOf_of_longest? hmark))
    · exact h
  · next rest hrest =>
    refine solid_of_mark ?_
    have hskip := reaches_skip 1 s.here
    have hrest' : s.here.rest = '<' :: rest := hrest
    rwa [hrest'] at hskip
  · split
    · next word hword hrest =>
      refine solid_of_word rfl ?_
      have hlt := h.word (by rw [TokenKind.isWord, hword]; rfl)
      have hle := (leadsTo_run (fun c => c == '-' || isIdentifierPart c) s.after).offset_le
      exact Nat.lt_of_lt_of_le hlt hle
    · exact h
  · exact h

end Scanned

end Retouch.Script
