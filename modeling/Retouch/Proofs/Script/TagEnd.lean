import Retouch.Proofs.Script.Between

/-!
# The end of a tag

What a sign `>` does that is put behind the attributes of an opening tag. If only blanks and closed
comments stand before it (`closes`), it is the next token there, whatever stands behind it, and it ends
the tag (`EndsWith.stop_of_closes`).

A gap is read of its own text, but for its end: a slash there may begin a comment with what follows it
(`exists_gap`).
-/

namespace Retouch.Script

open Text Cursor

/-! ## Gaps -/

/-- Whether a character ends a gap, whatever stands behind it. -/
structure EndsGap (c : Char) : Prop where
  slash : c ≠ '/'
  line : isLineEnd c = false
  blank : isInlineBlank c = false

theorem EndsGap.skipGap {c : Char} (h : EndsGap c) (rest : Text) (n : Nat) (lineEnded : Bool) :
    skipGap .blank (c :: rest) n lineEnded = ⟨⟨c :: rest, n⟩, lineEnded, none⟩ := by
  rw [Script.skipGap, h.line, h.blank]
  · rfl
  · rintro _ rfl
    exact absurd rfl h.slash
  · rintro _ rfl
    exact absurd rfl h.slash

/-- A gap that ends before a character is the same gap before any other one that ends it, unless the
first one is one that a comment can begin with. -/
theorem exists_gap_endsGap {part : GapPart} {t : Text} {n : Nat} {lineEnded : Bool} {c : Char}
    {rest : Text} (h : (skipGap part t n lineEnded).cursor.rest = c :: rest) (hc : c ≠ '/') :
    EndsGap c ∧ ∃ gap lines, t = gap ++ c :: rest ∧ ∀ d more, EndsGap d →
      skipGap part (gap ++ d :: more) n lineEnded = ⟨⟨d :: more, n + byteLength gap⟩, lines, none⟩ := by
  have hsigns : ('/' : Char).utf8Size = 1 ∧ ('*' : Char).utf8Size = 1 := ⟨rfl, rfl⟩
  have htwo : ∀ k m : Nat, k + 2 + m = k + (1 + (1 + m)) := by omega
  fun_induction skipGap part t n lineEnded
  case case1 ih | case2 ih | case8 ih =>
    obtain ⟨hstop, gap, lines, rfl, hgap⟩ := ih h
    refine ⟨hstop, _ :: _ :: gap, lines, rfl, fun d more hd => ?_⟩
    rw [List.cons_append, List.cons_append, skipGap, hgap d more hd]
    simp only [byteLength_cons, hsigns, htwo]
  case case3 hline ih =>
    obtain ⟨hstop, gap, lines, rfl, hgap⟩ := ih h
    refine ⟨hstop, _ :: gap, lines, rfl, fun d more hd => ?_⟩
    rw [List.cons_append, skipGap, if_pos hline, hgap d more hd, byteLength_cons, Nat.add_assoc]
    · rintro _ rfl
      cases hline
    · rintro _ rfl
      cases hline
  case case4 hline hblank ih =>
    obtain ⟨hstop, gap, lines, rfl, hgap⟩ := ih h
    refine ⟨hstop, _ :: gap, lines, rfl, fun d more hd => ?_⟩
    rw [List.cons_append, skipGap, if_neg hline, if_pos hblank, hgap d more hd, byteLength_cons,
      Nat.add_assoc]
    · rintro _ rfl
      cases hblank
    · rintro _ rfl
      cases hblank
  case case5 lineEnded _ _ hline hblank =>
    obtain ⟨rfl, rfl⟩ := List.cons.inj h
    exact ⟨⟨hc, Bool.not_eq_true _ ▸ hline, Bool.not_eq_true _ ▸ hblank⟩, [], lineEnded, rfl,
      fun d more hd => hd.skipGap more _ _⟩
  case case6 hline ih =>
    obtain ⟨hstop, gap, lines, rfl, hgap⟩ := ih h
    refine ⟨hstop, _ :: gap, lines, rfl, fun d more hd => ?_⟩
    rw [List.cons_append, skipGap, if_pos hline, hgap d more hd, byteLength_cons, Nat.add_assoc]
  case case7 hline ih =>
    obtain ⟨hstop, gap, lines, rfl, hgap⟩ := ih h
    refine ⟨hstop, _ :: gap, lines, rfl, fun d more hd => ?_⟩
    rw [List.cons_append, skipGap, if_neg hline, hgap d more hd, byteLength_cons, Nat.add_assoc]
  case case9 hend ih =>
    obtain ⟨hstop, gap, lines, rfl, hgap⟩ := ih h
    refine ⟨hstop, _ :: gap, lines, rfl, fun d more hd => ?_⟩
    rw [List.cons_append, skipGap, hgap d more hd, byteLength_cons, Nat.add_assoc]
    -- The comment does not end here either: what stands behind the sign is as before, or the end of
    -- the gap.
    rintro more rfl hslash
    cases gap with
    | nil => exact hd.slash (List.cons.inj hslash).1
    | cons d gap => exact hend _ rfl (by rw [List.cons_append, (List.cons.inj hslash).1])
  case case10 | case11 => cases h

/-- A gap that ends before a character is the same gap whatever stands behind that character, unless
it is one that a comment can begin with. -/
theorem exists_gap {part : GapPart} {t : Text} {n : Nat} {lineEnded : Bool} {c : Char} {rest : Text}
    (h : (skipGap part t n lineEnded).cursor.rest = c :: rest) (hc : c ≠ '/') :
    ∃ gap lines, t = gap ++ c :: rest ∧ ∀ more, skipGap part (gap ++ c :: more) n lineEnded
      = ⟨⟨c :: more, n + byteLength gap⟩, lines, none⟩ := by
  obtain ⟨hstop, gap, lines, hgap, hmore⟩ := exists_gap_endsGap h hc
  exact ⟨gap, lines, hgap, fun more => hmore c more hstop⟩

/-- Whether nothing but a gap stands between two cursors. -/
def Cursor.Gap (c d : Cursor) : Prop :=
  ∃ lineEnded, skipGap .blank c.rest c.offset false = ⟨d, lineEnded, none⟩

theorem EndsGap.gap {c : Char} (h : EndsGap c) (rest : Text) (n : Nat) :
    Cursor.Gap ⟨c :: rest, n⟩ ⟨c :: rest, n⟩ := ⟨false, h.skipGap rest n false⟩

/-- Behind a gap the token is read that stands there. -/
theorem Cursor.Gap.exists_scan {c d : Cursor} (h : c.Gap d) (place : Place) (hplace : place ≠ .child) :
    ∃ lineEnded, scan place c = scanToken place d lineEnded := by
  obtain ⟨lineEnded, hgap⟩ := h
  exact ⟨lineEnded, scan_of_skipGap hplace hgap⟩

/-- A gap is the same before another character that ends it. -/
theorem Cursor.Gap.exists_gap {t rest : Text} {n m : Nat} {c : Char}
    (h : Cursor.Gap ⟨t, n⟩ ⟨c :: rest, m⟩) (hc : c ≠ '/') :
    EndsGap c ∧ ∃ gap, t = gap ++ c :: rest ∧ m = n + byteLength gap ∧
      ∀ d more, EndsGap d → Cursor.Gap ⟨gap ++ d :: more, n⟩ ⟨d :: more, m⟩ := by
  obtain ⟨lineEnded, hskip⟩ := h
  obtain ⟨hends, gap, lines, hgap, hmore⟩ := exists_gap_endsGap (congrArg (·.cursor.rest) hskip) hc
  have hhere := hmore c rest hends
  rw [← hgap] at hhere
  have hoffset : m = n + byteLength gap :=
    congrArg (·.cursor.offset) (hskip.symm.trans hhere)
  refine ⟨hends, gap, hgap, hoffset, fun d more hd => ⟨lines, ?_⟩⟩
  rw [hoffset]
  exact hmore d more hd

/-- A gap that ends in a part of a text is there, too, before another text. -/
theorem Cursor.Gap.exists_beside {m y z rest : Text} {n o : Nat} {c : Char}
    (h : Cursor.Gap ⟨m ++ y, n⟩ ⟨c :: rest, o⟩) (hc : c ≠ '/') (ho : o ≤ n + byteLength m)
    (hz : o = n + byteLength m → ∃ d more, z = d :: more ∧ EndsGap d) :
    ∃ d more, Cursor.Gap ⟨m ++ z, n⟩ ⟨d :: more, o⟩ ∧
      (d = c ∨ o = n + byteLength m ∧ z = d :: more) := by
  obtain ⟨hends, gap, hgap, rfl, hmore⟩ := h.exists_gap hc
  obtain ⟨tail, rfl, htail⟩ := exists_eq_append_of_byteLength_le hgap.symm (by omega)
  cases tail with
  | nil =>
    rw [List.append_nil] at hz ⊢
    obtain ⟨d, more, rfl, hd⟩ := hz rfl
    exact ⟨d, more, hmore d more hd, .inr ⟨rfl, rfl⟩⟩
  | cons d tail =>
    obtain ⟨rfl, -⟩ := List.cons.inj htail
    refine ⟨c, tail ++ z, ?_, .inl rfl⟩
    have hbeside := hmore c (tail ++ z) hends
    simpa using hbeside

/-- Whether a text holds blanks and closed comments only, so that a sign `>` behind it is the next
token there. -/
def closes (gap : Text) : Bool := (skipGap .blank (gap ++ ['>']) 0 false).cursor.rest == ['>']

theorem skipGap_of_closes {gap : Text} (h : closes gap = true) (tail : Text) (n : Nat) :
    (skipGap .blank (gap ++ '>' :: tail) n false).cursor = ⟨'>' :: tail, n + byteLength gap⟩ := by
  have hrest : (skipGap .blank (gap ++ ['>']) n false).cursor.rest = ['>'] :=
    (skipGap_offset .blank (gap ++ ['>']) n 0 false).1.trans (eq_of_beq h)
  obtain ⟨skipped, lines, hskipped, hmore⟩ := exists_gap hrest (by decide)
  obtain rfl : gap = skipped := List.append_cancel_right hskipped
  rw [hmore]

/-- Such a text begins with no sign of a tag. -/
theorem ne_of_closes_cons {c : Char} {gap : Text} (h : closes (c :: gap) = true) :
    c ≠ '<' ∧ c ≠ '>' := by
  have hrest : (skipGap .blank (c :: (gap ++ ['>'])) 0 false).cursor.rest = ['>'] := eq_of_beq h
  constructor
  · rintro rfl
    cases hrest
  · rintro rfl
    have hnone : gap ++ ['>'] = [] := (List.cons.inj hrest).2
    simp at hnone

/-! ## Tokens behind a gap -/

/-- No reading again makes a slash. -/
theorem kind_rescan_ne_slash (how : Rescan) {s : Scanned} (h : s.token.kind ≠ .punct .slash) :
    (rescan how s).token.kind ≠ .punct .slash := by
  unfold rescan
  dsimp only
  split
  · split <;> exact fun hkind => by cases hkind
  · split <;> exact fun hkind => by cases hkind
  · split
    · next mark hmark =>
      intro hkind
      obtain rfl : mark = .slash := TokenKind.punct.inj hkind
      exact absurd (List.mem_of_find?_eq_some hmark) (by decide)
    · exact h
  · exact fun hkind => by cases hkind
  · split
    · exact fun hkind => by cases hkind
    · exact h
  · exact h

/-- A token of code stands behind the gap before it. -/
theorem Scanned.here_scan_gap (place : Place) (h : place ≠ .child) (c : Cursor) :
    (Script.scan place c).here = (skipGap .blank c.rest c.offset false).cursor := by
  rw [Script.scan, if_neg (by simpa using h)]
  dsimp only
  split
  · rfl
  · exact here_scanToken _ _ _

/-- There is a gap before every token of code that is well formed. -/
theorem gap_here_of_kind {place : Place} (hplace : place ≠ .child) {c : Cursor}
    (h : (Script.scan place c).token.kind ≠ .malformed) : c.Gap (Script.scan place c).here := by
  rw [Scanned.here_scan_gap place hplace]
  refine ⟨(skipGap .blank c.rest c.offset false).lineEnded, ?_⟩
  rw [scan, if_neg (by simpa using hplace)] at h
  dsimp only at h
  generalize skipGap .blank c.rest c.offset false = gap at h
  obtain ⟨here, lineEnded, comment⟩ := gap
  cases comment with
  | none => rfl
  | some start => exact absurd rfl h

/-- Behind a mark the text goes on that stands there. -/
theorem Cursor.Gap.after_of_mark {c : Cursor} {mark : Punct} {rest : Text} {n : Nat}
    (h : c.Gap ⟨mark.text ++ rest, n⟩) (hmark : (scan .code c).token.kind = .punct mark) :
    (scan .code c).after = ⟨rest, n + byteLength mark.text⟩ := by
  obtain ⟨lineEnded, hgap⟩ := h
  obtain ⟨hspelt, hstop⟩ := (Scanned.solid_scan .code c).mark mark hmark
  rw [Scanned.here_scan_gap .code (by decide), hgap] at hspelt hstop
  rw [← hstop, List.append_cancel_left hspelt]

/-- The sign behind a gap, if a mark is read there, wherever in a source that is. -/
theorem Cursor.Gap.head_of_mark {t rest : Text} {n o k : Nat} {c : Char} {mark : Punct}
    (h : Cursor.Gap ⟨t, n⟩ ⟨c :: rest, o⟩) (hmark : (scan .code ⟨t, k⟩).token.kind = .punct mark) :
    mark.text.head? = some c := by
  obtain ⟨_, hskip⟩ := h
  have hspelt := ((Scanned.solid_scan .code _).mark mark hmark).1
  rw [Scanned.here_scan_gap .code (by decide)] at hspelt
  dsimp only at hspelt hskip
  rw [(skipGap_offset .blank t k n false).1, hskip] at hspelt
  cases mark <;> exact congrArg List.head? hspelt.symm

/-- A token stands behind the gap before it, unless it is a piece of text between tags; that is no
slash. -/
theorem Scanned.ReadAt.here {c : Cursor} {s : Scanned} (h : s.ReadAt c) :
    s.here = (skipGap .blank c.rest c.offset false).cursor ∨
      s.here = c ∧ s.token.kind ≠ .punct .slash := by
  induction h with
  | scan place =>
    cases place with
    | child =>
      refine .inr ⟨Scanned.here_scanChild c, ?_⟩
      show (scanChild c).token.kind ≠ .punct .slash
      unfold scanChild
      split <;> exact fun hkind => by cases hkind
    | code | «attribute» => exact .inl (Scanned.here_scan_gap _ (by decide) c)
  | rescan how _ ih =>
    rw [Scanned.here_rescan]
    exact ih.imp_right fun ⟨hhere, hkind⟩ => ⟨hhere, kind_rescan_ne_slash how hkind⟩

/-- **A sign behind a gap ends the tag.** If only blanks and closed comments stand between the
attributes of a tag and a sign `>`, then that is the end of the tag, and there is a closing tag. -/
theorem EndsWith.stop_of_closes {tag : Tag} {s : Scanned} {gap tail : Text} {n : Nat}
    (h : EndsWith tag s) (hread : s.ReadAt ⟨gap ++ '>' :: tail, n⟩) (hsolid : s.Solid)
    (hgap : closes gap = true) :
    tag.closing ≠ none ∧ tag.opening.stop = n + byteLength gap + 1 := by
  have hmark : ∀ mark, s.token.kind = .punct mark → s.here.rest = mark.text ++ s.behind :=
    fun mark hkind => (hsolid.mark mark hkind).1
  -- The token is the sign, or a piece of text that begins with what stands before the sign.
  have htoken : s.here = ⟨'>' :: tail, n + byteLength gap⟩ ∨
      (∃ c rest, s.here.rest = c :: rest ∧ c ≠ '<' ∧ c ≠ '>') ∧ s.token.kind ≠ .punct .slash := by
    rcases hread.here with hhere | ⟨hhere, hslash⟩
    · exact .inl (hhere.trans (skipGap_of_closes hgap tail n))
    · cases gap with
      | nil => exact .inl hhere
      | cons c gap =>
        have hrest : s.here.rest = c :: (gap ++ '>' :: tail) := congrArg Cursor.rest hhere
        exact .inr ⟨⟨c, _, hrest, ne_of_closes_cons hgap⟩, hslash⟩
  rcases htoken with hhere | ⟨⟨c, rest, hhere, hless, hgreater⟩, hslash⟩
  · rw [hhere] at hmark
    cases h with
    | types hkind => rcases hkind with hkind | hkind <;> cases hmark _ hkind
    | single _ hkind => cases hmark _ hkind
    | opening hclosing hkind hstop =>
      have hafter : s.token.stop = s.here.offset + 1 := (hsolid.mark _ hkind).2
      rw [hhere] at hafter
      exact ⟨hclosing, hstop.symm.trans hafter⟩
  · rw [hhere] at hmark
    cases h with
    | types hkind =>
      rcases hkind with hkind | hkind <;> exact absurd (List.cons.inj (hmark _ hkind)).1 hless
    | single _ hkind => exact absurd hkind hslash
    | opening _ hkind _ => exact absurd (List.cons.inj (hmark _ hkind)).1 hgreater

end Retouch.Script
