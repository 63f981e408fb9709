import Retouch.Report
import Retouch.Proofs.Patch.Origins

/-!
# A report points at the failing character

The offset of an error is counted in bytes and a report counts in characters. A text that is cut at the
offset is cut behind as many characters as the report skips, so the report points at the first character
behind the cut, or at nothing if the cut is at the end (`highlight_append`). The mark is drawn in the
line that holds this character, in its column (`exists_locate`). Both together are the main statement,
`highlight_points`.
-/

namespace Retouch.Report

open Text

/-! ## Bytes and characters -/

/-- A text can be cut at one of its boundaries, and at its end for an offset behind it. -/
theorem exists_append_of_offset {source : Text} {offset : Nat}
    (h : isBoundary source offset = true ∨ byteLength source < offset) :
    ∃ before behind, source = before ++ behind ∧
      byteLength before = min offset (byteLength source) := by
  rcases h with hboundary | hbehind
  · obtain ⟨before, behind, rfl, rfl⟩ := isBoundary_iff.1 hboundary
    refine ⟨before, behind, rfl, ?_⟩
    rw [byteLength_append]
    omega
  · exact ⟨source, [], (List.append_nil source).symm, by omega⟩

/-- Behind a cut a report points at the first character, if there is one. -/
theorem highlight_append {before behind : Text} {offset : Nat}
    (h : byteLength before = min offset (byteLength (before ++ behind))) :
    highlight (before ++ behind) offset
      = ⟨before.length, before.length + min 1 behind.length⟩ := by
  have hstart : charactersBefore (before ++ behind) offset = before.length := by
    rw [charactersBefore, ← h, splitAt?_append]
  have hstop : max before.length (min (before.length + 1) (before.length + behind.length))
      = before.length + min 1 behind.length := by omega
  rw [highlight, hstart, List.length_append, hstop]

/-! ## Lines and columns -/

/-- The lines of a text make up the text. -/
theorem flatten_lines (t : Text) : (lines t).flatten = t := by
  induction t using lines.induct with
  | case1 => rfl
  | case2 rest ih => rw [lines, List.flatten_cons, ih]; rfl
  | case3 c rest hpair hend ih =>
    rw [lines, if_pos hend, List.flatten_cons, ih]
    · rfl
    · exact hpair
  | case4 c rest hpair hend hnone ih =>
    rw [lines, if_neg hend, hnone]
    · rw [← ih, hnone]
      rfl
    · exact hpair
  | case5 c rest hpair hend line others hline ih =>
    rw [lines, if_neg hend, hline]
    · rw [← ih, hline]
      rfl
    · exact hpair

/-- The column of a place in its line is that of the character in the whole text. -/
theorem exists_locate {rows : List Text} (h : rows ≠ []) (number rank : Nat) :
    ∃ place, locate number rank rows = some place ∧
      place.line[place.column]? = rows.flatten[rank]? := by
  induction rows generalizing number rank with
  | nil => exact absurd rfl h
  | cons line rest ih =>
    cases rest with
    | nil => exact ⟨⟨number, line, rank⟩, rfl, by simp⟩
    | cons next others =>
      by_cases hrank : rank < line.length
      · refine ⟨⟨number, line, rank⟩, by rw [locate, if_pos hrank]; simp, ?_⟩
        rw [List.flatten_cons, List.getElem?_append_left hrank]
      · obtain ⟨place, hplace, hcolumn⟩ := ih (List.cons_ne_nil _ _) (number + 1) (rank - line.length)
        have hflat : (line :: next :: others).flatten = line ++ (next :: others).flatten := rfl
        refine ⟨place, by rw [locate, if_neg hrank]; exact hplace; simp, ?_⟩
        rw [hcolumn, hflat, List.getElem?_append_right (Nat.le_of_not_lt hrank)]

/-! ## What is pointed at -/

/-- **A report points at the character behind the offset.** What it points at lies in the source, the
characters before it are the bytes before the offset, and it is the one character that begins there, or
nothing exactly if that is the end of the source. The mark stands in the line and the column of that
character. -/
theorem highlight_points {source : Text} {offset : Nat}
    (h : isBoundary source offset = true ∨ byteLength source < offset) :
    let position := min offset (byteLength source)
    let pointed := highlight source offset
    (pointed.start ≤ pointed.stop ∧ pointed.stop ≤ source.length) ∧
      bytes (source.take pointed.start) = (bytes source).take position ∧
      (position < byteLength source → ∃ c rest,
        source.drop pointed.start = c :: rest ∧ bytes (c :: rest) = (bytes source).drop position ∧
          pointed.stop = pointed.start + 1) ∧
      (pointed.start = pointed.stop ↔ position = byteLength source) ∧
      (source ≠ [] → ∃ place, locate 1 pointed.start (lines source) = some place ∧
        place.line[place.column]? = source[pointed.start]?) := by
  obtain ⟨before, behind, rfl, hbefore⟩ := exists_append_of_offset h
  intro position pointed
  have hpointed : pointed = ⟨before.length, before.length + min 1 behind.length⟩ :=
    highlight_append hbefore
  have hposition : position = (bytes before).length := by rw [length_bytes, hbefore]
  have hplace : before ++ behind ≠ [] → ∃ place,
      locate 1 before.length (lines (before ++ behind)) = some place ∧
        place.line[place.column]? = (before ++ behind)[before.length]? := by
    intro hsource
    have hlines : lines (before ++ behind) ≠ [] := by
      intro hnone
      have hflat := flatten_lines (before ++ behind)
      rw [hnone] at hflat
      exact hsource hflat.symm
    obtain ⟨place, hplace, hcolumn⟩ := exists_locate hlines 1 before.length
    exact ⟨place, hplace, by rw [hcolumn, flatten_lines]⟩
  have hbytes : bytes ((before ++ behind).take before.length)
      = (bytes (before ++ behind)).take position := by
    rw [List.take_left, bytes_append, hposition, List.take_left]
  cases behind with
  | nil =>
    have hend : position = byteLength (before ++ []) := by
      rw [hposition, length_bytes, List.append_nil]
    rw [hpointed]
    exact ⟨⟨Nat.le_refl _, by simp⟩, hbytes, fun hlt => absurd hend (Nat.ne_of_lt hlt),
      iff_of_true rfl hend, hplace⟩
  | cons c rest =>
    have hinside : position < byteLength (before ++ c :: rest) := by
      have hsize := c.utf8Size_pos
      rw [hposition, length_bytes, byteLength_append, byteLength_cons]
      omega
    have hone : min 1 (c :: rest).length = 1 := by simp
    rw [hpointed, hone]
    refine ⟨⟨Nat.le_succ _, by simp⟩, hbytes, fun _ => ⟨c, rest, List.drop_left, ?_, rfl⟩,
      iff_of_false (Nat.ne_of_lt (Nat.lt_succ_self _)) (Nat.ne_of_lt hinside), hplace⟩
    rw [bytes_append, hposition, List.drop_left]

/-- A wide letter behind a letter of two bytes, and an offset behind the source. -/
theorem highlight_points_wide :
    let source := "é漢\nb".toList
    let letter := highlight source 2
    let last := highlight source 500
    (isBoundary source 2 = true ∨ byteLength source < 2) ∧ letter = ⟨1, 2⟩ ∧
      bytes (source.take letter.start) = (bytes source).take 2 ∧
      (∃ c rest, source.drop letter.start = c :: rest ∧ bytes (c :: rest) = (bytes source).drop 2 ∧
        letter.stop = letter.start + 1) ∧
      (isBoundary source 500 = true ∨ byteLength source < 500) ∧ last = ⟨4, 4⟩ ∧
      ∃ place, locate 1 last.start (lines source) = some place ∧ place.line[place.column]? = none := by
  have hinside : isBoundary "é漢\nb".toList 2 = true ∨ byteLength "é漢\nb".toList < 2 := by decide
  have hbehind : isBoundary "é漢\nb".toList 500 = true ∨ byteLength "é漢\nb".toList < 500 := by
    decide
  obtain ⟨-, hbefore, hletter, -, -⟩ := highlight_points hinside
  obtain ⟨-, -, -, -, hplace⟩ := highlight_points hbehind
  exact ⟨hinside, by decide, hbefore, hletter (by decide), hbehind, by decide, hplace (by decide)⟩

end Retouch.Report
