import Retouch.Proofs.Script.TagName

/-!
# Words before a text that was changed

What is read of a word is decided by the word and the first character behind it. So a word is read as
it was where the text behind it is changed, if the new text does not go on with the word
(`readWord_of_ends`, `hyphenWord_of_wordAt`). The same holds of the name of a tag (`NameRead.spells`).
-/

namespace Retouch.Script

open Text Cursor

/-- Whether a text behind a word ends it: it begins with no character that the word or an escape could
go on with, unless another text began with it that did end the word. -/
def Ends (u v : Text) : Prop :=
  ∀ c rest, v = c :: rest → c ≠ '\\' ∧ (isIdentifierPart c = true ∨ c = '-' → u.head? = some c)

/-- A character that belongs to no word ends every word. -/
theorem ends_cons {c : Char} (hpart : isIdentifierPart c = false) (hhyphen : c ≠ '-')
    (hbackslash : c ≠ '\\') (u rest : Text) : Ends u (c :: rest) := by
  intro d _ hcons
  obtain ⟨rfl, -⟩ := List.cons.inj hcons
  refine ⟨hbackslash, ?_⟩
  rintro (hidentifier | rfl)
  · rw [hpart] at hidentifier
    cases hidentifier
  · exact absurd rfl hhyphen

/-- A blank ends every word. -/
theorem ends_blank (u rest : Text) : Ends u (' ' :: rest) :=
  ends_cons (by decide) (by decide) (by decide) u rest

/-- The character that ended the word ends it again, unless it could begin an escape. -/
theorem ends_same {u v : Text} {c : Char} (hc : c ≠ '\\') : Ends (c :: u) (c :: v) := by
  intro d _ hcons
  obtain ⟨rfl, -⟩ := List.cons.inj hcons
  exact ⟨hc, fun _ => rfl⟩

/-- A word ends where it did. -/
theorem readWord_of_ends {covered : Nat} {first : Bool} {p u v : Text} {k : Nat}
    (h : (readWord covered first (p ++ u) k).behind.offset = k + byteLength p)
    (hends : Ends u v) (hcovered : covered ≤ p.length) :
    (readWord covered first (p ++ v) k).letters = (readWord covered first (p ++ u) k).letters ∧
      (readWord covered first (p ++ v) k).behind = ⟨v, k + byteLength p⟩ := by
  induction p generalizing covered first k with
  | nil =>
    obtain rfl : covered = 0 := Nat.le_zero.1 hcovered
    have hnone : (readWord 0 first ([] ++ u) k).letters = [] := by
      by_contra hne
      have hlt := lt_offset_readWord hne
      rw [h, byteLength_nil] at hlt
      omega
    rw [hnone]
    cases v with
    | nil => exact ⟨rfl, rfl⟩
    | cons c v =>
      obtain ⟨hbackslash, hsame⟩ := hends c v rfl
      have hstop : ¬ belongs first c = true := by
        intro hbelongs
        have hpart : isIdentifierPart c = true := by
          cases first with
          | true => exact isIdentifierPart_of_isIdentifierStart hbelongs
          | false => exact hbelongs
        obtain ⟨u, rfl⟩ := List.head?_eq_some_iff.1 (hsame (.inl hpart))
        rw [List.nil_append, readWord_belongs hbelongs] at hnone
        cases hnone
      rw [List.nil_append, readWord_stop hstop hbackslash]
      exact ⟨rfl, rfl⟩
  | cons c p ih =>
    rw [byteLength_cons, ← Nat.add_assoc] at h ⊢
    cases covered with
    | succ m => exact ih h (Nat.le_of_succ_le_succ hcovered)
    | zero =>
      rw [List.cons_append] at h
      rw [List.cons_append, List.cons_append]
      by_cases hbelongs : belongs first c = true
      · rw [readWord_belongs hbelongs] at h
        rw [readWord_belongs hbelongs, readWord_belongs hbelongs]
        exact (ih h (Nat.zero_le _)).imp_left (congrArg (c :: ·))
      · have hfar : k < k + c.utf8Size + byteLength p := by
          have := c.utf8Size_pos
          omega
        by_cases hbackslash : c = '\\'
        · subst hbackslash
          rw [readWord_backslash] at h
          rw [readWord_backslash, readWord_backslash]
          cases hescaped : readEscaped first (p ++ u) with
          | none =>
            rw [hescaped] at h
            exact absurd h (Nat.ne_of_lt hfar)
          | some escaped =>
            rw [hescaped] at h
            obtain ⟨hfits, hsame⟩ := readEscaped_append hescaped (Nat.le_of_eq h)
            rw [hsame v]
            exact (ih h hfits).imp_left (congrArg (escaped.1 :: ·))
        · rw [readWord_stop hbelongs hbackslash] at h
          exact absurd h (Nat.ne_of_lt hfar)

/-- So does a run of characters. -/
theorem runFrom_of_ends {q : Char → Bool} {p u v : Text} {k : Nat}
    (h : (runFrom q (p ++ u) k).2.offset = k + byteLength p)
    (hends : ∀ c rest, v = c :: rest → q c = true → u.head? = some c) :
    runFrom q (p ++ v) k = ((runFrom q (p ++ u) k).1, ⟨v, k + byteLength p⟩) := by
  induction p generalizing k with
  | nil =>
    have hoffset : (runFrom q u k).2.offset = k + byteLength (runFrom q u k).1 :=
      (reaches_runFrom q u k).2
    have hsame : (runFrom q u k).2.offset = k := h
    have hnone : (runFrom q u k).1 = [] := eq_nil_of_byteLength_eq_zero (by omega)
    rw [List.nil_append, List.nil_append, hnone]
    cases v with
    | nil => rfl
    | cons c v =>
      have hstop : ¬ q c = true := by
        intro hc
        obtain ⟨u, rfl⟩ := List.head?_eq_some_iff.1 (hends c v rfl hc)
        simp [runFrom, hc] at hnone
      simp [runFrom, hstop]
  | cons c p ih =>
    rw [byteLength_cons, ← Nat.add_assoc] at h ⊢
    rw [List.cons_append] at h
    rw [List.cons_append, List.cons_append]
    by_cases hc : q c = true
    · simp only [runFrom, hc, if_true] at h ⊢
      rw [ih h]
    · have hsame : (runFrom q (c :: (p ++ u)) k).2.offset = k := by simp [runFrom, hc]
      have hpos := c.utf8Size_pos
      exact absurd (hsame.symm.trans h) (Nat.ne_of_lt (by omega))

theorem hyphenTail_of_ne {c : Char} (h : c ≠ '-') (rest : Text) (n : Nat) :
    hyphenTail ⟨c :: rest, n⟩ = ([], ⟨c :: rest, n⟩) := by
  unfold hyphenTail
  split
  · next hcons => exact absurd (List.cons.inj hcons).1 h
  · rfl

/-- So do the hyphens behind a word. -/
theorem hyphenTail_of_ends {p u v : Text} {k : Nat}
    (h : (hyphenTail ⟨p ++ u, k⟩).2.offset = k + byteLength p) (hends : Ends u v) :
    hyphenTail ⟨p ++ v, k⟩ = ((hyphenTail ⟨p ++ u, k⟩).1, ⟨v, k + byteLength p⟩) := by
  cases p with
  | nil =>
    have hoffset : (hyphenTail ⟨[] ++ u, k⟩).2.offset = k + byteLength (hyphenTail ⟨[] ++ u, k⟩).1 :=
      (reaches_hyphenTail ⟨[] ++ u, k⟩).2
    have hsame : (hyphenTail ⟨[] ++ u, k⟩).2.offset = k := h
    have hnone : (hyphenTail ⟨[] ++ u, k⟩).1 = [] := eq_nil_of_byteLength_eq_zero (by omega)
    rw [hnone]
    cases v with
    | nil => rfl
    | cons c v =>
      refine hyphenTail_of_ne (fun hhyphen => ?_) v k
      obtain ⟨u, rfl⟩ := List.head?_eq_some_iff.1 ((hends c v rfl).2 (.inr hhyphen))
      subst hhyphen
      simp [hyphenTail, Cursor.run, runFrom] at hnone
  | cons x p =>
    by_cases hx : x = '-'
    · subst hx
      refine runFrom_of_ends (p := '-' :: p) h fun c rest hv hc => ?_
      simp only [Bool.or_eq_true, beq_iff_eq] at hc
      exact (hends c rest hv).2 hc.symm
    · rw [List.cons_append, hyphenTail_of_ne hx, byteLength_cons] at h
      have hpos := x.utf8Size_pos
      exact absurd h (Nat.ne_of_lt (by dsimp only; omega))

/-- What ends a word ends it also behind characters that are left as they are. -/
theorem Ends.append {u v : Text} (h : Ends u v) {p : Text} (hp : ∀ rest, p ≠ '\\' :: rest) :
    Ends (p ++ u) (p ++ v) := by
  cases p with
  | nil => exact h
  | cons c p => exact ends_same fun hc => hp p (by rw [hc])

/-- The text that a cursor has left when it ends where a first part of the text does. -/
theorem eq_of_leadsTo {p u : Text} {n : Nat} {d : Cursor} (h : Cursor.LeadsTo ⟨p ++ u, n⟩ d)
    (hoffset : d.offset = n + byteLength p) : d = ⟨u, n + byteLength p⟩ := by
  obtain ⟨used, hrest, hlength⟩ := h
  obtain ⟨-, hbehind⟩ := append_inj_of_byteLength_eq hrest (by dsimp only at hlength; omega)
  rw [hbehind, ← hoffset]

/-! ## The words of a tag -/

/-- The word at a cursor, hyphens included, and what is behind it. -/
def hyphenWord (c : Cursor) : Text × Cursor :=
  let first := readWord 0 true c.rest c.offset
  let tail := hyphenTail first.behind
  (first.letters ++ tail.1, tail.2)

theorem leadsTo_hyphenWord (c : Cursor) : c.LeadsTo (hyphenWord c).2 :=
  (leadsTo_readWord 0 true c.rest c.offset).trans ⟨_, reaches_hyphenTail _⟩

theorem lt_hyphenWord {c : Cursor} (h : (readWord 0 true c.rest c.offset).letters ≠ []) :
    c.offset < (hyphenWord c).2.offset :=
  Nat.lt_of_lt_of_le (lt_offset_readWord h) (Cursor.LeadsTo.offset_le ⟨_, reaches_hyphenTail _⟩)

/-- Words with hyphens end where they did, too. -/
theorem hyphenWord_of_ends {p u v : Text} {k : Nat}
    (h : (hyphenWord ⟨p ++ u, k⟩).2.offset = k + byteLength p) (hends : Ends u v) :
    hyphenWord ⟨p ++ v, k⟩ = ((hyphenWord ⟨p ++ u, k⟩).1, ⟨v, k + byteLength p⟩) := by
  have hword := leadsTo_readWord 0 true (p ++ u) k
  have htail := (reaches_hyphenTail (readWord 0 true (p ++ u) k).behind).2
  have hle : (readWord 0 true (p ++ u) k).behind.offset ≤ k + byteLength p := by
    rw [← h]
    exact Nat.le.intro htail.symm
  -- The letters before the first hyphen, and what stands from there on.
  obtain ⟨used, hused, hoffset⟩ := hword
  obtain ⟨tail, rfl, hrest⟩ := exists_eq_append_of_byteLength_le hused.symm (by
    dsimp only at hoffset
    omega)
  have hbehind : (readWord 0 true (used ++ tail ++ u) k).behind = ⟨tail ++ u, k + byteLength used⟩ := by
    rw [← hrest]
    exact congrArg (Cursor.mk _) hoffset
  rw [byteLength_append, ← Nat.add_assoc] at h ⊢
  unfold hyphenWord at h ⊢
  dsimp only at h ⊢
  rw [hbehind] at h ⊢
  rw [List.append_assoc] at hbehind ⊢
  have hescape : ∀ rest, tail ≠ '\\' :: rest := by
    rintro rest rfl
    rw [List.cons_append, hyphenTail_of_ne (by decide), byteLength_cons] at h
    have hpos := ('\\' : Char).utf8Size_pos
    exact absurd h (Nat.ne_of_lt (by dsimp only; omega))
  obtain ⟨hletters, hbehind'⟩ := readWord_of_ends (v := tail ++ v)
    (congrArg Cursor.offset hbehind) (hends.append hescape) (Nat.zero_le _)
  rw [List.append_assoc, hbehind', hyphenTail_of_ends h hends, hletters]

/-- What `wordAt` reads, if that is a word. -/
theorem wordAt_eq_word {c : Cursor} {word : Text} (h : (wordAt c).token.kind.word? = some word) :
    let here := (skipGap .blank c.rest c.offset false).cursor
    (∃ x rest, here.rest = x :: rest ∧ x ≠ '/') ∧ (readWord 0 true here.rest here.offset).letters ≠ [] ∧
      (wordAt c).token.start = here.offset ∧ word = (hyphenWord here).1 ∧
      (wordAt c).after = (hyphenWord here).2 := by
  obtain ⟨letters, hletters⟩ := exists_word_of_rescan h
  obtain ⟨hword, hafter⟩ := rescan_hyphens hletters
  obtain ⟨hhere, hread, hne, hbehind⟩ := word_of_scan hletters
  rw [hbehind, ← hread] at hword
  rw [hbehind] at hafter
  refine ⟨hhere, hread ▸ hne, ?_, Option.some.inj (h.symm.trans hword), hafter⟩
  exact congrArg Cursor.offset
    ((Scanned.here_rescan .hyphens _).trans (Scanned.here_scan_gap .code (by decide) c))

/-- The word of a tag is the one that stands behind the gap. -/
theorem gives_tagWord_here {use : Use} {st : State} {c stop : Cursor} {word : Text}
    (h : st.current = scan .code c)
    (hword : hyphenWord (skipGap .blank c.rest c.offset false).cursor = (word, stop)) :
    tagWord.Gives use st fun read next => read = word ∧
      next.current = scan .code stop ∧ next.lastStop = stop.offset := by
  refine (gives_tagWord_at h).imp ?_
  rintro read next ⟨hread, hcurrent, hlast⟩
  obtain ⟨-, -, -, hletters, hafter⟩ := wordAt_eq_word hread
  rw [hword] at hletters hafter
  exact ⟨hletters, hcurrent.trans (congrArg (scan .code) hafter),
    hlast.trans (congrArg Cursor.offset hafter)⟩

/-- **The word of a tag ends where it did**, if it is one there. -/
theorem hyphenWord_of_wordAt {p u v : Text} {n : Nat} {word : Text}
    (hword : (wordAt ⟨p ++ u, n⟩).token.kind.word? = some word)
    (hstop : (wordAt ⟨p ++ u, n⟩).token.stop = n + byteLength p) (hends : Ends u v) :
    (wordAt ⟨p ++ u, n⟩).after = ⟨u, n + byteLength p⟩ ∧
      (skipGap .blank (p ++ v) n false).cursor.offset = (wordAt ⟨p ++ u, n⟩).token.start ∧
      hyphenWord (skipGap .blank (p ++ v) n false).cursor = (word, ⟨v, n + byteLength p⟩) := by
  obtain ⟨⟨x, rest, hrest, hslash⟩, hne, hstart, hletters, hafter⟩ := wordAt_eq_word hword
  have hlt := lt_hyphenWord hne
  have hend : (hyphenWord _).2.offset = n + byteLength p :=
    (congrArg Cursor.offset hafter).symm.trans hstop
  have hbeside : Beside u v (n + byteLength p) ⟨p ++ u, n⟩ ⟨p ++ v, n⟩ := ⟨p, rfl, rfl, rfl, rfl⟩
  -- The gap before the word ends in the common part, for the word does.
  obtain ⟨⟨q, hq, hq', hsame, hlength⟩, -⟩ := hbeside.gap hrest hslash (hend ▸ hlt)
  generalize (skipGap .blank (Cursor.rest ⟨p ++ u, n⟩) (Cursor.offset ⟨p ++ u, n⟩) false).cursor = here
    at *
  dsimp only at hq' hsame
  generalize (skipGap .blank (p ++ v) n false).cursor = here' at *
  obtain ⟨_, k⟩ := here
  obtain ⟨_, _⟩ := here'
  obtain rfl : _ = q ++ u := hq
  obtain rfl : _ = q ++ v := hq'
  obtain rfl : k = _ := hsame
  have hlength' : k + byteLength q = n + byteLength p := hlength
  have hend' : (hyphenWord ⟨q ++ u, k⟩).2.offset = k + byteLength q := hend.trans hlength'.symm
  refine ⟨?_, hstart.symm, ?_⟩
  · rw [hafter, eq_of_leadsTo (leadsTo_hyphenWord _) hend', hlength']
  · rw [hyphenWord_of_ends hend' hends, hlength', hletters]

/-- Before a mark in a gap stands nothing that an escape begins with. -/
theorem ne_backslash_of_mark {p u : Text} {n : Nat} {mark : Punct}
    (h : (scan .code ⟨p ++ u, n⟩).token.kind = .punct mark) (rest : Text) : p ≠ '\\' :: rest := by
  rintro rfl
  have hends : EndsGap '\\' := ⟨by decide, by decide, by decide⟩
  have hhead := (hends.gap (rest ++ u) n).head_of_mark h
  cases mark <;> exact absurd (Option.some.inj hhead) (by decide)

/-! ## Names -/

/-- How a name is spelt from a cursor on, up to another one: one word, or two of them with a colon
between. -/
inductive Spells (stop : Cursor) : Cursor → Text → Prop where
  | word {here : Cursor} {word : Text} : hyphenWord here = (word, stop) → Spells stop here word
  | namespaced {here colon : Cursor} {word tail : Text} : hyphenWord here = (word, colon) →
      (scan .code colon).token.kind = .punct .colon →
      hyphenWord (skipGap .blank (scan .code colon).after.rest (scan .code colon).after.offset
        false).cursor = (tail, stop) →
      Spells stop here (word ++ ':' :: tail)

/-- The name that is read is the one that is spelt, unless a colon stands behind it. -/
theorem NameRead.eq_of_spells {c stop : Cursor} {name other : Text} {span : Span}
    (h : NameRead c other span) (hspelt : Spells stop (skipGap .blank c.rest c.offset false).cursor name)
    (hcolon : (scan .code stop).token.kind ≠ .punct .colon) :
    other = name ∧ span = ⟨(skipGap .blank c.rest c.offset false).cursor.offset, stop.offset⟩ := by
  have hread : ∀ {c d : Cursor} {word spelt : Text}, (wordAt c).token.kind.word? = some word →
      hyphenWord (skipGap .blank c.rest c.offset false).cursor = (spelt, d) →
      (wordAt c).token.start = (skipGap .blank c.rest c.offset false).cursor.offset ∧ word = spelt ∧
        (wordAt c).after = d := by
    intro c d word spelt hword hspelt
    obtain ⟨-, -, hstart, hletters, hafter⟩ := wordAt_eq_word hword
    rw [hspelt] at hletters hafter
    exact ⟨hstart, hletters, hafter⟩
  cases h with
  | word hword hnone =>
    cases hspelt with
    | word hspelt =>
      obtain ⟨hstart, rfl, rfl⟩ := hread hword hspelt
      exact ⟨rfl, by rw [hstart]; rfl⟩
    | namespaced hspelt hsign _ =>
      obtain ⟨-, -, rfl⟩ := hread hword hspelt
      exact absurd hsign hnone
  | namespaced hword hsign htail =>
    cases hspelt with
    | word hspelt =>
      obtain ⟨-, -, rfl⟩ := hread hword hspelt
      exact absurd hsign hcolon
    | namespaced hspelt _ htail' =>
      obtain ⟨hstart, rfl, rfl⟩ := hread hword hspelt
      obtain ⟨-, rfl, rfl⟩ := hread htail htail'
      exact ⟨rfl, by rw [hstart]; rfl⟩

/-- **A name ends where it did**: it is spelt there, whatever stands behind it that does not go on with
its last word. -/
theorem NameRead.spells {p u v : Text} {n : Nat} {name : Text} {span : Span}
    (h : NameRead ⟨p ++ u, n⟩ name span) (hstop : span.stop = n + byteLength p) (hends : Ends u v) :
    (skipGap .blank (p ++ v) n false).cursor.offset = span.start ∧
      Spells ⟨v, n + byteLength p⟩ (skipGap .blank (p ++ v) n false).cursor name := by
  cases h with
  | word hword _ =>
    obtain ⟨-, hstart, hspelt⟩ := hyphenWord_of_wordAt hword hstop hends
    exact ⟨hstart, .word hspelt⟩
  | namespaced hword hcolon htail =>
    -- The first word ends before the colon, and that before the second one.
    have hlast : (scan .code (wordAt ⟨p ++ u, n⟩).after).token.stop ≤ n + byteLength p :=
      hstop ▸ (leadsTo_wordAt (scan .code (wordAt ⟨p ++ u, n⟩).after).after).offset_le
    have hle : (wordAt ⟨p ++ u, n⟩).after.offset ≤ n + byteLength p :=
      Nat.le_trans (leadsTo_scan_after _).offset_le hlast
    obtain ⟨used, hused, hoffset⟩ := leadsTo_wordAt ⟨p ++ u, n⟩
    obtain ⟨more, rfl, hmore⟩ := exists_eq_append_of_byteLength_le hused.symm (by
      dsimp only at hoffset
      omega)
    have hafter : (wordAt ⟨used ++ more ++ u, n⟩).after = ⟨more ++ u, n + byteLength used⟩ := by
      rw [← hmore]
      exact congrArg (Cursor.mk _) hoffset
    have hescape : ∀ rest, more ≠ '\\' :: rest := ne_backslash_of_mark (hafter ▸ hcolon)
    simp only [List.append_assoc] at hword hcolon htail hstop hlast hafter ⊢
    obtain ⟨-, hstart, hspelt⟩ := hyphenWord_of_wordAt hword (congrArg Cursor.offset hafter)
      (hends.append hescape)
    rw [hafter] at hcolon htail hstop hlast
    have hbeside : Beside u v (n + byteLength (used ++ more)) ⟨more ++ u, n + byteLength used⟩
        ⟨more ++ v, n + byteLength used⟩ :=
      ⟨more, rfl, rfl, rfl, by rw [byteLength_append]; exact Nat.add_assoc _ _ _⟩
    obtain ⟨hcolon', last, hc, hd, hsame, hlength⟩ := hbeside.colon hcolon hlast
    generalize (scan .code ⟨more ++ u, n + byteLength used⟩).after = c at *
    obtain ⟨_, k⟩ := c
    obtain rfl : _ = last ++ u := hc
    obtain ⟨-, -, htail'⟩ := hyphenWord_of_wordAt htail (hstop.trans hlength.symm) hends
    refine ⟨hstart, .namespaced hspelt hcolon' ?_⟩
    rw [hd, ← hsame, htail']
    exact congrArg (fun n => (_, Cursor.mk v n)) hlength

/-- The gap before a name is one before any name. -/
theorem NameRead.skipGap_eq {gap w : Text} {n : Nat} {name : Text} {span : Span}
    (h : NameRead ⟨gap ++ w, n⟩ name span) (hgap : n + byteLength gap = span.start) {c : Char}
    (hc : EndsGap c) (rest : Text) :
    (skipGap .blank (gap ++ c :: rest) n false).cursor = ⟨c :: rest, span.start⟩ := by
  have hword : ∃ word, (wordAt ⟨gap ++ w, n⟩).token.kind.word? = some word ∧
      (wordAt ⟨gap ++ w, n⟩).token.start = span.start := by
    cases h with
    | word hword _ => exact ⟨_, hword, rfl⟩
    | namespaced hword _ _ => exact ⟨_, hword, rfl⟩
  obtain ⟨word, hword, hstart⟩ := hword
  obtain ⟨⟨x, more, hrest, hslash⟩, -, hoffset, -⟩ := wordAt_eq_word hword
  obtain ⟨hx, gap', lines, hcut, hmore⟩ := exists_gap_endsGap hrest hslash
  have hhere := hmore x more hx
  rw [← hcut] at hhere
  have hsame : span.start = n + byteLength gap' := by
    rw [← hstart, hoffset]
    exact congrArg (·.cursor.offset) hhere
  obtain ⟨rfl, -⟩ := append_inj_of_byteLength_eq hcut (by omega)
  have hskip : skipGap .blank (gap ++ c :: rest) n false = _ := hmore c rest hc
  rw [hskip, hsame]

/-! ## The first and the last character of a word -/

/-- A word begins with a character that can begin a name, or with an escape. -/
theorem isIdentifierStart_or_backslash {c : Char} {rest : Text} {n : Nat}
    (h : (readWord 0 true (c :: rest) n).letters ≠ []) : isIdentifierStart c = true ∨ c = '\\' := by
  by_cases hbackslash : c = '\\'
  · exact .inr hbackslash
  · refine .inl ?_
    by_contra hstop
    exact h (by rw [readWord_stop (show ¬belongs true c = true from hstop) hbackslash])

/-- A word ends before the first character that cannot belong to it. -/
theorem stop_readWord {covered : Nat} {first : Bool} {t rest : Text} {k : Nat} {c : Char}
    (h : (readWord covered first t k).behind.rest = c :: rest)
    (hfirst : first = false ∨ (readWord covered first t k).letters ≠ []) :
    isIdentifierPart c = false := by
  fun_induction readWord covered first t k
  case case1 => cases h
  case case2 ih => exact ih h hfirst
  case case3 ih => exact ih h (.inl rfl)
  case case4 ih => exact ih h (.inl rfl)
  all_goals
    -- Here the word stops, for the character does not belong to it.
    obtain ⟨rfl, rfl⟩ := List.cons.inj h
    obtain rfl := hfirst.resolve_right fun hne => hne rfl
    exact Bool.eq_false_iff.2 ‹¬(_ : Bool) = true›

/-- So does one with hyphens. -/
theorem stop_hyphenWord {c : Cursor} {d : Char} {rest : Text}
    (hne : (readWord 0 true c.rest c.offset).letters ≠ []) (h : (hyphenWord c).2.rest = d :: rest) :
    isIdentifierPart d = false ∧ d ≠ '-' := by
  have hread : ∀ {d rest}, (readWord 0 true c.rest c.offset).behind.rest = d :: rest →
      isIdentifierPart d = false := fun h => stop_readWord h (.inr hne)
  unfold hyphenWord hyphenTail at h
  dsimp only at h
  split at h
  · have hstop := stop_runFrom h
    simp only [Bool.or_eq_false_iff, beq_eq_false_iff_ne] at hstop
    exact hstop.symm
  · next hnone =>
    refine ⟨hread h, ?_⟩
    rintro rfl
    exact hnone _ h

/-- **A name ends** before a character that cannot belong to it. -/
theorem NameRead.stop {p u : Text} {n : Nat} {name : Text} {span : Span}
    (h : NameRead ⟨p ++ u, n⟩ name span) (hstop : span.stop = n + byteLength p) {d : Char} {rest : Text}
    (hu : u = d :: rest) : isIdentifierPart d = false ∧ d ≠ '-' := by
  subst hu
  have hword : ∀ {c : Cursor} {word : Text}, Cursor.LeadsTo ⟨p ++ d :: rest, n⟩ c →
      (wordAt c).token.kind.word? = some word → (wordAt c).token.stop = n + byteLength p →
      isIdentifierPart d = false ∧ d ≠ '-' := by
    intro c word hc hword hstop
    obtain ⟨-, hne, -, -, hafter⟩ := wordAt_eq_word hword
    have hend := eq_of_leadsTo (hc.trans (leadsTo_wordAt c)) hstop
    exact stop_hyphenWord hne (congrArg Cursor.rest (hafter.symm.trans hend))
  cases h with
  | word hfirst _ => exact hword ⟨[], .refl _⟩ hfirst hstop
  | namespaced _ _ htail =>
    exact hword ((leadsTo_wordAt _).trans (leadsTo_scan_after _)) htail hstop

end Retouch.Script
