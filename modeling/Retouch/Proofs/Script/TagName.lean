import Retouch.Proofs.Script.TagEnd

/-!
# The name of a tag

How much of a text decides the name that is read in it. Two texts may differ behind a common first part:
if the names that are read in both end in that part, they are one name, at one place
(`NameRead.unique`).

* `readWord_append` - what is read of a word.
* `Beside` - two cursors at one place of the common part, and what is read from there on.

A word that ends in one of the texts where the common part does may go on in the other one. So these
statements suppose that what is read ends in the common part in both texts.
-/

namespace Retouch.Script

open Text Cursor

/-! ## Escapes -/

/-- The code point of an escape in braces. -/
theorem readCodePoint_braces {digits : Text} (h : digits.all fun c => (hexValue? c).isSome)
    (hne : digits ≠ []) (more : Text) :
    readCodePoint ('\x7b' :: (digits ++ '\x7d' :: more))
      = match hexNumber? digits with
        | some n => if n ≤ 0x10ffff then some (n, digits.length + 2) else none
        | none => none := by
  have hclose : (hexValue? '\x7d').isSome = false := by decide
  have hread : (digits ++ '\x7d' :: more).takeWhile (fun c => (hexValue? c).isSome) = digits := by
    rw [List.takeWhile_append_of_pos (List.all_eq_true.1 h),
      List.takeWhile_cons_of_neg (by simp [hclose]), List.append_nil]
  rw [readCodePoint, hread, List.drop_left]
  cases digits with
  | nil => exact absurd rfl hne
  | cons d digits => rfl

/-- The code point of an escape of four digits. -/
theorem readCodePoint_digits {a : Char} (h : a ≠ '\x7b') (t : Text) :
    readCodePoint (a :: t) = (readHex4 (a :: t)).map fun (n, _) => (n, 4) := by
  rw [readCodePoint]
  rintro _ hcons
  exact h (List.cons.inj hcons).1

/-- The code point of an escape is read of the characters that spell it, whatever stands behind
them. -/
theorem exists_spelt_readCodePoint {t : Text} {n length : Nat}
    (h : readCodePoint t = some (n, length)) :
    ∃ spelt rest, t = spelt ++ rest ∧ spelt.length = length ∧
      ∀ more, readCodePoint (spelt ++ more) = some (n, length) := by
  cases t with
  | nil => cases h
  | cons a t =>
    by_cases hbrace : a = '\x7b'
    · subst hbrace
      have hsplit := List.prefix_iff_eq_append.1
        (List.takeWhile_prefix (l := t) fun c => (hexValue? c).isSome)
      have hdigits := List.all_takeWhile (p := fun c => (hexValue? c).isSome) (l := t)
      rw [readCodePoint] at h
      generalize t.takeWhile (fun c => (hexValue? c).isSome) = digits at h hsplit hdigits
      generalize t.drop digits.length = behind at h hsplit
      split at h
      · cases h
      · next tail hne =>
        have hlength : digits.length + 2 = length := by
          split at h
          · split at h
            · exact (Prod.mk.inj (Option.some.inj h)).2
            · cases h
          · cases h
        refine ⟨'\x7b' :: digits ++ ['\x7d'], tail, ?_, ?_, fun more => ?_⟩
        · rw [← hsplit]
          simp
        · simpa using hlength
        · have hread := (readCodePoint_braces hdigits hne more).trans h
          simpa using hread
      · cases h
    · rw [readCodePoint_digits hbrace] at h
      rcases t with _ | ⟨b, _ | ⟨c, _ | ⟨d, t⟩⟩⟩
      · cases h
      · cases h
      · cases h
      · cases hhex : hexNumber? [a, b, c, d] with
        | none =>
          rw [readHex4, hhex] at h
          cases h
        | some k =>
          rw [readHex4, hhex] at h
          obtain ⟨rfl, rfl⟩ := Prod.mk.inj (Option.some.inj h)
          refine ⟨[a, b, c, d], t, rfl, rfl, fun more => (readCodePoint_digits hbrace _).trans ?_⟩
          show (readHex4 (a :: b :: c :: d :: more)).map _ = _
          rw [readHex4, hhex]
          rfl

/-! ## Words -/

/-- Whether a character can belong to a word, of which it may be the first one. -/
def belongs (first : Bool) (c : Char) : Bool :=
  if first then isIdentifierStart c else isIdentifierPart c

/-- The character that a word has behind a backslash, and how many characters spell it there. -/
def readEscaped (first : Bool) : Text → Option (Char × Nat)
  | 'u' :: escape =>
    match readCodePoint escape with
    | some (n, length) =>
      if belongs first (Char.ofNat n) then some (Char.ofNat n, length + 1) else none
    | none => none
  | _ => none

/-- So is the character of a word that an escape stands for. -/
theorem exists_spelt_readEscaped {first : Bool} {t : Text} {c : Char} {length : Nat}
    (h : readEscaped first t = some (c, length)) :
    ∃ spelt rest, t = spelt ++ rest ∧ spelt.length = length ∧
      ∀ more, readEscaped first (spelt ++ more) = some (c, length) := by
  unfold readEscaped at h
  split at h
  · next escape =>
    split at h
    · next n digits hpoint =>
      split at h
      · next hbelongs =>
        obtain ⟨rfl, rfl⟩ := Prod.mk.inj (Option.some.inj h)
        obtain ⟨spelt, rest, rfl, hlength, hmore⟩ := exists_spelt_readCodePoint hpoint
        refine ⟨'u' :: spelt, rest, rfl, congrArg (· + 1) hlength, fun more => ?_⟩
        rw [List.cons_append, readEscaped, hmore]
        exact if_pos hbelongs
      · cases h
    · cases h
  · cases h

theorem belongs_of_readEscaped {first : Bool} {t : Text} {c : Char} {length : Nat}
    (h : readEscaped first t = some (c, length)) : belongs first c = true := by
  unfold readEscaped at h
  split at h
  · split at h
    · split at h
      · next hbelongs =>
        obtain ⟨rfl, -⟩ := Prod.mk.inj (Option.some.inj h)
        exact hbelongs
      · cases h
    · cases h
  · cases h

/-- A word goes on behind a backslash if an escape stands there. -/
theorem readWord_backslash (first : Bool) (rest : Text) (offset : Nat) :
    readWord 0 first ('\\' :: rest) offset
      = match readEscaped first rest with
        | some (c, length) =>
          let word := readWord length false rest (offset + 1)
          { word with letters := c :: word.letters, escaped := true }
        | none => ⟨[], false, ⟨'\\' :: rest, offset⟩⟩ := by
  have hbelongs : (if first then isIdentifierStart '\\' else isIdentifierPart '\\') = false := by
    cases first <;> decide
  rw [readWord.eq_def]
  dsimp only
  rw [if_neg (by rw [hbelongs]; exact Bool.false_ne_true), if_pos (beq_self_eq_true _)]
  split
  · next escape =>
    rw [readEscaped]
    cases readCodePoint escape with
    | none => rfl
    | some point =>
      dsimp only
      by_cases hpoint : belongs first (Char.ofNat point.1) = true
      · rw [if_pos hpoint]
        exact if_pos hpoint
      · rw [if_neg hpoint]
        exact if_neg hpoint
  · next hnone =>
    rw [readEscaped]
    exact hnone

theorem readWord_belongs {first : Bool} {c : Char} (h : belongs first c = true) (rest : Text)
    (offset : Nat) :
    readWord 0 first (c :: rest) offset
      = { readWord 0 false rest (offset + c.utf8Size) with
          letters := c :: (readWord 0 false rest (offset + c.utf8Size)).letters } := by
  rw [readWord.eq_def]
  exact if_pos h

theorem readWord_stop {first : Bool} {c : Char} (h : ¬belongs first c = true) (hbackslash : c ≠ '\\')
    (rest : Text) (offset : Nat) :
    readWord 0 first (c :: rest) offset = ⟨[], false, ⟨c :: rest, offset⟩⟩ := by
  rw [readWord.eq_def]
  exact (if_neg h).trans (if_neg (by simpa using hbackslash))

/-- What belongs to an escape is read with it. -/
theorem covered_le {covered : Nat} {first : Bool} {p u : Text} {k : Nat}
    (h : (readWord covered first (p ++ u) k).behind.offset ≤ k + byteLength p)
    (hcovered : covered ≤ (p ++ u).length) : covered ≤ p.length := by
  induction p generalizing covered first k with
  | nil =>
    cases covered with
    | zero => exact Nat.le_refl 0
    | succ m =>
      cases u with
      | nil => exact hcovered
      | cons c u =>
        have hbehind := (leadsTo_readWord m first u (k + c.utf8Size)).offset_le
        have hpos := c.utf8Size_pos
        have hle : (readWord m first u (k + c.utf8Size)).behind.offset ≤ k + 0 := h
        have hge : k + c.utf8Size ≤ (readWord m first u (k + c.utf8Size)).behind.offset := hbehind
        omega
  | cons c p ih =>
    cases covered with
    | zero => exact Nat.zero_le _
    | succ m =>
      rw [byteLength_cons, ← Nat.add_assoc] at h
      exact Nat.succ_le_succ (ih h (Nat.le_of_succ_le_succ hcovered))

/-- An escape is read in the first part of a text whatever stands behind that, if the word that it belongs
to ends there. -/
theorem readEscaped_append {first : Bool} {p u : Text} {escaped : Char × Nat} {k : Nat}
    (h : readEscaped first (p ++ u) = some escaped)
    (hwithin : (readWord escaped.2 false (p ++ u) k).behind.offset ≤ k + byteLength p) :
    escaped.2 ≤ p.length ∧ ∀ v, readEscaped first (p ++ v) = some escaped := by
  obtain ⟨spelt, rest, hsplit, hlength, hmore⟩ := exists_spelt_readEscaped h
  have hfits : escaped.2 ≤ p.length := covered_le hwithin (by rw [hsplit, ← hlength]; simp)
  obtain ⟨m, rfl⟩ : spelt <+: p :=
    List.prefix_of_prefix_length_le ⟨rest, hsplit.symm⟩ ⟨u, rfl⟩ (hlength ▸ hfits)
  refine ⟨hfits, fun v => ?_⟩
  rw [List.append_assoc]
  exact hmore (m ++ v)

/-- **A word is read of its own text.** If what is read of a word in two texts ends in the part with
which both begin, it is one word. -/
theorem readWord_append {covered : Nat} {first : Bool} {p u v : Text} {k : Nat}
    (hu : (readWord covered first (p ++ u) k).behind.offset ≤ k + byteLength p)
    (hv : (readWord covered first (p ++ v) k).behind.offset ≤ k + byteLength p) :
    (readWord covered first (p ++ u) k).letters = (readWord covered first (p ++ v) k).letters ∧
      (readWord covered first (p ++ u) k).behind.offset
        = (readWord covered first (p ++ v) k).behind.offset := by
  induction p generalizing covered first k with
  | nil =>
    have hnone : ∀ t, (readWord covered first t k).behind.offset ≤ k →
        (readWord covered first t k).letters = [] ∧ (readWord covered first t k).behind.offset = k := by
      intro t ht
      refine ⟨?_, Nat.le_antisymm ht (leadsTo_readWord covered first t k).offset_le⟩
      cases hletters : (readWord covered first t k).letters with
      | nil => rfl
      | cons c letters =>
        have hlt : k < (readWord covered first t k).behind.offset :=
          lt_offset_readWord (by rw [hletters]; exact List.cons_ne_nil c letters)
        exact absurd ht (Nat.not_le_of_lt hlt)
    obtain ⟨huletters, huoffset⟩ := hnone u hu
    obtain ⟨hvletters, hvoffset⟩ := hnone v hv
    exact ⟨huletters.trans hvletters.symm, huoffset.trans hvoffset.symm⟩
  | cons c p ih =>
    rw [byteLength_cons, ← Nat.add_assoc] at hu hv
    cases covered with
    | succ m => exact ih hu hv
    | zero =>
      rw [List.cons_append] at hu hv
      rw [List.cons_append, List.cons_append]
      by_cases hbelongs : belongs first c = true
      · rw [readWord_belongs hbelongs] at hu hv
        rw [readWord_belongs hbelongs, readWord_belongs hbelongs]
        exact (ih hu hv).imp_left (congrArg (c :: ·))
      · by_cases hbackslash : c = '\\'
        · subst hbackslash
          rw [readWord_backslash] at hu hv
          rw [readWord_backslash, readWord_backslash]
          -- An escape that is read in one of the texts is read in the other one, too.
          cases hescapedu : readEscaped first (p ++ u) with
          | none =>
            cases hescapedv : readEscaped first (p ++ v) with
            | none => exact ⟨rfl, rfl⟩
            | some escaped =>
              rw [hescapedv] at hv
              rw [(readEscaped_append hescapedv hv).2 u] at hescapedu
              cases hescapedu
          | some escaped =>
            rw [hescapedu] at hu
            have hescapedv := (readEscaped_append hescapedu hu).2 v
            rw [hescapedv] at hv ⊢
            exact (ih hu hv).imp_left (congrArg (escaped.1 :: ·))
        · rw [readWord_stop hbelongs hbackslash, readWord_stop hbelongs hbackslash]
          exact ⟨rfl, rfl⟩

/-- A run of characters is read of its own text, too. -/
theorem runFrom_append {p : Char → Bool} {q u v : Text} {k : Nat}
    (hu : (runFrom p (q ++ u) k).2.offset ≤ k + byteLength q)
    (hv : (runFrom p (q ++ v) k).2.offset ≤ k + byteLength q) :
    (runFrom p (q ++ u) k).1 = (runFrom p (q ++ v) k).1 ∧
      (runFrom p (q ++ u) k).2.offset = (runFrom p (q ++ v) k).2.offset := by
  induction q generalizing k with
  | nil =>
    have hnone : ∀ t, (runFrom p t k).2.offset ≤ k →
        (runFrom p t k).1 = [] ∧ (runFrom p t k).2.offset = k := by
      intro t ht
      have hoffset := (reaches_runFrom p t k).2
      dsimp only at hoffset
      exact ⟨eq_nil_of_byteLength_eq_zero (by omega), by omega⟩
    obtain ⟨hurun, huoffset⟩ := hnone u hu
    obtain ⟨hvrun, hvoffset⟩ := hnone v hv
    exact ⟨hurun.trans hvrun.symm, huoffset.trans hvoffset.symm⟩
  | cons c q ih =>
    rw [byteLength_cons, ← Nat.add_assoc] at hu hv
    rw [List.cons_append] at hu hv
    rw [List.cons_append, List.cons_append]
    by_cases hc : p c = true
    · simp only [runFrom, hc, if_true] at hu hv ⊢
      exact (ih hu hv).imp_left (congrArg (c :: ·))
    · simp only [runFrom, hc]
      exact ⟨rfl, rfl⟩

/-! ## Tokens -/

/-- The hyphens and name characters behind a word, if a hyphen comes first. -/
def hyphenTail (c : Cursor) : Text × Cursor :=
  match c.rest with
  | '-' :: _ => c.run fun d => d == '-' || isIdentifierPart d
  | _ => ([], c)

theorem reaches_hyphenTail (c : Cursor) : c.Reaches (hyphenTail c).1 (hyphenTail c).2 := by
  unfold hyphenTail
  split
  · exact reaches_run _ _
  · exact .refl c

/-- A word with what follows it. -/
theorem rescan_hyphens {s : Scanned} {word : Text} (h : s.token.kind.word? = some word) :
    (rescan .hyphens s).token.kind.word? = some (word ++ (hyphenTail s.after).1) ∧
      (rescan .hyphens s).after = (hyphenTail s.after).2 := by
  unfold rescan hyphenTail
  dsimp only
  rw [h, show s.after.rest = s.behind from rfl]
  split
  · next hword htail =>
    obtain rfl := Option.some.inj hword
    rw [htail]
    exact ⟨rfl, rfl⟩
  · next hnone =>
    split
    · next htail => exact absurd htail (hnone _ _ rfl)
    · exact ⟨by rw [List.append_nil]; exact h, rfl⟩

theorem exists_word_of_rescan {s : Scanned} {word : Text}
    (h : (rescan .hyphens s).token.kind.word? = some word) :
    ∃ first, s.token.kind.word? = some first := by
  cases hword : s.token.kind.word? with
  | some first => exact ⟨first, rfl⟩
  | none =>
    unfold rescan at h
    dsimp only at h
    rw [hword] at h
    dsimp only at h
    rw [hword] at h
    cases h

/-- The letters of a word are what it says, also if it is a keyword. -/
theorem word?_wordKind (letters : Text) : (wordKind letters).word? = some letters := by
  unfold wordKind
  split
  · next k hk =>
    have htext := List.find?_some hk
    exact congrArg some (eq_of_beq htext)
  · rfl

/-- A token that is a word was read as one. -/
theorem word_of_scanToken {here : Cursor} {lineEnded : Bool} {word : Text}
    (h : (scanToken .code here lineEnded).token.kind.word? = some word) :
    (∃ c rest, here.rest = c :: rest ∧ c ≠ '/') ∧
      (readWord 0 true here.rest here.offset).letters = word ∧ word ≠ [] ∧
      (scanToken .code here lineEnded).after = (readWord 0 true here.rest here.offset).behind := by
  have hread := Scanned.tokenRead_scanToken .code here lineEnded
  generalize scanToken .code here lineEnded = s at h hread ⊢
  cases hread with
  | word hletters =>
    have hword : (wordKind (readWord 0 true here.rest here.offset).letters).word? = some word := h
    rw [word?_wordKind] at hword
    obtain rfl := Option.some.inj hword
    refine ⟨?_, rfl, hletters, rfl⟩
    obtain ⟨t, offset⟩ := here
    cases t with
    | nil => exact absurd rfl hletters
    | cons c rest =>
      refine ⟨c, rest, rfl, ?_⟩
      rintro rfl
      exact hletters (by rw [readWord_stop (by decide) (by decide)])
  | number =>
    have hkind : (readNumeral here).kind.word? = some word := h
    rcases isNumber_readNumeral here with hnumber | hnumber <;> rw [hnumber] at hkind <;> cases hkind
  | endOfSource | malformed _ | string _ _ | template _ | privateName _ | mark _ => cases h

/-- So was one behind a gap. -/
theorem word_of_scan {c : Cursor} {word : Text} (h : (scan .code c).token.kind.word? = some word) :
    let here := (skipGap .blank c.rest c.offset false).cursor
    (∃ x rest, here.rest = x :: rest ∧ x ≠ '/') ∧
      (readWord 0 true here.rest here.offset).letters = word ∧ word ≠ [] ∧
      (scan .code c).after = (readWord 0 true here.rest here.offset).behind := by
  rw [scan, if_neg (by decide)] at h ⊢
  dsimp only at h ⊢
  cases hopen : (skipGap .blank c.rest c.offset false).openComment with
  | some start =>
    rw [hopen] at h
    cases h
  | none =>
    rw [hopen] at h
    exact word_of_scanToken h

/-- Tokens are read further on in the text. -/
theorem leadsTo_scan_after (c : Cursor) : c.LeadsTo (scan .code c).after :=
  (Scanned.leadsTo_scan .code c).trans (Scanned.sound_scan .code c).leadsTo

theorem leadsTo_wordAt (c : Cursor) : c.LeadsTo (wordAt c).after := by
  have hhere := Scanned.leadsTo_scan .code c
  rw [← Scanned.here_rescan .hyphens] at hhere
  exact hhere.trans (Scanned.sound_rescan .hyphens (Scanned.sound_scan .code c)).leadsTo

/-! ## Two texts with a common first part -/

/-- Whether two cursors stand at one place in the common first part of two texts, which ends at `stop`;
`u` and `v` are what is behind it. -/
def Beside (u v : Text) (stop : Nat) (c d : Cursor) : Prop :=
  ∃ p, c.rest = p ++ u ∧ d.rest = p ++ v ∧ c.offset = d.offset ∧ c.offset + byteLength p = stop

namespace Beside

variable {u v : Text} {stop : Nat} {c d c' d' : Cursor}

theorem offset_eq (h : Beside u v stop c d) : c.offset = d.offset := by
  obtain ⟨_, -, -, hoffset, -⟩ := h
  exact hoffset

theorem symm (h : Beside u v stop c d) : Beside v u stop d c := by
  obtain ⟨p, hc, hd, hoffset, hstop⟩ := h
  exact ⟨p, hd, hc, hoffset.symm, hoffset ▸ hstop⟩

/-- Two cursors that move on to one place. -/
theorem of_leadsTo (h : Beside u v stop c d) (hc : c.LeadsTo c') (hd : d.LeadsTo d')
    (hoffset : c'.offset = d'.offset) (hstop : c'.offset ≤ stop) : Beside u v stop c' d' := by
  obtain ⟨p, hcrest, hdrest, hsame, rfl⟩ := h
  obtain ⟨used, hused, husedOffset⟩ := hc
  obtain ⟨used', hused', husedOffset'⟩ := hd
  obtain ⟨m, rfl, hm⟩ := exists_eq_append_of_byteLength_le (hused.symm.trans hcrest) (by omega)
  rw [hdrest, List.append_assoc] at hused'
  obtain ⟨rfl, hm'⟩ := append_inj_of_byteLength_eq hused' (by omega)
  refine ⟨m, hm, hm'.symm, hoffset, ?_⟩
  rw [byteLength_append]
  omega

/-- A gap before a character of the common part is in that part. -/
theorem gap (h : Beside u v stop c d) {x : Char} {rest : Text}
    (hrest : (skipGap .blank c.rest c.offset false).cursor.rest = x :: rest) (hslash : x ≠ '/')
    (hlt : (skipGap .blank c.rest c.offset false).cursor.offset < stop) :
    Beside u v stop (skipGap .blank c.rest c.offset false).cursor
        (skipGap .blank d.rest d.offset false).cursor ∧
      (skipGap .blank d.rest d.offset false).openComment = none := by
  obtain ⟨p, hc, hd, hoffset, rfl⟩ := h
  obtain ⟨gap, lines, hgap, hmore⟩ := exists_gap hrest hslash
  have hskip := hmore rest
  rw [← hgap] at hskip
  rw [hskip] at hlt ⊢
  have hlength : byteLength gap < byteLength p := by
    dsimp only at hlt
    omega
  obtain ⟨m, rfl, hm⟩ :=
    exists_eq_append_of_byteLength_le (hgap.symm.trans hc) (Nat.le_of_lt hlength)
  cases m with
  | nil =>
    rw [List.append_nil] at hlength
    omega
  | cons y m =>
    obtain ⟨rfl, rfl⟩ := List.cons.inj hm
    rw [hd, ← hoffset, List.append_assoc, List.cons_append, hmore]
    refine ⟨⟨x :: m, rfl, rfl, rfl, ?_⟩, rfl⟩
    rw [byteLength_append]
    exact Nat.add_assoc _ _ _

/-- The word at two cursors. -/
theorem letters (h : Beside u v stop c d) {first : Bool}
    (hc : (readWord 0 first c.rest c.offset).behind.offset ≤ stop)
    (hd : (readWord 0 first d.rest d.offset).behind.offset ≤ stop) :
    (readWord 0 first c.rest c.offset).letters
        = (readWord 0 first d.rest d.offset).letters ∧
      Beside u v stop (readWord 0 first c.rest c.offset).behind
        (readWord 0 first d.rest d.offset).behind := by
  have hpair : (readWord 0 first c.rest c.offset).letters
        = (readWord 0 first d.rest d.offset).letters ∧
      (readWord 0 first c.rest c.offset).behind.offset
        = (readWord 0 first d.rest d.offset).behind.offset := by
    obtain ⟨p, hcrest, hdrest, hsame, rfl⟩ := h
    rw [hcrest] at hc
    rw [hdrest, ← hsame] at hd
    rw [hcrest, hdrest, ← hsame]
    exact readWord_append hc hd
  exact ⟨hpair.1, h.of_leadsTo (leadsTo_readWord _ _ _ _) (leadsTo_readWord _ _ _ _) hpair.2 hc⟩

/-- The hyphens behind two cursors. -/
theorem tail (h : Beside u v stop c d) (hc : (hyphenTail c).2.offset ≤ stop)
    (hd : (hyphenTail d).2.offset ≤ stop) :
    (hyphenTail c).1 = (hyphenTail d).1 ∧ Beside u v stop (hyphenTail c).2 (hyphenTail d).2 := by
  have hpair : (hyphenTail c).1 = (hyphenTail d).1 ∧
      (hyphenTail c).2.offset = (hyphenTail d).2.offset := by
    obtain ⟨rest, offset⟩ := c
    obtain ⟨otherRest, other⟩ := d
    obtain ⟨p, hcrest, hdrest, hsame, rfl⟩ := h
    obtain rfl : offset = other := hsame
    obtain rfl : rest = p ++ u := hcrest
    obtain rfl : otherRest = p ++ v := hdrest
    cases p with
    | nil =>
      obtain ⟨-, hcread⟩ := reaches_hyphenTail ⟨[] ++ u, offset⟩
      obtain ⟨-, hdread⟩ := reaches_hyphenTail ⟨[] ++ v, offset⟩
      rw [byteLength_nil] at hc hd
      dsimp only at hc hd hcread hdread
      have hcnil : (hyphenTail ⟨[] ++ u, offset⟩).1 = [] := eq_nil_of_byteLength_eq_zero (by omega)
      have hdnil : (hyphenTail ⟨[] ++ v, offset⟩).1 = [] := eq_nil_of_byteLength_eq_zero (by omega)
      exact ⟨hcnil.trans hdnil.symm, by omega⟩
    | cons x p =>
      by_cases hx : x = '-'
      · subst hx
        exact runFrom_append (q := '-' :: p) hc hd
      · have hnone : ∀ t, hyphenTail ⟨x :: t, offset⟩ = ([], ⟨x :: t, offset⟩) := by
          intro t
          unfold hyphenTail
          split
          · next hcons => exact absurd (List.cons.inj hcons).1 hx
          · rfl
        rw [List.cons_append, List.cons_append, hnone, hnone]
        exact ⟨rfl, rfl⟩
  exact ⟨hpair.1, h.of_leadsTo ⟨_, reaches_hyphenTail c⟩ ⟨_, reaches_hyphenTail d⟩ hpair.2 hc⟩

/-- The words that are read at two cursors. -/
theorem word (h : Beside u v stop c d) {first second : Text}
    (hfirst : (wordAt c).token.kind.word? = some first)
    (hsecond : (wordAt d).token.kind.word? = some second) (hc : (wordAt c).token.stop ≤ stop)
    (hd : (wordAt d).token.stop ≤ stop) :
    first = second ∧ (wordAt c).token.start = (wordAt d).token.start ∧
      Beside u v stop (wordAt c).after (wordAt d).after := by
  have hstart : ∀ c, (wordAt c).token.start = (skipGap .blank c.rest c.offset false).cursor.offset :=
    fun c => congrArg Cursor.offset
      ((Scanned.here_rescan .hyphens _).trans (Scanned.here_scan_gap .code (by decide) c))
  obtain ⟨letters, hletters⟩ := exists_word_of_rescan hfirst
  obtain ⟨letters', hletters'⟩ := exists_word_of_rescan hsecond
  obtain ⟨hword, hafter⟩ := rescan_hyphens hletters
  obtain ⟨hword', hafter'⟩ := rescan_hyphens hletters'
  obtain ⟨⟨x, rest, hrest, hslash⟩, hread, hne, hbehind⟩ := word_of_scan hletters
  obtain ⟨-, hread', -, hbehind'⟩ := word_of_scan hletters'
  -- The word ends before the hyphens do, and those end in the common part.
  have hends : ∀ c, (rescan .hyphens (scan .code c)).after = (hyphenTail (scan .code c).after).2 →
      (wordAt c).token.stop ≤ stop → (scan .code c).after.offset ≤ stop ∧
        (hyphenTail (scan .code c).after).2.offset ≤ stop := by
    intro c hafter hstop
    have hle : (hyphenTail (scan .code c).after).2.offset ≤ stop := by
      rw [← hafter]
      exact hstop
    have htail : (scan .code c).after.LeadsTo (hyphenTail (scan .code c).after).2 :=
      ⟨_, reaches_hyphenTail _⟩
    exact ⟨Nat.le_trans htail.offset_le hle, hle⟩
  obtain ⟨hcword, hctail⟩ := hends c hafter hc
  obtain ⟨hdword, hdtail⟩ := hends d hafter' hd
  rw [hbehind] at hcword
  rw [hbehind'] at hdword
  have hlt := lt_offset_readWord (by rw [hread]; exact hne)
  obtain ⟨hgap, -⟩ := h.gap hrest hslash (Nat.lt_of_lt_of_le hlt hcword)
  obtain ⟨hsame, hbehinds⟩ := hgap.letters hcword hdword
  rw [← hbehind, ← hbehind'] at hbehinds
  obtain ⟨htails, hafters⟩ := hbehinds.tail hctail hdtail
  rw [← hafter, ← hafter'] at hafters
  refine ⟨Option.some.inj ?_, ?_, hafters⟩
  · rw [← hfirst, ← hsecond, wordAt, wordAt, hword, hword', ← hread, ← hread', hsame, htails]
  · rw [hstart, hstart]
    exact hgap.offset_eq

/-- A colon that is read at one of two cursors is read at the other one. -/
theorem colon (h : Beside u v stop c d) (hcolon : (scan .code c).token.kind = .punct .colon)
    (hc : (scan .code c).token.stop ≤ stop) :
    (scan .code d).token.kind = .punct .colon ∧
      Beside u v stop (scan .code c).after (scan .code d).after := by
  have hhere := Scanned.here_scan_gap .code (by decide) c
  obtain ⟨hrest, hafter⟩ := (Scanned.solid_scan .code c).mark .colon hcolon
  rw [hhere] at hrest hafter
  have hstop : (scan .code c).token.stop = (skipGap .blank c.rest c.offset false).cursor.offset + 1 :=
    hafter
  obtain ⟨⟨m, hcrest, hdrest, hsame, hm⟩, hopen⟩ := h.gap hrest (by decide) (by omega)
  cases m with
  | nil =>
    rw [byteLength_nil] at hm
    omega
  | cons y m =>
    obtain ⟨rfl, hbehind⟩ := List.cons.inj (hrest.symm.trans hcrest)
    have hscan : scan .code d = .of (.punct .colon) [] (skipGap .blank d.rest d.offset false).lineEnded
        false ⟨':' :: (m ++ v), (skipGap .blank d.rest d.offset false).cursor.offset⟩
        ⟨m ++ v, (skipGap .blank d.rest d.offset false).cursor.offset + 1⟩ := by
      rw [scan, if_neg (by decide)]
      dsimp only
      rw [hopen]
      dsimp only
      generalize skipGap .blank d.rest d.offset false = gap at hdrest
      obtain ⟨⟨rest, offset⟩, lines, comment⟩ := gap
      obtain rfl : rest = ':' :: (m ++ v) := hdrest
      rfl
    rw [hscan]
    refine ⟨rfl, m, hbehind, rfl, ?_, ?_⟩
    · rw [hafter, hsame]
      rfl
    · rw [hafter, ← hm]
      exact Nat.add_assoc _ _ _

end Beside

/-- **A name is read of its own text.** If the names that are read in two texts end in the part with
which both begin, they are one name, at one place. -/
theorem NameRead.unique {u v : Text} {stop : Nat} {c d : Cursor} {name other : Text}
    {span otherSpan : Span} (hname : NameRead c name span) (hother : NameRead d other otherSpan)
    (h : Beside u v stop c d) (hc : span.stop ≤ stop) (hd : otherSpan.stop ≤ stop) :
    name = other ∧ span = otherSpan := by
  -- The words of a longer name stand in the common part, and so does the colon.
  have hwithin : ∀ c, (wordAt (scan .code (wordAt c).after).after).token.stop ≤ stop →
      (wordAt c).token.stop ≤ stop ∧ (scan .code (wordAt c).after).token.stop ≤ stop := by
    intro c hstop
    have hcolon : (scan .code (wordAt c).after).token.stop ≤ stop :=
      Nat.le_trans (leadsTo_wordAt (scan .code (wordAt c).after).after).offset_le hstop
    exact ⟨Nat.le_trans (leadsTo_scan_after (wordAt c).after).offset_le hcolon, hcolon⟩
  cases hname with
  | word hfirst hnone =>
    cases hother with
    | word hsecond _ =>
      obtain ⟨rfl, hstart, hbehind⟩ := h.word hfirst hsecond hc hd
      have hstop : (wordAt c).token.stop = (wordAt d).token.stop := hbehind.offset_eq
      exact ⟨rfl, by rw [hstart, hstop]⟩
    | namespaced hsecond hcolon htail =>
      obtain ⟨hdword, hdcolon⟩ := hwithin d hd
      obtain ⟨-, -, hbehind⟩ := h.word hfirst hsecond hc hdword
      exact absurd (hbehind.symm.colon hcolon hdcolon).1 hnone
  | namespaced hfirst hcolon htail =>
    obtain ⟨hcword, hccolon⟩ := hwithin c hc
    cases hother with
    | word hsecond hnone =>
      obtain ⟨-, -, hbehind⟩ := h.word hfirst hsecond hcword hd
      exact absurd (hbehind.colon hcolon hccolon).1 hnone
    | namespaced hsecond hcolon' htail' =>
      obtain ⟨hdword, hdcolon⟩ := hwithin d hd
      obtain ⟨rfl, hstart, hbehind⟩ := h.word hfirst hsecond hcword hdword
      obtain ⟨rfl, -, hlast⟩ := (hbehind.colon hcolon hccolon).2.word htail htail' hc hd
      refine ⟨rfl, ?_⟩
      rw [hstart, show (wordAt _).token.stop = (wordAt _).token.stop from hlast.offset_eq]

/-! ## The slash before a name -/

/-- The first letter of a word is one that can begin a name. -/
theorem isIdentifierStart_of_readWord {t rest : Text} {n : Nat} {c : Char}
    (h : (readWord 0 true t n).letters = c :: rest) : isIdentifierStart c = true := by
  cases t with
  | nil => cases h
  | cons a t =>
    by_cases hbelongs : belongs true a = true
    · rw [readWord_belongs hbelongs] at h
      obtain ⟨rfl, -⟩ := List.cons.inj h
      exact hbelongs
    · by_cases hbackslash : a = '\\'
      · subst hbackslash
        rw [readWord_backslash] at h
        split at h
        · next d length hread =>
          obtain ⟨rfl, -⟩ := List.cons.inj h
          exact belongs_of_readEscaped hread
        · cases h
      · rw [readWord_stop hbelongs hbackslash] at h
        cases h

/-- So is the first letter of a name. -/
theorem NameRead.exists_cons {c : Cursor} {name : Text} {span : Span} (h : NameRead c name span) :
    ∃ first rest, name = first :: rest ∧ isIdentifierStart first = true := by
  have hword : ∀ word, (wordAt c).token.kind.word? = some word →
      ∃ first rest, word = first :: rest ∧ isIdentifierStart first = true := by
    intro word hword
    obtain ⟨letters, hletters⟩ := exists_word_of_rescan hword
    obtain ⟨-, hread, hne, -⟩ := word_of_scan hletters
    obtain ⟨first, rest, rfl⟩ := List.exists_cons_of_ne_nil hne
    have hsame := hword.symm.trans (rescan_hyphens hletters).1
    exact ⟨first, _, Option.some.inj hsame, isIdentifierStart_of_readWord hread⟩
  cases h with
  | word hfirst _ => exact hword _ hfirst
  | namespaced hfirst _ _ =>
    obtain ⟨first, rest, rfl, hstart⟩ := hword _ hfirst
    exact ⟨first, _, rfl, hstart⟩

/-- Before a name a slash is one by itself. -/
theorem scan_slash_name {first : Char} (h : isIdentifierStart first = true) (rest : Text) (n : Nat) :
    scan .code ⟨'/' :: first :: rest, n⟩
      = .of (.punct .slash) [] false false ⟨'/' :: first :: rest, n⟩ ⟨first :: rest, n + 1⟩ := by
  have hne : ∀ c : Char, isIdentifierStart c = false → first ≠ c := by
    rintro c hc rfl
    rw [h] at hc
    cases hc
  have hslash : first ≠ '/' := hne '/' (by decide)
  have hstar : first ≠ '*' := hne '*' (by decide)
  have hassign : ('=' == first) = false := by simpa using (hne '=' (by decide)).symm
  have hgap : skipGap .blank ('/' :: first :: rest) n false
      = ⟨⟨'/' :: first :: rest, n⟩, false, none⟩ := by
    rw [skipGap]
    · rfl
    · rintro _ - hcons
      exact hslash (List.cons.inj hcons).1
    · rintro _ - hcons
      exact hstar (List.cons.inj hcons).1
  have hmark : Punct.longest? Punct.inCode ('/' :: first :: rest) = some .slash := by
    simp [Punct.longest?, Punct.inCode, List.find?, Punct.text, List.isPrefixOf, hassign]
  exact scan_sign hgap (by decide) hmark

theorem kind_scan_slash_name {first : Char} (h : isIdentifierStart first = true) (rest : Text)
    (n : Nat) : (scan .code ⟨'/' :: first :: rest, n⟩).token.kind = .punct .slash :=
  congrArg (fun s => s.token.kind) (scan_slash_name h rest n)

end Retouch.Script
