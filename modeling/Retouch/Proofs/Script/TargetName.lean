import Retouch.Address
import Retouch.Proofs.Script.BehindName

/-!
# New names of elements

What is read of a name that was written for an element. A name that `isIntrinsicTagName` accepts is read
as it is (`gives_tagName_target`), whatever stands behind it that goes on with it neither as a word nor
behind a colon or a point. An element with that name is rendered under it, unless the name is `this`: that
is the name of a component.
-/

namespace Retouch.Script

open Text Cursor

/-! ## Parts of names -/

theorem isAlpha_of_isSmall {c : Char} (h : isSmall c = true) : c.isAlpha = true ∧ c.isLower = true := by
  simp only [isSmall, Bool.and_eq_true, decide_eq_true_eq] at h
  have hlower : c.isLower = true :=
    Bool.and_eq_true_iff.2 ⟨decide_eq_true h.1, decide_eq_true h.2⟩
  exact ⟨Bool.or_eq_true_iff.2 (.inr hlower), hlower⟩

theorem isUpper_of_isSmall {c : Char} (h : isSmall c = true) : c.isUpper = false := by
  simp only [isSmall, Bool.and_eq_true, decide_eq_true_eq] at h
  have hlow : 'a'.val.toNat ≤ c.val.toNat := UInt32.le_iff_toNat_le.1 h.1
  have hcodes : 'a'.val.toNat = 97 ∧ 'Z'.val.toNat = 90 := ⟨rfl, rfl⟩
  refine decide_eq_false ?_
  rintro ⟨-, hhigh⟩
  have hhigh' := UInt32.le_iff_toNat_le.1 hhigh
  omega

/-- The characters of a part belong to a word, hyphens to what follows it. -/
theorem isIdentifierPart_or_hyphen {c : Char} (h : (c.isAlphanum || c == '-' || c == '_') = true) :
    isIdentifierPart c = true ∨ c = '-' := by
  simp only [Char.isAlphanum, Bool.or_eq_true, beq_iff_eq] at h
  rcases h with ((halpha | hdigit) | rfl) | rfl
  · exact .inl (by simp [isIdentifierPart, isIdentifierStart, halpha])
  · exact .inl (by simp [isIdentifierPart, hdigit])
  · exact .inr rfl
  · exact .inl (by decide)

theorem runFrom_all {q : Char → Bool} {t : Text} (h : ∀ c ∈ t, q c = true) (k : Nat) :
    runFrom q t k = (t, ⟨[], k + byteLength t⟩) := by
  induction t generalizing k with
  | nil => rfl
  | cons c t ih =>
    obtain ⟨hc, ht⟩ := List.forall_mem_cons.1 h
    rw [runFrom, if_pos hc, ih ht, byteLength_cons, Nat.add_assoc]

/-- A text of name characters and hyphens is one word. -/
theorem readWord_hyphens {t : Text} (h : ∀ c ∈ t, isIdentifierPart c = true ∨ c = '-') {first : Bool}
    (hfirst : first = true → ∃ c rest, t = c :: rest ∧ isIdentifierStart c = true) (k : Nat) :
    (readWord 0 first t k).letters ++ (hyphenTail (readWord 0 first t k).behind).1 = t ∧
      (hyphenTail (readWord 0 first t k).behind).2 = ⟨[], k + byteLength t⟩ := by
  induction t generalizing first k with
  | nil => exact ⟨rfl, rfl⟩
  | cons c t ih =>
    obtain ⟨hc, ht⟩ := List.forall_mem_cons.1 h
    by_cases hbelongs : belongs first c = true
    · obtain ⟨hletters, hbehind⟩ := @ih ht false (fun hfalse => by cases hfalse)
        (k + c.utf8Size)
      rw [readWord_belongs hbelongs, byteLength_cons, ← Nat.add_assoc]
      exact ⟨congrArg (c :: ·) hletters, hbehind⟩
    · -- The first hyphen ends the word, and all that is left follows it.
      have hhyphen : c = '-' := by
        refine hc.resolve_left fun hpart => hbelongs ?_
        cases first with
        | true =>
          obtain ⟨_, _, hcons, hstart⟩ := hfirst rfl
          obtain ⟨rfl, -⟩ := List.cons.inj hcons
          exact hstart
        | false => exact hpart
      subst hhyphen
      rw [readWord_stop hbelongs (by decide)]
      have hall : ∀ d ∈ '-' :: t, (d == '-' || isIdentifierPart d) = true := fun d hd => by
        simpa using (h d hd).symm
      have hrun := runFrom_all hall k
      exact ⟨congrArg Prod.fst hrun, congrArg Prod.snd hrun⟩

/-- **A part of a name is one word** before anything that does not go on with it. -/
theorem hyphenWord_part {part u : Text} (h : isNamePart part = true) (hu : Ends [] u) (n : Nat) :
    hyphenWord ⟨part ++ u, n⟩ = (part, ⟨u, n + byteLength part⟩) := by
  cases part with
  | nil => cases h
  | cons c rest =>
    simp only [isNamePart, Bool.and_eq_true, List.all_eq_true] at h
    obtain ⟨hsmall, hrest⟩ := h
    have hstart : isIdentifierStart c = true := by
      simp [isIdentifierStart, (isAlpha_of_isSmall hsmall).1]
    have hall : ∀ d ∈ c :: rest, isIdentifierPart d = true ∨ d = '-' :=
      List.forall_mem_cons.2 ⟨.inl (isIdentifierPart_of_isIdentifierStart hstart),
        fun d hd => isIdentifierPart_or_hyphen (hrest d hd)⟩
    obtain ⟨hletters, hbehind⟩ := readWord_hyphens hall (fun _ => ⟨c, rest, rfl, hstart⟩) n
    have halone : hyphenWord ⟨c :: rest ++ [], n⟩ = (c :: rest, ⟨[], n + byteLength (c :: rest)⟩) := by
      rw [List.append_nil]
      exact Prod.ext hletters hbehind
    have hsame := hyphenWord_of_ends (congrArg (·.2.offset) halone) hu
    rw [halone] at hsame
    exact hsame

/-- A part begins with a character that ends every gap. -/
theorem exists_cons_of_isNamePart {part : Text} (h : isNamePart part = true) :
    ∃ c rest, part = c :: rest ∧ isSmall c = true ∧ EndsGap c := by
  cases part with
  | nil => cases h
  | cons c rest =>
    simp only [isNamePart, Bool.and_eq_true] at h
    have halpha := (isAlpha_of_isSmall h.1).1
    have hslash : c ≠ '/' := by
      rintro rfl
      cases halpha
    exact ⟨c, rest, rfl, h.1,
      (exists_gap_endsGap (congrArg (·.cursor.rest) (skipGap_letter halpha rest 0)) hslash).1⟩

/-- The parts of a name. -/
theorem of_isIntrinsicTagName {t : Text} (h : isIntrinsicTagName t = true) :
    isNamePart t = true ∨
      ∃ space part, t = space ++ ':' :: part ∧ isNamePart space = true ∧ isNamePart part = true := by
  have hjoined := @List.intercalate_splitOn _ t _ _ ':'
  unfold isIntrinsicTagName at h
  split at h
  · next part hsplit =>
    rw [hsplit] at hjoined
    left
    rw [← hjoined]
    simpa [List.intercalate, List.intersperse] using h
  · next space part hsplit =>
    rw [hsplit] at hjoined
    rw [Bool.and_eq_true] at h
    exact .inr ⟨space, part, by rw [← hjoined]; simp [List.intercalate, List.intersperse], h⟩
  · cases h

/-- So does a name. -/
theorem exists_cons_of_isIntrinsicTagName {t : Text} (h : isIntrinsicTagName t = true) :
    ∃ c rest, t = c :: rest ∧ isSmall c = true ∧ EndsGap c := by
  rcases of_isIntrinsicTagName h with hpart | ⟨space, part, rfl, hspace, -⟩
  · exact exists_cons_of_isNamePart hpart
  · obtain ⟨c, rest, rfl, hsmall, hends⟩ := exists_cons_of_isNamePart hspace
    exact ⟨c, _, rfl, hsmall, hends⟩

/-- **A name that was written is spelt where it stands.** -/
theorem spells_of_isIntrinsicTagName {t v : Text} (h : isIntrinsicTagName t = true) (hv : Ends [] v)
    (n : Nat) : Spells ⟨v, n + byteLength t⟩ ⟨t ++ v, n⟩ t := by
  rcases of_isIntrinsicTagName h with hpart | ⟨space, part, rfl, hspace, hpart⟩
  · exact .word (hyphenWord_part hpart hv n)
  · have hends : Ends [] (':' :: (part ++ v)) := ends_cons (by decide) (by decide) (by decide) _ _
    rw [List.append_assoc, List.cons_append]
    refine .namespaced (hyphenWord_part hspace hends n) rfl ?_
    obtain ⟨c, rest, rfl, -, hgap⟩ := exists_cons_of_isNamePart hpart
    have hsign : (':' : Char).utf8Size = 1 := rfl
    have hlength : n + byteLength space + 1 + byteLength (c :: rest)
        = n + byteLength (space ++ ':' :: c :: rest) := by
      rw [byteLength_append, byteLength_cons ':', hsign]
      omega
    have hskip : (skipGap .blank (c :: rest ++ v) (n + byteLength space + 1) false).cursor
        = ⟨c :: rest ++ v, n + byteLength space + 1⟩ :=
      congrArg Gap.cursor (hgap.skipGap (rest ++ v) _ _)
    refine (congrArg hyphenWord hskip).trans ?_
    rw [hyphenWord_part hpart hv, hlength]

/-- An element is rendered under such a name, unless that is `this`. -/
theorem intrinsicName_of_isIntrinsicTagName {t : Text} (h : isIntrinsicTagName t = true) :
    intrinsicName t = if t = Keyword.this.text then none else some t := by
  obtain ⟨c, rest, rfl, hsmall, -⟩ := exists_cons_of_isIntrinsicTagName h
  have hlower := (isAlpha_of_isSmall hsmall).2
  have hupper := isUpper_of_isSmall hsmall
  rw [intrinsicName]
  simp [hlower, hupper]

section Programs

variable {use : Use} {st : State}

/-- **A name is read as it is spelt**, if neither a colon nor a point stands behind it. -/
theorem gives_tagName_spells {c stop : Cursor} {name : Text} (ctx : Ctx) (h : st.current = scan .code c)
    (hspelt : Spells stop (skipGap .blank c.rest c.offset false).cursor name)
    (hcolon : (scan .code stop).token.kind ≠ .punct .colon)
    (hdot : (scan .code stop).token.kind ≠ .punct .dot) :
    (tagName ctx).Gives use st fun read _ =>
      read.span = ⟨(skipGap .blank c.rest c.offset false).cursor.offset, stop.offset⟩ ∧
        (read.intrinsic = intrinsicName name ∨ read.intrinsic = some name ∧ ':' ∈ name) := by
  have hstart : st.offset = (skipGap .blank c.rest c.offset false).cursor.offset := by
    rw [State.offset, h]
    exact congrArg Cursor.offset (Scanned.here_scan_gap .code (by decide) c)
  refine Prog.Gives.bind gives_here ?_
  rintro start next ⟨rfl, rfl⟩
  rw [hstart]
  generalize hhere : (skipGap .blank c.rest c.offset false).cursor = here at hspelt
  cases hspelt with
  | word hword =>
    refine Prog.Gives.bind (gives_tagWord_here h (hhere.symm ▸ hword)) ?_
    rintro word worded ⟨rfl, hcurrent, hlast⟩
    refine Prog.Gives.bind (gives_eat_ne (hcurrent ▸ hcolon)) ?_
    rintro colon eaten ⟨rfl, rfl⟩
    rw [if_neg Bool.false_ne_true]
    refine Prog.Gives.bind (gives_at? .dot) ?_
    rintro dot looked ⟨rfl, rfl⟩
    rw [if_neg (by rw [hcurrent]; simpa using hdot)]
    refine Prog.Gives.bind (gives_spanFrom here.offset) ?_
    rintro span last ⟨rfl, rfl⟩
    exact ⟨by rw [hlast], .inl rfl⟩
  | namespaced hword hsign htail =>
    refine Prog.Gives.bind (gives_tagWord_here h (hhere.symm ▸ hword)) ?_
    rintro word worded ⟨rfl, hcurrent, -⟩
    refine Prog.Gives.bind (gives_eat .colon) ?_
    rintro colon eaten (⟨rfl, -, rfl⟩ | ⟨rfl, hnone, -⟩)
    · rw [if_pos rfl]
      have hbehind : (worded.advance .code).current = scan .code worded.current.after := rfl
      rw [hcurrent] at hbehind
      refine Prog.Gives.bind (gives_tagWord_here hbehind htail) ?_
      rintro tail tailed ⟨rfl, -, hlast⟩
      refine Prog.Gives.bind (gives_spanFrom here.offset) ?_
      rintro span last ⟨rfl, rfl⟩
      exact ⟨by rw [hlast], .inr ⟨rfl, List.mem_append_right _ List.mem_cons_self⟩⟩
    · exact absurd (hcurrent ▸ hsign) hnone

/-- So an element has the name that was written for it. -/
theorem gives_tagName_target {c stop : Cursor} {t : Text} (ctx : Ctx) (h : st.current = scan .code c)
    (ht : isIntrinsicTagName t = true)
    (hspelt : Spells stop (skipGap .blank c.rest c.offset false).cursor t)
    (hcolon : (scan .code stop).token.kind ≠ .punct .colon)
    (hdot : (scan .code stop).token.kind ≠ .punct .dot) :
    (tagName ctx).Gives use st fun read _ =>
      read.span = ⟨(skipGap .blank c.rest c.offset false).cursor.offset, stop.offset⟩ ∧
        read.intrinsic = if t = Keyword.this.text then none else some t := by
  refine (gives_tagName_spells ctx h hspelt hcolon hdot).imp ?_
  rintro read _ ⟨hspan, hword | ⟨hnamespaced, hcolon⟩⟩
  · exact ⟨hspan, hword.trans (intrinsicName_of_isIntrinsicTagName ht)⟩
  · have hthis : t ≠ Keyword.this.text := by
      rintro rfl
      exact absurd hcolon (by decide)
    exact ⟨hspan, by rw [hnamespaced, if_neg hthis]⟩

end Programs

section Elements

variable {source edited l w u : Text} {element again : Tag × List Markup}

/-- What a name can be replaced by, `u` being the text behind it: by nothing new, or by the name that
is given; `v` is the text behind it then. -/
inductive Writes (name w u t : Text) : (w' v : Text) → Prop where
  | kept {v : Text} : t = name → Ends u v → Writes name w u t w v
  | replaced {v : Text} : Ends [] v → Writes name w u t t v

/-- **The name that is read where one was written** is that one, and the element is rendered under it
unless it is `this`. -/
theorem Known.eq_target {name t w' v : Text} (h : Known source element) (hagain : Known edited again)
    (hname : element.1.name = some name) (hsource : source = l ++ (w ++ u))
    (hedited : edited = l ++ (w' ++ v)) (hl : byteLength l = element.1.nameSpan.start)
    (hw : element.1.nameSpan.start + byteLength w = element.1.nameSpan.stop)
    (hstart : again.1.span.start = element.1.span.start) (ht : isIntrinsicTagName t = true)
    (hwritten : Writes name w u t w' v)
    (hcolon : (scan .code ⟨v, element.1.nameSpan.start + byteLength w'⟩).token.kind ≠ .punct .colon)
    (hdot : (scan .code ⟨v, element.1.nameSpan.start + byteLength w'⟩).token.kind ≠ .punct .dot) :
    again.1.nameSpan = ⟨element.1.nameSpan.start, element.1.nameSpan.start + byteLength w'⟩ ∧
      again.1.name = if t = Keyword.this.text then none else some t := by
  -- Both names stand behind the same gap.
  obtain ⟨toSign, rest, hcut, hlength, hread⟩ := h.read.name
  obtain ⟨fuel, o, hway, hgave⟩ := hagain.way
  obtain ⟨toSign', rest', hcut', hlength', hcurrent⟩ := hway.begins
  have hlow := h.placed.nameSpan.low_le
  obtain ⟨gap, rfl, rfl, hgap⟩ := exists_behind_sign (hcut.symm.trans hsource) hlength (by omega)
  obtain rfl : rest' = gap ++ (w' ++ v) := @eq_behind_sign toSign _ _ _ (by
    rw [← hcut', hedited, List.append_assoc, List.cons_append]) (by omega)
  rw [hl] at hgap
  have hold := hread name hname
  have hspelt : (skipGap .blank (gap ++ (w' ++ v)) (element.1.span.start + 1) false).cursor.offset
        = element.1.nameSpan.start ∧
      Spells ⟨v, element.1.nameSpan.start + byteLength w'⟩
        (skipGap .blank (gap ++ (w' ++ v)) (element.1.span.start + 1) false).cursor t := by
    cases hwritten with
    | kept htarget hends =>
      have hlast : element.1.nameSpan.stop = element.1.span.start + 1 + byteLength (gap ++ w) := by
        rw [byteLength_append]
        omega
      rw [← List.append_assoc] at hold ⊢
      obtain ⟨hoffset, hspells⟩ := hold.spells hlast hends
      rw [htarget, hw, hlast]
      exact ⟨hoffset, hspells⟩
    | replaced hends =>
      obtain ⟨c, more, rfl, -, hc⟩ := exists_cons_of_isIntrinsicTagName ht
      rw [List.cons_append, hold.skipGap_eq hgap hc]
      exact ⟨rfl, spells_of_isIntrinsicTagName ht hends _⟩
  obtain ⟨hname, hspan⟩ :=
    (gives_tagName_target o.c hcurrent ht (hstart ▸ hspelt.2) hcolon hdot).of_done hway.name
  rw [hgave.nameSpan, hgave.name, hname, hspan, hstart]
  exact ⟨by rw [hspelt.1], rfl⟩

end Elements

end Retouch.Script
