import Retouch.Proofs.Script.Attributes
import Retouch.Proofs.Script.Braced
import Retouch.Proofs.Script.WordEnd

/-!
# Another value for a style attribute

A style attribute that was read with a value is read with an object of strings in braces, if that is put
in the place of the value (`AttributeRead.eq_of_container`). What stands before the value leads to any
other one that begins with a brace (`LeadsToValue`), and so does a style attribute that is written anew
(`leadsToValue_style`).
-/

namespace Retouch.Script

open Text

/-! ## The equals sign -/

/-- An equals sign is one by itself, unless the next character makes it another mark. -/
theorem kind_scanToken_assign (c : Char) (rest : Text) (n : Nat) (lineEnded : Bool) :
    (scanToken .code ⟨'=' :: c :: rest, n⟩ lineEnded).token.kind = .punct .assign
      ↔ c ≠ '=' ∧ c ≠ '>' := by
  have hlongest : Punct.longest? Punct.inCode ('=' :: c :: rest)
      = match '=' == c && ['='].isPrefixOf rest, '>' == c, '=' == c with
        | true, _, _ => some .identical
        | false, true, _ => some .arrow
        | false, false, true => some .equal
        | false, false, false => some .assign := by
    simp only [Punct.longest?, Punct.inCode, List.find?, Punct.text, List.isPrefixOf]
    cases '=' == c <;> cases '>' == c <;> cases ['='].isPrefixOf rest <;> rfl
  rw [kind_scanToken_sign (by decide), hlongest]
  have hequal : (c ≠ '=') ↔ ('=' == c) = false := by rw [beq_eq_false_iff_ne, ne_comm]
  have hgreater : (c ≠ '>') ↔ ('>' == c) = false := by rw [beq_eq_false_iff_ne, ne_comm]
  rw [hequal, hgreater]
  cases '=' == c <;> cases '>' == c <;> cases ['='].isPrefixOf rest <;> simp

/-! ## What stands before a value -/

/-- Whether a text that stands at an offset is a style attribute up to its value, if a brace stands behind
it. -/
structure LeadsToValue (pre : Text) (n : Nat) : Prop where
  word : ∀ more, (hyphenWord ⟨pre ++ '\x7b' :: more, n⟩).1 = "style".toList
  assign : ∀ more, (scan .code (hyphenWord ⟨pre ++ '\x7b' :: more, n⟩).2).token.kind = .punct .assign
  value : ∀ more, (scan .code (hyphenWord ⟨pre ++ '\x7b' :: more, n⟩).2).after.Gap
    ⟨'\x7b' :: more, n + byteLength pre⟩

theorem endsGap_brace : EndsGap '\x7b' := ⟨by decide, by decide, by decide⟩

/-- The name of a style attribute that is written anew. -/
theorem readWord_style (rest : Text) (n : Nat) : readWord 0 true ("style=".toList ++ rest) n
    = ⟨"style".toList, false, ⟨'=' :: rest, n + 5⟩⟩ := by
  have hletters : ∀ c ∈ "style".toList, c.isAlpha = true := List.all_eq_true.1 rfl
  exact readWord_letters hletters (show isIdentifierPart '=' = false by decide) (by decide) true rest n

/-- A style attribute that is written anew. -/
theorem leadsToValue_style (n : Nat) : LeadsToValue "style=".toList n := by
  have hword : ∀ more, hyphenWord ⟨"style=".toList ++ '\x7b' :: more, n⟩
      = ("style".toList, ⟨'=' :: '\x7b' :: more, n + 5⟩) := by
    intro more
    unfold hyphenWord
    dsimp only
    rw [readWord_style, hyphenTail_of_ne (by decide)]
    rfl
  refine ⟨fun more => by rw [hword], fun more => ?_, fun more => ?_⟩
  · rw [hword]
    rfl
  · rw [hword]
    exact endsGap_brace.gap more (n + 6)

/-- Where a string, a brace or the sign `<` is read behind an equals sign, no slash stands. -/
theorem exists_cons_of_kind {c : Cursor}
    (h : (∃ value, (scan .attribute c).token.kind = .string value) ∨
      (scan .attribute c).token.kind = .punct .braceOpen ∨
      (scan .attribute c).token.kind = .punct .less) :
    ∃ x rest, x ≠ '/' ∧ c.Gap ⟨x :: rest, (scan .attribute c).token.start⟩ := by
  have hgap : c.Gap (scan .attribute c).here := by
    refine gap_here_of_kind (by decide) ?_
    rcases h with ⟨value, h⟩ | h | h <;> rw [h] <;> exact fun hkind => by cases hkind
  obtain ⟨lineEnded, hscan⟩ := hgap.exists_scan .attribute (by decide)
  rw [hscan] at h
  have hstart : (scan .attribute c).here.offset = (scan .attribute c).token.start := rfl
  rw [← hstart]
  generalize (scan .attribute c).here = here at hgap h
  obtain ⟨t, n⟩ := here
  cases t with
  | nil => rcases h with ⟨value, h⟩ | h | h <;> cases h
  | cons x t =>
    refine ⟨x, t, ?_, hgap⟩
    rintro rfl
    rw [scanToken_attribute rfl (by decide), kind_scanToken_sign (by decide)] at h
    cases hmark : Punct.longest? Punct.inCode ('/' :: t) with
    | none =>
      rw [hmark] at h
      rcases h with ⟨value, h⟩ | h | h <;> cases h
    | some mark =>
      have hbegins := List.find?_some hmark
      rw [hmark] at h
      rcases h with ⟨value, h⟩ | h | h
      · cases h
      · obtain rfl := TokenKind.punct.inj h
        cases hbegins
      · obtain rfl := TokenKind.punct.inj h
        cases hbegins

section Programs

variable {source : Text} {use : Use} {st : State}

/-- The value of an attribute begins behind a gap, and not with a slash. -/
theorem exists_cons_of_attributeValue {c : Cursor} (ctx : Ctx) (h : st.current = scan .attribute c) :
    (attributeValue ctx).Gives use st fun _ _ =>
      ∃ x rest, x ≠ '/' ∧ c.Gap ⟨x :: rest, st.offset⟩ := by
  refine Prog.Gives.bind gives_kind ?_
  rintro k next ⟨rfl, rfl⟩
  rw [State.offset, h]
  split
  · next value hstring =>
    exact (Outcome.gives_eq _).imp fun _ _ _ => exists_cons_of_kind (.inl ⟨value, h ▸ hstring⟩)
  · next hbrace =>
    exact (Outcome.gives_eq _).imp fun _ _ _ => exists_cons_of_kind (.inr (.inl (h ▸ hbrace)))
  · next hless =>
    exact (Outcome.gives_eq _).imp fun _ _ _ => exists_cons_of_kind (.inr (.inr (h ▸ hless)))
  · trivial

/-- What stands before a value: an equals sign, and a gap. -/
theorem gives_attributeRest_value {c : Cursor} (ctx : Ctx) (isStyle : Bool) (start : Nat)
    (h : st.current = scan .code c) :
    (attributeRest ctx isStyle start).Gives use st fun a _ =>
      a.isStyle = isStyle ∧ ∀ value, a.value = some value →
        (scan .code c).token.kind = .punct .assign ∧
          ∃ x rest, x ≠ '/' ∧ (scan .code c).after.Gap ⟨x :: rest, value.start⟩ := by
  refine Prog.Gives.bind (gives_at? .assign) ?_
  rintro b next ⟨rfl, rfl⟩
  split
  · next hassign =>
    rw [beq_iff_eq] at hassign
    refine Prog.Gives.bind (gives_advanceIn_mark .attribute hassign) ?_
    rintro _ inner rfl
    have hcurrent : (next.advance .attribute).current = scan .attribute (scan .code c).after := by
      rw [← h]
      rfl
    refine Prog.Gives.bind gives_here ?_
    rintro valueStart begun ⟨hstart, rfl⟩
    refine Prog.Gives.bind (exists_cons_of_attributeValue ctx hcurrent) ?_
    rintro _ valued hvalue
    refine Prog.Gives.bind (gives_spanFrom start) ?_
    rintro span last ⟨-, rfl⟩
    refine Prog.Gives.bind (gives_spanFrom valueStart) ?_
    rintro stretch last ⟨rfl, rfl⟩
    refine ⟨rfl, fun value hsome => ?_⟩
    obtain rfl := Option.some.inj hsome
    rw [hstart]
    exact ⟨h ▸ hassign, hvalue⟩
  · exact Prog.Gives.bind (gives_spanFrom start) fun _ _ _ => ⟨rfl, fun _ hnone => by cases hnone⟩

/-- Whether an attribute is a style attribute is told by what stands before its equals sign. -/
theorem gives_attributeRest_isStyle (ctx : Ctx) (isStyle : Bool) (start : Nat) :
    (attributeRest ctx isStyle start).Gives use st fun a _ => a.isStyle = isStyle := by
  refine Prog.Gives.bind (Outcome.gives_eq _) fun _ _ _ => ?_
  split
  · refine Prog.Gives.bind (Outcome.gives_eq _) fun _ _ _ => ?_
    refine Prog.Gives.bind (Outcome.gives_eq _) fun _ _ _ => ?_
    refine Prog.Gives.bind (Outcome.gives_eq _) fun _ _ _ => ?_
    refine Prog.Gives.bind (Outcome.gives_eq _) fun _ _ _ => ?_
    exact Prog.Gives.bind (Outcome.gives_eq _) fun _ _ _ => rfl
  · exact Prog.Gives.bind (Outcome.gives_eq _) fun _ _ _ => rfl

/-- The way to the value of a style attribute. -/
theorem gives_namedAttribute_value {c here : Cursor} (ctx : Ctx) (start : Nat)
    (h : st.current = scan .code c) (hhere : (skipGap .blank c.rest c.offset false).cursor = here) :
    (namedAttribute ctx start).Gives use st fun a _ =>
      a.isStyle = true → ∀ value, a.value = some value →
        (hyphenWord here).1 = "style".toList ∧
          (scan .code (hyphenWord here).2).token.kind = .punct .assign ∧
          ∃ x rest, x ≠ '/' ∧ (scan .code (hyphenWord here).2).after.Gap ⟨x :: rest, value.start⟩ := by
  rw [namedAttribute_eq]
  have hread : hyphenWord (skipGap .blank c.rest c.offset false).cursor
      = ((hyphenWord here).1, (hyphenWord here).2) := congrArg hyphenWord hhere
  refine Prog.Gives.bind (gives_tagWord_here h hread) ?_
  rintro word worded ⟨hletters, hbehind, -⟩
  refine Prog.Gives.bind (gives_eat .colon) ?_
  rintro namespaced eaten (⟨rfl, -, rfl⟩ | ⟨rfl, -, rfl⟩)
  · refine Prog.Gives.bind (Outcome.gives_eq _) fun _ _ _ => ?_
    refine (gives_attributeRest_isStyle ctx false start).imp fun a _ hfalse htrue => ?_
    rw [hfalse] at htrue
    cases htrue
  · refine (gives_attributeRest_value ctx _ start hbehind).imp ?_
    rintro a last ⟨hstyle, hvalue⟩ htrue value hsome
    rw [hstyle, beq_iff_eq] at htrue
    obtain ⟨hassign, hgap⟩ := hvalue value hsome
    exact ⟨hletters.symm.trans htrue, hassign, hgap⟩

end Programs

/-- Between a name and the value of its attribute stand a gap, the equals sign and another gap, and they
do so before any value. -/
theorem exists_gaps_of_assign {t rest : Text} {k m : Nat} {x : Char}
    (hassign : (scan .code ⟨t, k⟩).token.kind = .punct .assign)
    (hgap : (scan .code ⟨t, k⟩).after.Gap ⟨x :: rest, m⟩) (hslash : x ≠ '/') :
    ∃ gap gap', t = gap ++ '=' :: (gap' ++ x :: rest) ∧
      m = k + byteLength (gap ++ '=' :: gap') ∧ (∀ rest, gap ≠ '\\' :: rest) ∧
      ∀ more, (scan .code ⟨gap ++ '=' :: (gap' ++ '\x7b' :: more), k⟩).token.kind = .punct .assign ∧
        (scan .code ⟨gap ++ '=' :: (gap' ++ '\x7b' :: more), k⟩).after.Gap ⟨'\x7b' :: more, m⟩ := by
  have hsign : Cursor.Gap ⟨t, k⟩ (scan .code ⟨t, k⟩).here :=
    gap_here_of_kind (by decide) (by rw [hassign]; exact fun hkind => by cases hkind)
  obtain ⟨hspelt, hend⟩ := (Scanned.solid_scan .code _).mark .assign hassign
  generalize (scan .code ⟨t, k⟩).here = here at hsign hspelt hend
  obtain ⟨atSign, o⟩ := here
  generalize (scan .code ⟨t, k⟩).after = after at hgap hspelt hend
  obtain ⟨behind, _⟩ := after
  obtain rfl : atSign = '=' :: behind := hspelt
  obtain rfl : _ = o + 1 := hend
  obtain ⟨-, gap, rfl, rfl, hbefore⟩ := hsign.exists_gap (by decide)
  obtain ⟨-, gap', rfl, rfl, hbehind⟩ := hgap.exists_gap hslash
  have hlength : byteLength ('=' :: gap') = 1 + byteLength gap' := byteLength_cons _ _
  refine ⟨gap, gap', rfl, by rw [byteLength_append, hlength]; omega, ne_backslash_of_mark hassign,
    fun more => ?_⟩
  have hsigns : ∀ more, Cursor.Gap ⟨gap ++ '=' :: more, k⟩ ⟨'=' :: more, k + byteLength gap⟩ :=
    fun more => hbefore '=' more ⟨by decide, by decide, by decide⟩
  have hmark : (scan .code ⟨gap ++ '=' :: (gap' ++ '\x7b' :: more), k⟩).token.kind
      = .punct .assign := by
    obtain ⟨_, hold⟩ := (hsigns (gap' ++ x :: rest)).exists_scan .code (by decide)
    obtain ⟨_, hscan⟩ := (hsigns (gap' ++ '\x7b' :: more)).exists_scan .code (by decide)
    rw [hold] at hassign
    rw [hscan]
    -- The mark is told by the sign behind it, which is the first one of the gap or of the value.
    cases gap' with
    | nil => exact (kind_scanToken_assign _ _ _ _).2 ⟨by decide, by decide⟩
    | cons y gap' =>
      exact (kind_scanToken_assign _ _ _ _).2 ((kind_scanToken_assign _ _ _ _).1 hassign)
  refine ⟨hmark, ?_⟩
  rw [@Cursor.Gap.after_of_mark _ .assign _ _ (hsigns (gap' ++ '\x7b' :: more)) hmark]
  exact hbehind '\x7b' more endsGap_brace

/-- **What stands before the value of a style attribute leads to another value.** -/
theorem leadsToValue_of_gap {pre tail rest : Text} {n m : Nat} {x : Char}
    (hword : (hyphenWord ⟨pre ++ tail, n⟩).1 = "style".toList)
    (hassign : (scan .code (hyphenWord ⟨pre ++ tail, n⟩).2).token.kind = .punct .assign)
    (hgap : (scan .code (hyphenWord ⟨pre ++ tail, n⟩).2).after.Gap ⟨x :: rest, m⟩) (hslash : x ≠ '/')
    (hstop : n + byteLength pre = m) : LeadsToValue pre n := by
  obtain ⟨used, hused, hoffset⟩ := leadsTo_hyphenWord ⟨pre ++ tail, n⟩
  have hread : hyphenWord ⟨pre ++ tail, n⟩ = ("style".toList, (hyphenWord ⟨pre ++ tail, n⟩).2) :=
    Prod.ext hword rfl
  generalize (hyphenWord ⟨pre ++ tail, n⟩).2 = d at *
  obtain ⟨t, k⟩ := d
  obtain rfl : k = n + byteLength used := hoffset
  obtain ⟨gap, gap', rfl, hvalue, hescape, hagain⟩ := exists_gaps_of_assign hassign hgap hslash
  -- The text before the value is the word, a gap, the sign and another gap.
  obtain ⟨rfl, rfl⟩ : pre = used ++ (gap ++ '=' :: gap') ∧ tail = x :: rest := by
    refine append_inj_of_byteLength_eq (hused.trans (by simp)) ?_
    rw [byteLength_append]
    omega
  have hends : ∀ more, Ends (gap ++ '=' :: (gap' ++ x :: rest)) (gap ++ '=' :: (gap' ++ '\x7b' :: more)) :=
    fun more => (ends_same (by decide)).append hescape
  have hnew : ∀ more, hyphenWord ⟨used ++ (gap ++ '=' :: gap') ++ '\x7b' :: more, n⟩
      = ("style".toList, ⟨gap ++ '=' :: (gap' ++ '\x7b' :: more), n + byteLength used⟩) := by
    intro more
    have hold : hyphenWord ⟨used ++ (gap ++ '=' :: (gap' ++ x :: rest)), n⟩
        = ("style".toList, ⟨gap ++ '=' :: (gap' ++ x :: rest), n + byteLength used⟩) := by
      rw [← hread]
      simp
    have hsame := hyphenWord_of_ends (congrArg (·.2.offset) hold) (hends more)
    rw [hold] at hsame
    simpa using hsame
  refine ⟨fun more => by rw [hnew], fun more => ?_, fun more => ?_⟩
  · rw [hnew]
    exact (hagain more).1
  · rw [hnew, hstop]
    exact (hagain more).2

/-! ## What is read of another value -/

/-- A gap before an object in braces does not change it. -/
theorem readContainer?_gap {c : Cursor} {more : Text} {n : Nat} (h : c.Gap ⟨'\x7b' :: more, n⟩) :
    readContainer? c = readContainer? ⟨'\x7b' :: more, n⟩ := by
  obtain ⟨_, hscan⟩ := h.exists_scan .code (by decide)
  have hopen : readMark? .braceOpen c = some ⟨more, n + 1⟩ := by
    rw [readMark?, hscan]
    rfl
  rw [readContainer?, readContainer?, hopen, readMark?_braceOpen]

section Programs

variable {source : Text} {st : State}

/-- **An object in braces is read in the place of the value.** -/
theorem gives_namedAttribute_container {pre more : Text} {n : Nat} {c d : Cursor}
    {properties : List (Text × Text)} (fuel : Nat) (ctx : Ctx) (h : st.current = scan .code c)
    (hhere : (skipGap .blank c.rest c.offset false).cursor = ⟨pre ++ '\x7b' :: more, n⟩)
    (hpre : LeadsToValue pre n)
    (hread : readContainer? ⟨'\x7b' :: more, n + byteLength pre⟩ = some (properties, d)) :
    (namedAttribute ctx n).Gives (runRule grammar fuel) st fun a next =>
      a = ⟨true, ⟨n, d.offset⟩, some ⟨n + byteLength pre, d.offset⟩⟩ ∧ next.At d := by
  rw [namedAttribute_eq]
  have hword : hyphenWord (skipGap .blank c.rest c.offset false).cursor
      = ((hyphenWord ⟨pre ++ '\x7b' :: more, n⟩).1, (hyphenWord ⟨pre ++ '\x7b' :: more, n⟩).2) :=
    congrArg hyphenWord hhere
  refine Prog.Gives.bind (gives_tagWord_here h hword) ?_
  rintro word worded ⟨hletters, hbehind, -⟩
  have hassign := hpre.assign more
  have hgap := hpre.value more
  rw [← hbehind] at hassign hgap
  refine Prog.Gives.bind (gives_eat_ne (by rw [hassign]; exact fun hkind => by cases hkind)) ?_
  rintro namespaced eaten ⟨rfl, rfl⟩
  rw [if_neg Bool.false_ne_true]
  refine Prog.Gives.bind (gives_at? .assign) ?_
  rintro b begun ⟨rfl, rfl⟩
  rw [if_pos (by rw [hassign]; exact beq_self_eq_true _)]
  refine Prog.Gives.bind (gives_advanceIn_mark .attribute hassign) ?_
  rintro _ inner rfl
  have hcurrent : (begun.advance .attribute).current = scan .attribute begun.current.after := rfl
  have hoffset : (begun.advance .attribute).offset = n + byteLength pre := by
    obtain ⟨_, hskip⟩ := hgap
    rw [State.offset, hcurrent]
    refine (congrArg Cursor.offset (Scanned.here_scan_gap .attribute (by decide) _)).trans ?_
    rw [hskip]
  refine Prog.Gives.bind gives_here ?_
  rintro valueStart valued ⟨hstart, rfl⟩
  refine Prog.Gives.bind (gives_attributeValue_container fuel ctx hcurrent
    ((readContainer?_gap hgap).trans hread)) ?_
  rintro _ last hlast
  refine Prog.Gives.bind (gives_spanFrom n) ?_
  rintro span last ⟨rfl, rfl⟩
  refine Prog.Gives.bind (gives_spanFrom valueStart) ?_
  rintro stretch last ⟨rfl, rfl⟩
  have hstyle : (word == "style".toList) = true := by
    rw [hletters, hpre.word]
    exact beq_self_eq_true _
  refine ⟨?_, hlast⟩
  rw [hstyle, hstart, hoffset, hlast.2]

/-- The current token stands behind a gap. -/
theorem State.Fresh.exists_gap (h : st.Fresh source) (hsound : st.Sound source) {before rest : Text}
    (hsource : source = before ++ rest) (hbefore : byteLength before = st.offset) :
    ∃ c, st.current = scan .code c ∧
      (skipGap .blank c.rest c.offset false).cursor = ⟨rest, st.offset⟩ := by
  obtain ⟨-, toLast, -, -, hcurrent⟩ := h
  obtain ⟨reached, hreached, hoffset⟩ := hsound.reached
  obtain ⟨-, hrest⟩ := append_inj_of_byteLength_eq (hsource.symm.trans hreached) (by
    have hsame : st.offset = 0 + byteLength reached := hoffset
    omega)
  refine ⟨_, hcurrent, ?_⟩
  rw [← Scanned.here_scan_gap .code (by decide), ← hcurrent, hrest]
  rfl

end Programs

namespace AttributeRead

variable {source : Text} {a : Attribute}

/-- An attribute with a name begins as a word does. -/
theorem exists_cons (h : AttributeRead source a) {before rest : Text}
    (hsource : source = before ++ rest) (hbefore : byteLength before = a.span.start) :
    ∃ c more, rest = c :: more ∧ (isIdentifierStart c = true ∨ c = '\\') := by
  obtain ⟨fuel, ctx, st, next, hsteady, hfresh, hoffset, hrun⟩ := h
  obtain ⟨c, hcurrent, hhere⟩ := hfresh.exists_gap hsteady.toSound hsource (hbefore.trans hoffset.symm)
  have hword : (namedAttribute ctx st.offset).Gives (runRule grammar fuel) st fun _ _ =>
      ∃ c more, rest = c :: more ∧ (isIdentifierStart c = true ∨ c = '\\') := by
    rw [namedAttribute_eq]
    refine Prog.Gives.bind (gives_tagWord_at hcurrent) ?_
    rintro word worded ⟨hword, -⟩
    refine (Outcome.gives_eq _).imp fun _ _ _ => ?_
    obtain ⟨⟨x, more, hrest, -⟩, hne, -⟩ := wordAt_eq_word hword
    rw [hhere] at hrest hne
    obtain rfl : rest = x :: more := hrest
    exact ⟨x, more, rfl, isIdentifierStart_or_backslash hne⟩
  exact hword.of_done hrun

/-- What stands before the value of a style attribute that was read. -/
theorem leadsToValue (h : AttributeRead source a) (hstyle : a.isStyle = true) {value : Span}
    (hvalue : a.value = some value) {before pre tail : Text} (hsource : source = before ++ (pre ++ tail))
    (hbefore : byteLength before = a.span.start) (hpre : a.span.start + byteLength pre = value.start) :
    LeadsToValue pre a.span.start := by
  obtain ⟨fuel, ctx, st, next, hsteady, hfresh, hoffset, hrun⟩ := h
  obtain ⟨c, hcurrent, hhere⟩ := hfresh.exists_gap hsteady.toSound hsource (hbefore.trans hoffset.symm)
  rw [hoffset] at hhere hrun
  have hread : (namedAttribute ctx a.span.start).Gives (runRule grammar fuel) st _ :=
    gives_namedAttribute_value ctx a.span.start hcurrent hhere
  obtain ⟨hword, hassign, x, rest, hslash, hgap⟩ := hread.of_done hrun hstyle value hvalue
  exact leadsToValue_of_gap hword hassign hgap hslash hpre

/-- **An attribute is read with an object in braces as its value**, where what stands before leads to
it. -/
theorem eq_of_container (h : AttributeRead source a) {before pre more : Text}
    (hsource : source = before ++ (pre ++ '\x7b' :: more)) (hbefore : byteLength before = a.span.start)
    (hpre : LeadsToValue pre a.span.start) {properties : List (Text × Text)} {d : Cursor}
    (hread : readContainer? ⟨'\x7b' :: more, a.span.start + byteLength pre⟩ = some (properties, d)) :
    a = ⟨true, ⟨a.span.start, d.offset⟩, some ⟨a.span.start + byteLength pre, d.offset⟩⟩ := by
  obtain ⟨fuel, ctx, st, next, hsteady, hfresh, hoffset, hrun⟩ := h
  obtain ⟨c, hcurrent, hhere⟩ := hfresh.exists_gap hsteady.toSound hsource (hbefore.trans hoffset.symm)
  rw [hoffset] at hhere hrun
  exact ((gives_namedAttribute_container fuel ctx hcurrent hhere hpre hread).of_done hrun).1

end AttributeRead

end Retouch.Script
