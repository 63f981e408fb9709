import Retouch.Proofs.Script.BehindName

/-!
# A style attribute that is written into a tag

A style attribute that is written at a place up to which a tag is read (`ReadTo`) is read there, and it is
the style of the element if no later one is (`ReadTo.style_of_container`). Conversely, a tag was read up
to the style of its element (`Known.readTo_style`). A tag without attributes is read up to a style that is
written behind its name (`Known.readTo_word`), so that is always the style of the element
(`Known.style_of_bare`).
-/

namespace Retouch.Script

open Text

/-! ## The first word of an attribute -/

/-- A word with hyphens that begins with no hyphen begins as a word does. -/
theorem letters_ne_nil_of_hyphenWord {c : Cursor} {x : Char} {t : Text} (h : (hyphenWord c).1 = x :: t)
    (hx : x ≠ '-') : (readWord 0 true c.rest c.offset).letters ≠ [] := by
  intro hnone
  have htail : (hyphenTail (readWord 0 true c.rest c.offset).behind).1 = x :: t := by
    rw [← h, hyphenWord]
    dsimp only
    rw [hnone, List.nil_append]
  unfold hyphenTail at htail
  split at htail
  · next hrest =>
    rw [Cursor.run, hrest, Cursor.runFrom] at htail
    exact hx (List.cons.inj htail).1.symm
  · cases htail

/-- Where a word stands behind a gap, that is the token. -/
theorem isWord_scan {c here : Cursor} (hhere : (skipGap .blank c.rest c.offset false).cursor = here)
    (h : (readWord 0 true here.rest here.offset).letters ≠ []) :
    (scan .code c).token.kind.isWord = true := by
  obtain ⟨t, n⟩ := c
  obtain ⟨t', n'⟩ := here
  cases t' with
  | nil => exact absurd rfl h
  | cons x rest =>
    have hbegins := isIdentifierStart_or_backslash h
    have hslash : x ≠ '/' := by
      rintro rfl
      exact absurd hbegins (by decide)
    obtain ⟨hends, gap, lines, rfl, hmore⟩ := exists_gap_endsGap (congrArg Cursor.rest hhere) hslash
    have hskip := hmore x rest hends
    rw [scan_of_skipGap (by decide) hskip, scanToken]
    obtain rfl : n + byteLength gap = n' := by
      rw [hskip] at hhere
      exact congrArg Cursor.offset hhere
    dsimp only
    rw [if_pos (by simpa using hbegins), if_neg (by simpa using h)]
    exact congrArg Option.isSome (word?_wordKind _)

/-- A style attribute stands behind a blank. -/
theorem skipGap_style (more : Text) (n : Nat) :
    (skipGap .blank (' ' :: ("style=".toList ++ more)) n false).cursor
      = ⟨"style=".toList ++ more, n + 1⟩ := by
  have hends : EndsGap 's' := ⟨by decide, by decide, by decide⟩
  exact congrArg Gap.cursor (hends.skipGap ("tyle=".toList ++ more) (n + 1) false)

/-- It begins with a word. -/
theorem isWord_scan_style (more : Text) (n : Nat) :
    (scan .code ⟨' ' :: ("style=".toList ++ more), n⟩).token.kind.isWord = true := by
  refine isWord_scan (skipGap_style more n) ?_
  rw [readWord_style]
  exact List.cons_ne_nil _ _

section Programs

variable {source : Text} {st : State}

/-- **A style attribute with an object in braces is read** where it stands. If a mark stands behind it that
no attribute begins with, it is the last one. -/
theorem gives_attributes_container {pre more : Text} {n : Nat} {c d : Cursor}
    {properties : List (Text × Text)} (fuel : Nat) (ctx : Ctx) (h : st.Steady source)
    (hcurrent : st.current = scan .code c)
    (hhere : (skipGap .blank c.rest c.offset false).cursor = ⟨pre ++ '\x7b' :: more, n⟩)
    (hpre : LeadsToValue pre n)
    (hread : readContainer? ⟨'\x7b' :: more, n + byteLength pre⟩ = some (properties, d)) :
    (runRule grammar fuel ctx .attributes st).Gives fun attributes next => ∃ others,
      attributes = ⟨true, ⟨n, d.offset⟩, some ⟨n + byteLength pre, d.offset⟩⟩ :: others ∧
        ((scan .code d).token.kind ∈
            [.punct .slash, .punct .greater, .punct .less, .punct .shiftLeft] →
          others = [] ∧ next.current = scan .code d) := by
  have hword : st.current.token.kind.isWord = true :=
    hcurrent ▸ isWord_scan hhere (letters_ne_nil_of_hyphenWord (hpre.word more) (by decide))
  have hoffset : st.offset = n := by
    rw [State.offset, hcurrent]
    exact congrArg Cursor.offset ((Scanned.here_scan_gap .code (by decide) c).trans hhere)
  refine gives_succ (r := .attributes) (fun fuel => ?_) fuel
  show (attributesRule ctx).Gives (runRule grammar fuel) st _
  have hnamed := (gives_namedAttribute_container fuel ctx hcurrent hhere hpre hread).and
    (goes (finds_runRule source fuel) _ h)
  rw [← hoffset] at hnamed ⊢
  refine gives_attributesRule_of (fun hbrace => ?_) hnamed ?_ fun hnone => ?_
  · rw [hbrace] at hword
    cases hword
  · rintro first middle ⟨⟨rfl, hat⟩, hmiddle⟩
    refine (gives_attributes_begin fuel ctx hmiddle.steady).imp ?_
    intro others last hothers
    refine ⟨others, rfl, fun hend => ?_⟩
    rw [← hat.1] at hend ⊢
    rcases hothers with ⟨rfl, rfl⟩ | ⟨-, -, hword | hbrace⟩
    · exact ⟨rfl, rfl⟩
    · simp only [List.mem_cons, List.not_mem_nil, or_false] at hend
      rcases hend with hend | hend | hend | hend <;> rw [hend] at hword <;> cases hword
    · rw [hbrace] at hend
      exact absurd hend (by decide)
  · rw [hword] at hnone
    cases hnone

end Programs

/-! ## A tag that is read up to a place -/

/-- Whether an opening tag was read up to a place: its name and some attributes end before it, and nothing
but a gap stands between. -/
def ReadTo (source : Text) (tag : Tag) (place : Nat) : Prop :=
  ∃ fuel, ∃ o : Opening, o.Read source (runRule grammar fuel) tag.span.start ∧ o.Gave tag ∧
    ∃ first others before rest, o.attributes = first ++ others ∧ source = before ++ rest ∧
      byteLength before = attributesEnd o.typed.lastStop first ∧
      (skipGap .blank rest (byteLength before) false).cursor.offset = place

/-- The last style attribute is not before any other one. -/
theorem lastStyle_append_cons (first others : List Attribute) {a : Attribute} (h : a.isStyle = true) :
    lastStyle (first ++ a :: others) = some ((lastStyle others).getD ⟨a.span, a.value⟩) := by
  unfold lastStyle
  rw [List.reverse_append, List.reverse_cons, List.append_assoc, List.find?_append]
  cases others.reverse.find? fun a => a.isStyle with
  | none => simp [h]
  | some style => rfl

section Elements

variable {source : Text} {tag : Tag} {children : List Markup} {name : Text} {style : StyleAttribute}
  {place : Nat}

/-- Where an opening tag was read up to a place, the reader stands there with the attributes that are
left. -/
theorem ReadTo.exists_state (h : ReadTo source tag place) (hname : tag.name = some name) :
    ∃ fuel, ∃ o : Opening, o.Read source (runRule grammar fuel) tag.span.start ∧ o.Gave tag ∧
      ∃ first others fuel' st, o.attributes = first ++ others ∧ State.Steady source st ∧
        st.Fresh source ∧ st.offset = place ∧
        runRule grammar fuel' o.c .attributes st = .done others o.ended := by
  obtain ⟨fuel, o, hway, hgave, first, others, before, rest, hattributes, hsource, hlength, hplace⟩ := h
  obtain ⟨fuel', st, hsteady, hfresh, hend, hrun⟩ :=
    hway.exists_between (hgave.name.symm.trans hname) hattributes
  refine ⟨fuel, o, hway, hgave, first, others, fuel', st, hattributes, hsteady, hfresh, ?_, hrun⟩
  obtain ⟨toLast, behind, hcut, hlast, hcurrent⟩ := hfresh
  have hsame : byteLength toLast = byteLength before := (hlast.trans hend).trans hlength.symm
  obtain ⟨-, rfl⟩ := append_inj_of_byteLength_eq (hcut.symm.trans hsource) hsame
  rw [State.offset, hcurrent, ← hplace, ← hsame, hlast]
  exact congrArg Cursor.offset (Scanned.here_scan_gap .code (by decide) _)

/-- **A style attribute that is written where a tag is read up to** is read there; it or a later one is the
style of the element. It is the style if a mark stands behind it that no attribute begins with, and then
the tag ends with that. -/
theorem ReadTo.style_of_container (h : ReadTo source tag place) (hname : tag.name = some name)
    {before pre more : Text} (hsource : source = before ++ (pre ++ '\x7b' :: more))
    (hbefore : byteLength before = place) (hpre : LeadsToValue pre place)
    {properties : List (Text × Text)} {d : Cursor}
    (hread : readContainer? ⟨'\x7b' :: more, place + byteLength pre⟩ = some (properties, d)) :
    ∃ style, tag.style = some style ∧ place ≤ style.span.start ∧
      ((scan .code d).token.kind ∈
          [.punct .slash, .punct .greater, .punct .less, .punct .shiftLeft] →
        style = ⟨⟨place, d.offset⟩, some ⟨place + byteLength pre, d.offset⟩⟩ ∧
          (scan .code d).token.kind ∈ [.punct .slash, .punct .greater]) := by
  obtain ⟨fuel, o, hway, hgave, first, _, fuel', st, hattributes, hsteady, hfresh, hoffset, hrun⟩ :=
    h.exists_state hname
  obtain ⟨c, hcurrent, hhere⟩ :=
    hfresh.exists_gap hsteady.toSound hsource (hbefore.trans hoffset.symm)
  rw [hoffset] at hhere
  obtain ⟨others, rfl, hlast⟩ :=
    (gives_attributes_container fuel' o.c hsteady hcurrent hhere hpre hread).of_done hrun
  obtain ⟨hrow, -⟩ := hway.inRow (hgave.name.symm.trans hname)
  rw [hattributes] at hrow
  refine ⟨_, hgave.style.trans (hattributes ▸ lastStyle_append_cons first others rfl), ?_, ?_⟩
  · cases hlater : lastStyle others with
    | none => exact Nat.le_refl _
    | some later =>
      have hbehind := (List.pairwise_cons.1 (List.pairwise_append.1 hrow.increasing).2.1).1 _
        (exists_mem_of_lastStyle hlater)
      have hwithin := (hrow.within _ (List.mem_append_right first List.mem_cons_self)).1.le
      exact Nat.le_trans hwithin hbehind
  · intro hend
    obtain ⟨rfl, hended⟩ := hlast hend
    exact ⟨rfl, hended ▸ hgave.kind_ended⟩

/-- A tag was read up to the style of its element. -/
theorem Known.readTo_style (h : Known source (tag, children)) (hname : tag.name = some name)
    (hstyle : tag.style = some style) : ReadTo source tag style.span.start := by
  obtain ⟨fuel, o, hway, hgave⟩ := h.way
  obtain ⟨first, others, hattributes⟩ :=
    List.append_of_mem (exists_mem_of_lastStyle (hgave.style.symm.trans hstyle))
  obtain ⟨fuel', st, hsteady, hfresh, hend, hrun⟩ :=
    hway.exists_between (hgave.name.symm.trans hname) hattributes
  obtain ⟨hstart, -⟩ := (gives_attributes_rest fuel' o.c hsteady hfresh).of_done hrun _ _ rfl
  obtain ⟨before, rest, hsource, hlength, hcurrent⟩ := hfresh
  refine ⟨fuel, o, hway, hgave, first, _, before, rest, hattributes, hsource, hlength.trans hend, ?_⟩
  rw [hlength, ← Scanned.here_scan_gap .code (by decide) ⟨rest, st.lastStop⟩, ← hcurrent]
  exact hstart.symm

/-- A tag was read up to a word behind its name, for no type arguments stand there. -/
theorem Known.readTo_word (h : Known source (tag, children)) (hname : tag.name = some name)
    {before rest : Text} (hsource : source = before ++ rest)
    (hbefore : byteLength before = tag.nameSpan.stop)
    (hword : (scan .code ⟨rest, tag.nameSpan.stop⟩).token.kind.isWord = true) :
    ReadTo source tag (skipGap .blank rest (byteLength before) false).cursor.offset := by
  obtain ⟨fuel, o, hway, hgave⟩ := h.way
  obtain ⟨-, ⟨toStop, rest', hcut, hlength, hcurrent⟩, hlast⟩ :=
    hway.fresh_named (hgave.name.symm.trans hname)
  have hstop : o.named.lastStop = tag.nameSpan.stop := by rw [hlast, hgave.nameSpan]
  rw [hstop] at hcurrent hlength
  obtain ⟨-, rfl⟩ := append_inj_of_byteLength_eq (hcut.symm.trans hsource) (hlength.trans hbefore.symm)
  rw [← hcurrent] at hword
  have hsame : o.typed = o.named := by
    rcases hway.typed_eq_or with hsame | hless | hshift
    · exact hsame
    · rw [hless] at hword
      cases hword
    · rw [hshift] at hword
      cases hword
  refine ⟨fuel, o, hway, hgave, [], o.attributes, before, rest', rfl, hsource, ?_, rfl⟩
  rw [hsame, hbefore]
  exact hstop.symm

end Elements

section Added

variable {source edited before u : Text} {element again : Tag × List Markup} {name other : Text}

/-- **A style attribute that is added to a tag without attributes** is the style of the element that is
read there, and that has the same name. Its tag ends behind the style. -/
theorem Known.style_of_bare {more : Text} (h : Known source element) (hagain : Known edited again)
    (hname : element.1.name = some name) (hother : again.1.name = some other)
    (hbare : element.1.insertAt = element.1.nameSpan.stop) (hsource : source = before ++ u)
    (hedited : edited = before ++ ' ' :: ("style=".toList ++ '\x7b' :: more))
    (hbefore : byteLength before = element.1.insertAt)
    (hstart : again.1.span.start = element.1.span.start) {properties : List (Text × Text)} {n : Nat}
    (hread : readContainer? ⟨'\x7b' :: more, element.1.insertAt + 7⟩ = some (properties, ⟨u, n⟩)) :
    other = name ∧ again.1.nameSpan = element.1.nameSpan ∧
      again.1.style = some ⟨⟨element.1.insertAt + 1, n⟩, some ⟨element.1.insertAt + 7, n⟩⟩ ∧
      (scan .code ⟨u, n⟩).token.kind ∈ [.punct .slash, .punct .greater] := by
  rw [hbare] at hbefore hread ⊢
  have hword := isWord_scan_style ('\x7b' :: more) element.1.nameSpan.stop
  -- The name ends where it did, for a blank stands behind it.
  obtain ⟨p, hold, hnew, hstop⟩ :=
    h.exists_nameReads hagain hname hother hsource hedited hbefore hstart
  obtain ⟨hspelt, hspells⟩ := hold.spells hstop.symm (ends_blank u _)
  obtain ⟨rfl, hspan⟩ := hnew.eq_of_spells hspells (by
    rw [hstop]
    intro hcolon
    rw [hcolon] at hword
    cases hword)
  rw [hspelt, hstop] at hspan
  refine ⟨rfl, hspan, ?_⟩
  -- Behind the style stands what stood behind the name.
  obtain ⟨toStop, rest, hcut, hlength, hbehind⟩ := h.behindName hname
  obtain ⟨-, rfl⟩ := append_inj_of_byteLength_eq (hcut.symm.trans hsource) (hlength.trans hbefore.symm)
  have hend := kind_scan_ends (hbehind.bare hbare) n
  -- The tag is read up to the style.
  have hbefore' : byteLength before = again.1.nameSpan.stop := by rw [hspan, hbefore]
  have hto := hagain.readTo_word hother hedited hbefore' (by rw [hspan]; exact hword)
  rw [skipGap_style, hbefore] at hto
  have hcut' : edited = before ++ [' '] ++ ("style=".toList ++ '\x7b' :: more) := by
    rw [hedited, List.append_assoc]
    rfl
  obtain ⟨style, hstyle, -, hwritten⟩ := hto.style_of_container hother hcut'
    (by rw [byteLength_append, hbefore]; rfl) (leadsToValue_style _) hread
  obtain ⟨rfl, hends⟩ := hwritten hend
  exact ⟨hstyle, hends⟩

end Added

end Retouch.Script
