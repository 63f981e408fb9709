import Retouch.Proofs.Script.Tags

/-!
# Elements are nested and their tags in order

The rules for markup are looked at once more, now for the spans that they note: `finds_runRule` says
what all rules of the grammar do, and `nested_parse` what is so found in a script. Its elements are
nested or apart, the parts of their tags stand in order (`Tag.Placed`), and what stands between two
tags is what the rule for that has given there (`ReadBetween`).
-/

namespace Retouch.Script

open Text

section Programs

variable {source : Text} {good : Tag × List Markup → Prop} {use : Use} {st : State}

/-! ## Ends of tokens -/

theorem gives_lastStop : lastStop.Gives use st fun n next => n = st.lastStop ∧ next = st := ⟨rfl, rfl⟩

theorem gives_reportAt (offset : Nat) (cause : Cause) :
    (reportAt offset cause).Gives use st fun _ next =>
      next = { st with reports := ⟨offset, cause⟩ :: st.reports } := rfl

theorem gives_spanFrom (start : Nat) :
    (spanFrom start).Gives use st fun span next => span = ⟨start, st.lastStop⟩ ∧ next = st := by
  refine Prog.Gives.bind gives_lastStop ?_
  rintro n next ⟨rfl, rfl⟩
  exact ⟨rfl, rfl⟩

/-- A token that is no keyword is left behind at once. -/
theorem gives_advanceIn_plain (place : Place)
    (h : ∀ word, st.current.token.kind ≠ .keyword word) :
    (advanceIn place).Gives use st fun _ next => next = st.advance place := by
  refine Prog.Gives.bind gives_token ?_
  rintro t next ⟨rfl, rfl⟩
  split
  · split
    · next word hword => exact absurd hword (h word)
    · exact rfl
  · exact rfl

theorem gives_advanceIn_mark (place : Place) {mark : Punct}
    (hmark : st.current.token.kind = .punct mark) :
    (advanceIn place).Gives use st fun _ next => next = st.advance place :=
  gives_advanceIn_plain place fun word hword => by rw [hmark] at hword; cases hword

/-- The token that is left behind ends the last one. -/
theorem gives_advanceIn_le (place : Place) (h : st.Sound source) :
    (advanceIn place).Gives use st fun _ next => st.offset ≤ next.lastStop := by
  have hstop : st.offset ≤ st.current.token.stop := h.token.leadsTo.offset_le
  refine Prog.Gives.bind gives_token ?_
  rintro t next ⟨rfl, rfl⟩
  split
  · split <;> exact hstop
  · exact hstop

/-- What is read behind a mark that has to stand here. -/
theorem gives_expect (mark : Punct) :
    (expect mark).Gives use st fun _ next =>
      next = st.advance .code ∧ st.current.token.kind = .punct mark := by
  refine Prog.Gives.bind (gives_demand mark) ?_
  rintro - next ⟨rfl, hmark⟩
  exact (gives_advanceIn_mark .code hmark).imp fun _ _ hnext => ⟨hnext, hmark⟩

theorem gives_at? (mark : Punct) :
    (at? mark).Gives use st fun b next => b = (st.current.token.kind == .punct mark) ∧ next = st :=
  ⟨rfl, rfl⟩

/-- A mark is left behind if it stands here. -/
theorem gives_eat (mark : Punct) :
    (eat mark).Gives use st fun b next =>
      (b = true ∧ st.current.token.kind = .punct mark ∧ next = st.advance .code) ∨
        (b = false ∧ st.current.token.kind ≠ .punct mark ∧ next = st) := by
  refine Prog.Gives.bind (gives_at? mark) ?_
  rintro b next ⟨rfl, rfl⟩
  by_cases hmark : next.current.token.kind = .punct mark
  · rw [if_pos (by rw [hmark]; exact beq_self_eq_true _)]
    refine Prog.Gives.bind (gives_advanceIn_mark .code hmark) ?_
    rintro - last rfl
    exact .inl ⟨rfl, hmark, rfl⟩
  · rw [if_neg (by simpa using hmark)]
    exact .inr ⟨rfl, hmark, rfl⟩

/-- The end of a tag is not empty. -/
theorem gives_endTag (between : Bool) (h : st.Steady source) :
    (endTag between).Gives use st fun _ next =>
      st.Walked source next ∧ st.offset < next.lastStop ∧
        st.current.token.kind = .punct .greater ∧ (between = true → next = st.advance .child) := by
  refine Prog.Gives.bind (gives_demand .greater) ?_
  rintro - next ⟨rfl, hmark⟩
  refine (gives_advanceIn_mark _ hmark).imp ?_
  rintro - last rfl
  exact ⟨.advance h _, h.solid.lt_stop hmark, hmark, fun hbetween => by rw [hbetween]; rfl⟩

theorem gives_reread (how : Rescan) :
    (perform (.reread how)).Gives use st fun _ next => next = st.reread how := rfl

/-- A word in a tag is not empty. -/
theorem gives_tagWord (h : st.Steady source) :
    tagWord.Gives use st fun _ next => st.Walked source next ∧ st.offset < next.lastStop := by
  refine Prog.Gives.bind (gives_reread .hyphens) ?_
  rintro _ next rfl
  have hwalked : st.Walked source (st.reread .hyphens) := .reread h .hyphens
  refine Prog.Gives.bind gives_kind ?_
  rintro k next ⟨rfl, rfl⟩
  split
  · next word hword =>
    have hlt := hwalked.steady.solid.word (by rw [TokenKind.isWord, hword]; rfl)
    exact ⟨hwalked.trans (.advance hwalked.steady .code), Nat.lt_of_le_of_lt hwalked.le hlt⟩
  · trivial

/-- The span of a name is what was read of it. -/
theorem gives_tagName (hf : Finds source good use) (c : Ctx) (h : st.Steady source) :
    (tagName c).Gives use st fun name next =>
      st.Walked source next ∧ name.span = ⟨st.offset, next.lastStop⟩ ∧ st.offset < next.lastStop := by
  refine Prog.Gives.bind gives_here ?_
  rintro start next ⟨rfl, rfl⟩
  apply Prog.Gives.bind (gives_tagWord h)
  rintro word worded ⟨hworded, hlt⟩
  apply Prog.Gives.bind (walks (moves_eat .colon) hf hworded.steady)
  intro colon eaten heaten
  have hall : ∀ {last : State} {span : Span}, eaten.Walked source last →
      span = ⟨next.offset, last.lastStop⟩ → next.Walked source last ∧
        span = ⟨next.offset, last.lastStop⟩ ∧ next.offset < last.lastStop := by
    intro last span hlast hspan
    exact ⟨(hworded.trans heaten).trans hlast, hspan,
      Nat.lt_of_lt_of_le hlt (Nat.le_trans heaten.lastStop_le hlast.lastStop_le)⟩
  split
  · apply Prog.Gives.bind (walks moves_tagWord hf heaten.steady)
    intro tail tailed htailed
    apply Prog.Gives.bind (gives_spanFrom next.offset)
    rintro span last ⟨hspan, rfl⟩
    exact hall htailed hspan
  · apply Prog.Gives.bind (walks (moves_at? .dot) hf heaten.steady)
    intro dot looked hlooked
    split
    · apply Prog.Gives.bind (walks (moves_callTagMembers hf.behaves c word) hf hlooked.steady)
      intro written membered hmembered
      apply Prog.Gives.bind (gives_spanFrom next.offset)
      rintro span last ⟨hspan, rfl⟩
      exact hall (hlooked.trans hmembered) hspan
    · apply Prog.Gives.bind (gives_spanFrom next.offset)
      rintro span last ⟨hspan, rfl⟩
      exact hall hlooked hspan

/-- The word in a tag is the token with the hyphens behind it. -/
theorem gives_tagWord_eq :
    tagWord.Gives use st fun word next =>
      (rescan .hyphens st.current).token.kind.word? = some word ∧
        next = (st.reread .hyphens).advance .code := by
  refine Prog.Gives.bind (gives_reread .hyphens) ?_
  rintro _ next rfl
  refine Prog.Gives.bind gives_kind ?_
  rintro k next ⟨rfl, rfl⟩
  split
  · next word hword => exact ⟨hword, rfl⟩
  · trivial

/-- A word in a tag that stands behind a cursor. -/
theorem gives_tagWord_at {cursor : Cursor} (h : st.current = scan .code cursor) :
    tagWord.Gives use st fun word next =>
      (wordAt cursor).token.kind.word? = some word ∧
        next.current = scan .code (wordAt cursor).after ∧
        next.lastStop = (wordAt cursor).token.stop := by
  refine gives_tagWord_eq.imp ?_
  rintro word next ⟨hword, rfl⟩
  rw [wordAt, ← h]
  exact ⟨hword, rfl, rfl⟩

/-- Only a word is rendered under its own name. -/
theorem eq_of_intrinsicName {word name : Text} (h : intrinsicName word = some name) : name = word := by
  unfold intrinsicName at h
  split at h
  · cases h
  · dsimp only at h
    split at h
    · exact (Option.some.inj h).symm
    · cases h

/-- How a name is read that an element is rendered under. -/
theorem gives_nameRead (c : Ctx) {cursor : Cursor} (h : st.current = scan .code cursor) :
    (tagName c).Gives use st fun name _ =>
      ∀ word, name.intrinsic = some word → NameRead cursor word name.span := by
  have hstart : st.offset = (wordAt cursor).token.start := by
    rw [State.offset, h]
    exact (congrArg Cursor.offset (Scanned.here_rescan .hyphens (scan .code cursor))).symm
  refine Prog.Gives.bind gives_here ?_
  rintro start next ⟨rfl, rfl⟩
  apply Prog.Gives.bind (gives_tagWord_at h)
  rintro word worded ⟨hword, hbehind, hstop⟩
  apply Prog.Gives.bind (gives_eat .colon)
  rintro colon eaten (⟨rfl, hcolon, rfl⟩ | ⟨rfl, hcolon, rfl⟩)
  · rw [hbehind] at hcolon
    rw [if_pos rfl]
    have hcurrent : (worded.advance .code).current
        = scan .code (scan .code (wordAt cursor).after).after := by
      rw [← hbehind]
      rfl
    apply Prog.Gives.bind (gives_tagWord_at hcurrent)
    rintro tail tailed ⟨htail, -, hlast⟩
    apply Prog.Gives.bind (gives_spanFrom next.offset)
    rintro span last ⟨rfl, rfl⟩
    intro name hname
    obtain rfl : word ++ ':' :: tail = name := Option.some.inj hname
    rw [hstart, hlast]
    exact .namespaced hword hcolon htail
  · rw [hbehind] at hcolon
    rw [if_neg Bool.false_ne_true]
    apply Prog.Gives.bind (gives_at? .dot)
    rintro dot looked ⟨-, rfl⟩
    split
    · -- A member is none of the names that elements are rendered under.
      apply Prog.Gives.bind (Outcome.gives_eq _)
      intro written membered _
      apply Prog.Gives.bind (gives_spanFrom next.offset)
      rintro span last ⟨-, -⟩
      intro name hname
      cases hname
    · apply Prog.Gives.bind (gives_spanFrom next.offset)
      rintro span last ⟨rfl, rfl⟩
      intro name hname
      obtain rfl : name = word := eq_of_intrinsicName hname
      rw [hstart, hstop]
      exact .word hword hcolon

/-! ## Attributes -/

/-- Whether an attribute is all that was read between two states, its value a part of it. -/
structure Spans (source : Text) (st : State) (a : Attribute) (next : State) : Prop where
  span : a.span = ⟨st.offset, next.lastStop⟩
  le : st.offset ≤ next.lastStop
  value : ∀ value, a.value = some value → value.Within source st.offset next.lastStop

theorem gives_spreadAttribute (hf : Finds source good use) (c : Ctx) (h : st.Steady source) :
    (spreadAttribute c st.offset).Gives use st fun a next =>
      st.Went source good next ∧ Spans source st a next := by
  apply Prog.Gives.bind ((walks moves_advance hf h).and (gives_advanceIn_le .code h.toSound))
  rintro _ inner ⟨hinner, hle⟩
  apply Prog.Gives.bind (walks (moves_expect .ellipsis) hf hinner.steady)
  intro _ dotted hdotted
  apply Prog.Gives.bind (goes hf (skip c.enclosed .expression) hdotted.steady)
  intro _ valued hvalued
  apply Prog.Gives.bind (walks (moves_expect .braceClose) hf hvalued.steady)
  intro _ closed hclosed
  apply Prog.Gives.bind (gives_spanFrom st.offset)
  rintro span last ⟨rfl, rfl⟩
  have hbehind : inner.Went source good last :=
    ((State.Went.of_walked hdotted).trans hvalued).trans (.of_walked hclosed)
  exact ⟨(State.Went.of_walked hinner).trans hbehind, rfl, Nat.le_trans hle hbehind.lastStop_le,
    fun _ hnone => by cases hnone⟩

/-- A value is read up to behind the place where it begins. -/
theorem gives_attributeValue (hf : Finds source good use) (c : Ctx) (h : st.Steady source) :
    (attributeValue c).Gives use st fun _ next =>
      st.Went source good next ∧ st.offset ≤ next.lastStop := by
  refine Outcome.Gives.and (goes hf _ h) ?_
  refine Prog.Gives.bind gives_kind ?_
  rintro k next ⟨rfl, rfl⟩
  split
  · exact gives_advanceIn_le .code h.toSound
  · refine Prog.Gives.bind gives_here ?_
    rintro start next ⟨-, rfl⟩
    apply Prog.Gives.bind ((walks moves_advance hf h).and (gives_advanceIn_le .code h.toSound))
    rintro _ inner ⟨hinner, hle⟩
    exact (goes hf _ hinner.steady).imp fun _ last hlast => Nat.le_trans hle hlast.lastStop_le
  · exact (goes_emitElement hf c h).imp fun _ _ hnext => Nat.le_of_lt hnext.2
  · trivial

/-- Another word may be read before a program goes on. -/
theorem gives_optional {α : Type} {again : Bool} {p : Prog α} {post : α → State → Prop}
    (hf : Finds source good use) (h : st.Steady source)
    (hp : ∀ next, st.Walked source next → p.Gives use next post) :
    (if again = true then do let _ ← tagWord; p else p).Gives use st post := by
  split
  · exact Prog.Gives.bind (walks moves_tagWord hf h) fun _ next hnext => hp next hnext
  · exact hp st (.refl h)

theorem gives_namedAttribute (hf : Finds source good use) (c : Ctx) (h : st.Steady source) :
    (namedAttribute c st.offset).Gives use st fun a next =>
      st.Went source good next ∧ Spans source st a next := by
  apply Prog.Gives.bind (gives_tagWord h)
  rintro word worded ⟨hworded, hlt⟩
  apply Prog.Gives.bind (walks (moves_eat .colon) hf hworded.steady)
  intro namespaced eaten heaten
  refine gives_optional hf heaten.steady fun tailed htailed => ?_
  apply Prog.Gives.bind (walks (moves_at? .assign) hf htailed.steady)
  intro assigned named hnamed
  have hname : worded.Walked source named := (heaten.trans htailed).trans hnamed
  have hread : st.offset ≤ named.lastStop := Nat.le_trans (Nat.le_of_lt hlt) hname.lastStop_le
  split
  · apply Prog.Gives.bind (walks (moves_advanceIn .attribute) hf hnamed.steady)
    intro _ inner hinner
    refine Prog.Gives.bind gives_here ?_
    rintro valueStart begun ⟨rfl, rfl⟩
    apply Prog.Gives.bind (gives_attributeValue hf c hinner.steady)
    rintro _ valued ⟨hvalued, hle⟩
    apply Prog.Gives.bind (gives_spanFrom st.offset)
    rintro span last ⟨rfl, rfl⟩
    apply Prog.Gives.bind (gives_spanFrom begun.offset)
    rintro value last ⟨rfl, rfl⟩
    have hbegun : st.Walked source begun := (hworded.trans hname).trans hinner
    refine ⟨(State.Went.of_walked hbegun).trans hvalued, rfl, Nat.le_trans hbegun.le hle, ?_⟩
    rintro value hvalue
    obtain rfl := Option.some.inj hvalue
    exact ⟨hbegun.le, hle, Nat.le_refl _, hinner.steady.toSound.isBoundary_offset,
      hvalued.steady.boundary⟩
  · apply Prog.Gives.bind (gives_spanFrom st.offset)
    rintro span last ⟨rfl, rfl⟩
    exact ⟨.of_walked (hworded.trans hname), rfl, hread, fun _ hnone => by cases hnone⟩

/-- How attributes are read: there are none, and then no word stands here, or the first one begins with a
brace or has a name, and the rule is used again behind it. -/
theorem gives_attributesRule_of {c : Ctx} {one : Attribute → State → Prop}
    {post : List Attribute → State → Prop}
    (hspread : st.current.token.kind = .punct .braceOpen →
      (spreadAttribute c st.offset).Gives use st one)
    (hnamed : (namedAttribute c st.offset).Gives use st one)
    (hrest : ∀ first middle, one first middle →
      (use c .attributes middle).Gives fun rest last => post (first :: rest) last)
    (hnone : st.current.token.kind.isWord = false → post [] st) :
    (attributesRule c).Gives use st post := by
  have hall : ∀ first middle, one first middle →
      (call c .attributes >>= fun rest => pure (first :: rest)).Gives use middle post :=
    fun first middle hfirst =>
      Prog.Gives.bind (Prog.Gives.call (hrest first middle hfirst)) fun _ _ hlast => hlast
  refine Prog.Gives.bind gives_token ?_
  rintro t next ⟨rfl, rfl⟩
  split
  case h_5 =>
    split
    · next hbrace => exact Prog.Gives.bind (hspread (eq_of_beq hbrace)) hall
    · exact Prog.Gives.bind hnamed hall
  all_goals
    next hkind => exact hnone (by rw [hkind]; rfl)

theorem gives_attributesRule (hf : Finds source good use) (c : Ctx) (h : st.Steady source) :
    (attributesRule c).Gives use st fun attributes next =>
      InRow source st.offset next.lastStop attributes ∧
        next.lastStop = attributesEnd st.lastStop attributes := by
  refine gives_attributesRule_of (fun _ => gives_spreadAttribute hf c h) (gives_namedAttribute hf c h)
    ?_ fun _ => ⟨.nil _ _, rfl⟩
  rintro first middle ⟨hmiddle, hspans⟩
  refine ((hf.goes c .attributes middle hmiddle.steady).and
    (hf.attributes c middle hmiddle.steady)).imp ?_
  rintro attributes last ⟨hlast, hrow, hend⟩
  have hspan : first.span.Within source st.offset middle.lastStop := by
    rw [hspans.span]
    exact ⟨Nat.le_refl _, hspans.le, Nat.le_refl _, h.toSound.isBoundary_offset,
      hmiddle.steady.boundary⟩
  constructor
  · refine .cons hspan ?_ (hrow.mono hmiddle.steady.lastStop_le) hlast.lastStop_le
    rw [hspans.span]
    exact hspans.value
  · rw [attributesEnd_cons, hspans.span]
    exact hend

/-- The place for a new attribute, and the last style attribute before it. -/
theorem within_insertionPoint {name : TagName} {attributes : List Attribute} {high : Nat}
    (hrow : InRow source name.span.stop high attributes)
    (hname : isBoundary source name.span.stop = true) (hhigh : name.span.stop ≤ high) :
    name.span.stop ≤ insertionPoint name attributes ∧ insertionPoint name attributes ≤ high ∧
      isBoundary source (insertionPoint name attributes) = true ∧
        ∀ style, lastStyle attributes = some style →
          style.span.Within source name.span.stop (insertionPoint name attributes) ∧
            ∀ value, style.value = some value →
              value.Within source style.span.start style.span.stop := by
  cases hlast : attributes.getLast? with
  | none =>
    obtain rfl := List.getLast?_eq_none_iff.1 hlast
    exact ⟨Nat.le_refl _, hhigh, hname, fun _ hnone => by cases hnone⟩
  | some last =>
    obtain ⟨hspan, -⟩ := hrow.within last (List.mem_of_getLast? hlast)
    have hpoint : insertionPoint name attributes = last.span.stop := by rw [insertionPoint, hlast]
    rw [hpoint]
    refine ⟨Nat.le_trans hspan.low_le hspan.le, hspan.le_high, hspan.stop, ?_⟩
    rintro style hstyle
    obtain ⟨a, ha, rfl⟩ := Option.map_eq_some_iff.1 hstyle
    have hmem : a ∈ attributes := List.mem_reverse.1 (List.mem_of_find?_eq_some ha)
    obtain ⟨hin, hvalue⟩ := hrow.within a hmem
    exact ⟨⟨hin.low_le, hin.le, hrow.stop_le_of_getLast? hlast hmem, hin.start, hin.stop⟩, hvalue⟩

/-- A tag is placed if its name and attributes are, and what closes it. -/
theorem placed_tag {name : TagName} {attributes : List Attribute} {start high stop last : Nat}
    {closing : Option ClosingTag} (hname : name.span.Within source (start + 1) high)
    (hnamed : name.span.start < name.span.stop)
    (hrow : InRow source name.span.stop high attributes) (hhigh : high < stop)
    (hstart : isBoundary source start = true) (hstop : isBoundary source stop = true)
    (hlast : stop ≤ last) (hsingle : closing = none → last = stop)
    (hclosing : ∀ c, closing = some c → c.span.Within source stop last ∧ c.span.stop = last ∧
      c.name.Within source (c.span.start + 1) c.span.stop ∧ c.name.start < c.name.stop) :
    Tag.Placed source
      { name := name.intrinsic
        span := ⟨start, last⟩
        opening := ⟨start, stop⟩
        nameSpan := name.span
        closing := closing
        style := lastStyle attributes
        insertAt := insertionPoint name attributes } := by
  obtain ⟨hbehind, hpoint, hboundary, hstyle⟩ :=
    within_insertionPoint hrow hname.stop hname.le_high
  have hbegin : start ≤ name.span.start := Nat.le_of_succ_le hname.low_le
  exact {
    opening := ⟨Nat.le_refl _, by show start ≤ stop; omega, hlast, hstart, hstop⟩
    opens := rfl
    nameSpan := ⟨hname.low_le, hname.le, hbehind, hname.start, hname.stop⟩
    named := hnamed
    style := hstyle
    insertAt := hboundary
    insertAt_lt := Nat.lt_of_le_of_lt hpoint hhigh
    single := hsingle
    closing := hclosing }

/-! ## Between tags -/

/-- Pieces that stand where the reader walked. -/
def Pieces (source : Text) (good : Tag × List Markup → Prop) (st : State) (pieces : List Markup)
    (next : State) : Prop :=
  st.Walked source next ∧ Nested good st.offset next.offset pieces

namespace Pieces

variable {pieces more : List Markup} {middle next : State}

/-- Pieces without elements stand anywhere. -/
theorem of_nil (h : st.Walked source next) (hnone : Markup.elementsOfAll pieces = []) :
    Pieces source good st pieces next :=
  ⟨h, (Nested.nil _ _).congr (by rw [hnone]; rfl)⟩

/-- Pieces behind a place that the reader has moved to. -/
theorem after (h : st.Walked source middle) (hpieces : Pieces source good middle pieces next) :
    Pieces source good st pieces next :=
  ⟨h.trans hpieces.1, hpieces.2.mono h.le (Nat.le_refl _)⟩

/-- The reader moves on behind pieces. -/
theorem before (hpieces : Pieces source good st pieces middle) (h : middle.Walked source next) :
    Pieces source good st pieces next :=
  ⟨hpieces.1.trans h, hpieces.2.mono (Nat.le_refl _) h.le⟩

/-- Pieces and those behind them. -/
theorem append (hpieces : Pieces source good st pieces middle)
    (hmore : Pieces source good middle more next) : Pieces source good st (pieces ++ more) next :=
  ⟨hpieces.1.trans hmore.1, hpieces.2.append hmore.2 hpieces.1.le hmore.1.le⟩

theorem congr (hpieces : Pieces source good st pieces next)
    (hsame : Markup.elementsOfAll more = Markup.elementsOfAll pieces) :
    Pieces source good st more next :=
  ⟨hpieces.1, hpieces.2.congr hsame⟩

end Pieces

/-- What the rule for pieces gives, and how. -/
theorem pieces_callChildren (hf : Finds source good use) (c : Ctx) (h : st.Steady source) :
    (call c .children).Gives use st fun pieces next =>
      Pieces source good st pieces next ∧ use c .children st = .done pieces next := by
  have hall := ((hf.goes c .children st h).and (hf.children c st h)).and
    ((hf.behaves.children c st h.toSound).and (Outcome.gives_eq _))
  refine Prog.Gives.call (hall.imp ?_)
  rintro pieces next ⟨⟨hwent, hnested⟩, ⟨hfound, -⟩, hrun⟩
  exact ⟨⟨⟨hwent.steady, hwent.le, hwent.lastStop_le, hfound⟩, hnested⟩, hrun⟩

theorem pieces_callElement (hf : Finds source good use) (c : Ctx) (between : Bool)
    (h : st.Steady source) :
    (call c (.element between)).Gives use st fun piece => Pieces source good st [piece] := by
  have hall := ((hf.goes c (.element between) st h).and (hf.element c between st h)).and
    (hf.behaves.element c between st h.toSound)
  refine Prog.Gives.call (hall.imp ?_)
  rintro piece next ⟨⟨hwent, hnested, -⟩, hfound, -⟩
  exact ⟨⟨hwent.steady, hwent.le, hwent.lastStop_le, hfound⟩, hnested⟩

/-- What is gathered while a rule is used. -/
theorem pieces_gather (hf : Finds source good use) (c : Ctx) (r : Rule) (h : st.Steady source) :
    (gather c r).Gives use st fun answer next => Pieces source good st answer.2 next := by
  have hall : (use c r { st with found := [] }).Gives fun _ _ => True := by
    cases use c r { st with found := [] } <;> trivial
  exact (gives_gathered hf h hall).imp fun _ _ hnext => ⟨hnext.1, hnext.2.1⟩

theorem pieces_containedCode (hf : Finds source good use) (c : Ctx) (h : st.Steady source) :
    (containedCode c).Gives use st fun piece => Pieces source good st [piece] := by
  apply Prog.Gives.bind (walks (moves_at? .braceClose) hf h)
  intro closed next hnext
  split
  · apply Prog.Gives.bind (walks moves_endCode hf hnext.steady)
    intro _ last hlast
    exact .of_nil (hnext.trans hlast) (by simp [Markup.elementsOfAll, Markup.elements])
  · apply Prog.Gives.bind (walks (moves_eat .ellipsis) hf hnext.steady)
    intro spread inner hinner
    apply Prog.Gives.bind (pieces_gather hf c .expression hinner.steady)
    rintro ⟨e, inside⟩ behind hinside
    apply Prog.Gives.bind (walks moves_endCode hf hinside.1.steady)
    intro _ last hlast
    have hall : Pieces source good st inside last :=
      .after (hnext.trans hinner) (.before hinside hlast)
    split
    · exact .of_nil hall.1 (by simp [Markup.elementsOfAll, Markup.elements])
    · exact hall.congr (by simp [Markup.elementsOfAll, Markup.elements])

theorem pieces_childrenRule (hf : Finds source good use) (c : Ctx) (h : st.Steady source) :
    (childrenRule c).Gives use st (Pieces source good st) := by
  -- Whatever comes first, the rest is read by the same rule.
  have hrest : ∀ piece middle, Pieces source good st [piece] middle →
      (call c .children >>= fun rest => pure (piece :: rest)).Gives use middle
        (Pieces source good st) := by
    intro piece middle hpiece
    apply Prog.Gives.bind (pieces_callChildren hf c hpiece.1.steady)
    rintro rest last ⟨hlast, -⟩
    exact .append hpiece hlast
  refine Prog.Gives.bind gives_kind ?_
  rintro k next ⟨-, rfl⟩
  split
  · apply Prog.Gives.bind (walks (moves_advanceIn .child) hf h)
    intro _ middle hmiddle
    exact hrest _ middle (.of_nil hmiddle (by simp [Markup.elementsOfAll, Markup.elements]))
  · apply Prog.Gives.bind (walks moves_advance hf h)
    intro _ inner hinner
    apply Prog.Gives.bind (pieces_containedCode hf c hinner.steady)
    intro piece middle hpiece
    exact hrest piece middle (.after hinner hpiece)
  · apply Prog.Gives.bind (walks (moves_kindAhead 1) hf h)
    intro k inner hinner
    split
    · exact .of_nil hinner rfl
    · apply Prog.Gives.bind (pieces_callElement hf c true hinner.steady)
      intro piece middle hpiece
      exact hrest piece middle (.after hinner hpiece)
  · trivial

/-! ## Elements -/

theorem pieces_fragmentRest (hf : Finds source good use) (c : Ctx) (between : Bool)
    (h : st.Steady source) :
    (fragmentRest c between).Gives use st fun piece => Pieces source good st [piece] := by
  apply Prog.Gives.bind (walks (moves_endTag true) hf h)
  intro _ inner hinner
  apply Prog.Gives.bind (pieces_callChildren hf c hinner.steady)
  rintro children next ⟨hchildren, -⟩
  apply Prog.Gives.bind (walks moves_closingStart hf hchildren.1.steady)
  intro _ middle hmiddle
  apply Prog.Gives.bind (walks (moves_endTag between) hf hmiddle.steady)
  intro _ last hlast
  have hall := (Pieces.after hinner hchildren).before (hmiddle.trans hlast)
  exact hall.congr (by simp [Markup.elementsOfAll, Markup.elements])

/-- Type arguments are read only if they begin here. -/
theorem pieces_typeArgumentsOfTag (hf : Finds source good use) (c : Ctx) (h : st.Steady source) :
    (elementRest.typeArgumentsOfTag c).Gives use st fun pieces next =>
      Pieces source good st pieces next ∧ (next.lastStop = st.lastStop ∨
        st.current.token.kind = .punct .less ∨ st.current.token.kind = .punct .shiftLeft) := by
  refine Prog.Gives.bind gives_kind ?_
  rintro k next ⟨rfl, rfl⟩
  split
  · next hbegin =>
    simp only [Bool.and_eq_true, Bool.or_eq_true, beq_iff_eq] at hbegin
    apply Prog.Gives.bind (pieces_gather hf c .typeArguments h)
    rintro ⟨_, inside⟩ last hinside
    exact ⟨hinside, .inr hbegin.2⟩
  · exact ⟨.of_nil (.refl h) rfl, .inl rfl⟩

/-- The attributes of a tag and the markup in them. -/
theorem pieces_attributes (hf : Finds source good use) (c : Ctx) (h : st.Steady source) :
    (gather c .attributes).Gives use st fun answer next =>
      Pieces source good st answer.2 next ∧ InRow source st.offset next.lastStop answer.1 ∧
        next.lastStop = attributesEnd st.lastStop answer.1 ∧
        ∃ inner, use c .attributes { st with found := [] } = .done answer.1 inner ∧
          inner.current = next.current := by
  have hsteady : State.Steady source { st with found := [] } := h.congr rfl rfl
  refine (gives_gathered hf h ((hf.attributes c _ hsteady).and (Outcome.gives_eq _))).imp ?_
  rintro answer next ⟨hnext, hnested, inner, ⟨⟨hrow, hend⟩, hrun⟩, hlast, hcurrent⟩
  exact ⟨⟨hnext, hnested⟩, hlast ▸ hrow, hlast ▸ hend, inner, hrun, hcurrent⟩

/-- The beginning of a closing tag. -/
theorem gives_closingStart (h : st.Steady source) :
    closingStart.Gives use st fun _ next =>
      st.Walked source next ∧ st.offset < next.offset ∧ st.current.token.kind = .punct .less ∧
        (scan .code st.current.after).token.kind = .punct .slash := by
  apply Prog.Gives.bind (gives_expect .less)
  rintro _ middle ⟨rfl, hless⟩
  have hwalked : st.Walked source (st.advance .code) := .advance h .code
  refine (gives_expect .slash).imp ?_
  rintro _ next ⟨rfl, hslash⟩
  have hbehind := State.Walked.advance hwalked.steady .code
  have hlt := State.offset_lt_advance h.toSound hless .code
  exact ⟨hwalked.trans hbehind, Nat.lt_of_lt_of_le hlt hbehind.le, hless, hslash⟩

/-- Whether all elements are good whose tags are placed and were read there, and whose children were
read between them. -/
def Suits (source : Text) (use : Use) (good : Tag × List Markup → Prop) : Prop :=
  ∀ (tag : Tag) (children : List Markup), tag.Placed source → TagRead source tag →
    (∃ o : Opening, o.Read source use tag.span.start ∧ o.Gave tag) →
    (∀ closing, tag.closing = some closing →
      ∃ c st next, ReadBetween source use tag closing children c st next) → good (tag, children)

/-- What was read of an opening tag, up to its end. -/
structure Opened (source : Text) (good : Tag × List Markup → Prop) (use : Use) (start : Nat)
    (name : TagName) (attributes : List Attribute) (inside : List Markup) (st : State) : Prop where
  steady : st.Steady source
  begins : isBoundary source start = true
  spelt : name.span.Within source (start + 1) st.lastStop
  named : name.span.start < name.span.stop
  row : InRow source name.span.stop st.lastStop attributes
  inside : Nested good start st.offset inside
  read : ∃ before rest, source = before ++ '<' :: rest ∧ byteLength before = start ∧
    ∀ word, name.intrinsic = some word → NameRead ⟨rest, start + 1⟩ word name.span
  /-- Where an attribute can be added the current token was read, or type arguments begin. -/
  ends : st.lastStop = insertionPoint name attributes ∨
    ∃ s, TokenAt source (insertionPoint name attributes) s ∧ s.Solid ∧
      (s.token.kind = .punct .less ∨ s.token.kind = .punct .shiftLeft)
  way : ∃ o : Opening, o.Read source use start ∧ o.name = name ∧ o.attributes = attributes ∧
    o.ended.current = st.current

namespace Opened

variable {start stop : Nat} {name : TagName} {attributes : List Attribute} {inside : List Markup}
  {next : State}

theorem start_lt (h : Opened source good use start name attributes inside st) : start < st.offset := by
  have := h.spelt.low_le
  have := h.spelt.le
  have := h.spelt.le_high
  have := h.steady.lastStop_le
  omega

/-- How the tag was read, if it ends with the current token. -/
theorem tagRead (h : Opened source good use start name attributes inside st) {span opening : Span}
    {closing : Option ClosingTag} {style : Option StyleAttribute} (hstart : span.start = start)
    (hends : EndsWith ⟨name.intrinsic, span, opening, name.span, closing, style,
      insertionPoint name attributes⟩ st.current) :
    TagRead source ⟨name.intrinsic, span, opening, name.span, closing, style,
      insertionPoint name attributes⟩ where
  name := by
    dsimp only
    rw [hstart]
    exact h.read
  ends := by
    rcases h.ends with hlast | ⟨s, hs, hsolid, hkind⟩
    · have hpositive : st.lastStop ≠ 0 := by
        have := h.spelt.low_le
        have := h.spelt.le
        have := h.spelt.le_high
        omega
      have hread := h.steady.read hpositive
      rw [hlast] at hread
      exact ⟨_, hread, h.steady.solid, hends⟩
    · exact ⟨s, hs, hsolid, .types hkind⟩

/-- The way through the tag, if it ends with the current token. -/
theorem exists_way (h : Opened source good use start name attributes inside st) {tag : Tag}
    (hstart : tag.span.start = start) (hname : tag.name = name.intrinsic)
    (hspan : tag.nameSpan = name.span) (hstyle : tag.style = lastStyle attributes)
    (hinsert : tag.insertAt = insertionPoint name attributes)
    (hends : tag.closing = none ∧ st.current.token.kind = .punct .slash ∨
      tag.closing ≠ none ∧ st.current.token.kind = .punct .greater) :
    ∃ o : Opening, o.Read source use tag.span.start ∧ o.Gave tag := by
  obtain ⟨o, hread, rfl, rfl, hcurrent⟩ := h.way
  exact ⟨o, hstart ▸ hread, hname, hspan, hstyle, hinsert, by rw [hcurrent]; exact hends⟩

/-- An element of one tag, which ends behind a sign that stands behind its attributes. -/
theorem nested_single (h : Opened source good use start name attributes inside st)
    (hslash : st.current.token.kind = .punct .slash)
    (hnext : st.Walked source next) (hend : next.offset < stop)
    (hstop : isBoundary source stop = true) (hgood : Suits source use good) :
    Nested good start stop
      [.element
        { name := name.intrinsic
          span := ⟨start, stop⟩
          opening := ⟨start, stop⟩
          nameSpan := name.span
          closing := none
          style := lastStyle attributes
          insertAt := insertionPoint name attributes } inside []] := by
  have hbehind : st.offset ≤ stop := Nat.le_of_lt (Nat.lt_of_le_of_lt hnext.le hend)
  have hread : st.lastStop < stop :=
    Nat.lt_of_le_of_lt (Nat.le_trans h.steady.lastStop_le hnext.le) hend
  have hplaced := placed_tag h.spelt h.named h.row hread h.begins hstop (Nat.le_refl _)
    (fun _ => rfl) (fun c (hnone : none = some c) => by cases hnone)
  have hinside : Nested good start st.offset (inside ++ []) := by
    rw [List.append_nil]
    exact h.inside
  exact hinside.element (Nat.le_refl _) hbehind
    (hgood _ _ hplaced (h.tagRead rfl (.single rfl hslash))
      (h.exists_way rfl rfl rfl rfl rfl (.inl ⟨rfl, hslash⟩))
      fun closing (hnone : none = some closing) => by cases hnone)

/-- An element of two tags and what was read between them. -/
theorem nested_closed {opened inner : State} {children : List Markup} {closing : Span}
    {c : Ctx} {last : Nat} (h : Opened source good use start name attributes inside st)
    (hgreater : st.current.token.kind = .punct .greater) (hopened : opened = st.advance .child)
    (hchildren : Pieces source good opened children inner)
    (hrun : use c .children opened = .done children inner)
    (hless : inner.current.token.kind = .punct .less)
    (hslash : (scan .code inner.current.after).token.kind = .punct .slash)
    (hclosing : closing.Within source (inner.offset + 1) last) (hname : closing.start < closing.stop)
    (hlast : isBoundary source last = true) (hgood : Suits source use good) :
    Nested good start last
      [.element
        { name := name.intrinsic
          span := ⟨start, last⟩
          opening := ⟨start, opened.lastStop⟩
          nameSpan := name.span
          closing := some ⟨⟨inner.offset, last⟩, closing⟩
          style := lastStyle attributes
          insertAt := insertionPoint name attributes } inside children] := by
  have hsteady : opened.Steady source := hopened ▸ (State.Walked.advance h.steady .child).steady
  have hstop : opened.lastStop = st.current.token.stop := by rw [hopened]; rfl
  have hend : st.offset < opened.lastStop := by
    rw [hstop]
    exact h.steady.solid.lt_stop hgreater
  have hread : st.lastStop < opened.lastStop := Nat.lt_of_le_of_lt h.steady.lastStop_le hend
  have hbetween : opened.lastStop ≤ inner.offset :=
    Nat.le_trans hsteady.lastStop_le hchildren.1.le
  have hbehind : inner.offset ≤ last :=
    Nat.le_trans (Nat.le_of_succ_le hclosing.low_le) (Nat.le_trans hclosing.le hclosing.le_high)
  have hplaced := placed_tag h.spelt h.named h.row hread h.begins hsteady.boundary
    (Nat.le_trans hbetween hbehind)
    (fun (hnone : some ⟨⟨inner.offset, last⟩, closing⟩ = none) => by cases hnone) (by
      rintro c hc
      obtain rfl := Option.some.inj hc
      exact ⟨⟨hbetween, hbehind, Nat.le_refl _, hchildren.1.steady.toSound.isBoundary_offset, hlast⟩,
        rfl, hclosing, hname⟩)
  have hall : Nested good start last (inside ++ children) := by
    have hforward : st.offset ≤ opened.offset :=
      Nat.le_trans (Nat.le_of_lt hend) hsteady.lastStop_le
    have hinside := h.inside.mono (Nat.le_refl _) hforward
    have hstart : start ≤ opened.offset := Nat.le_trans (Nat.le_of_lt h.start_lt) hforward
    exact (hinside.append hchildren.2 hstart hchildren.1.le).mono (Nat.le_refl _) hbehind
  refine hall.element (Nat.le_refl _) (Nat.le_refl _) (hgood _ _ hplaced
    (h.tagRead rfl (.opening (fun hnone => by cases hnone) hgreater hstop.symm))
    (h.exists_way rfl rfl rfl rfl rfl (.inr ⟨fun hnone => (by cases hnone), hgreater⟩)) ?_)
  rintro tag htag
  obtain rfl := Option.some.inj htag
  refine ⟨c, opened, inner, hsteady, ⟨st.current.behind, ?_⟩, hrun, rfl, hless, hslash⟩
  rw [hopened]
  rfl

end Opened

/-- Where an attribute can be added to a tag. The reader stands there behind its attributes, unless
there are none and type arguments stand behind the name. -/
theorem ends_of_attributesEnd {named typed attributed : State} {name : TagName}
    {attributes : List Attribute} (h : named.Steady source) (hstop : name.span.stop = named.lastStop)
    (hpositive : named.lastStop ≠ 0)
    (htyped : typed.lastStop = named.lastStop ∨
      named.current.token.kind = .punct .less ∨ named.current.token.kind = .punct .shiftLeft)
    (hend : attributed.lastStop = attributesEnd typed.lastStop attributes) :
    attributed.lastStop = insertionPoint name attributes ∨
      ∃ s, TokenAt source (insertionPoint name attributes) s ∧ s.Solid ∧
        (s.token.kind = .punct .less ∨ s.token.kind = .punct .shiftLeft) := by
  have hpoint : insertionPoint name attributes = attributesEnd name.span.stop attributes := rfl
  rw [hpoint, hstop, hend]
  rcases htyped with hsame | hkind
  · left
    rw [hsame]
  · cases attributes with
    | nil => exact .inr ⟨named.current, h.read hpositive, h.solid, hkind⟩
    | cons first attributes =>
      left
      rw [attributesEnd_cons, attributesEnd_cons]

/-- **An element.** Its tags are placed, what it holds stands between them, and it ends with the last
token that was read. -/
theorem nested_elementRest (hf : Finds source good use) (hgood : Suits source use good) (c : Ctx)
    (between : Bool) {start : Nat} (h : st.Steady source) (hlt : start < st.offset)
    (hbehind : ∃ before rest, source = before ++ '<' :: rest ∧ byteLength before = start ∧
      st.current = scan .code ⟨rest, start + 1⟩) :
    (elementRest c between start).Gives use st fun piece next =>
      Nested good start next.lastStop [piece] ∧ start < next.lastStop := by
  obtain ⟨before, rest, hsource, hlength, hcurrent⟩ := hbehind
  have hstart : isBoundary source start = true :=
    isBoundary_iff.2 ⟨before, '<' :: rest, hsource.symm, hlength⟩
  apply Prog.Gives.bind
    (((gives_tagName hf c h).and (gives_nameRead c hcurrent)).and (Outcome.gives_eq _))
  rintro name named ⟨⟨⟨hnamed, hspan, hword⟩, hread⟩, hname⟩
  apply Prog.Gives.bind ((pieces_typeArgumentsOfTag hf c hnamed.steady).and (Outcome.gives_eq _))
  rintro inTypes typed ⟨⟨htyped, htypes⟩, hways⟩
  apply Prog.Gives.bind (pieces_attributes hf c htyped.1.steady)
  rintro ⟨attributes, inAttributes⟩ attributed ⟨hattributed, hrow, hend, ended, hrun, hended⟩
  have hinside : Pieces source good st (inTypes ++ inAttributes) attributed :=
    (htyped.append hattributed).after hnamed
  have hends := ends_of_attributesEnd hnamed.steady (by rw [hspan]) (by omega) htypes hend
  have hopened : Opened source good use start name attributes (inTypes ++ inAttributes) attributed := by
    refine ⟨hinside.1.steady, hstart, ?_, ?_, ?_, hinside.2.mono (Nat.le_of_lt hlt) (Nat.le_refl _),
      ⟨before, rest, hsource, hlength, hread⟩, hends,
      ⟨c, st, name, named, typed, attributes, ended⟩,
      ⟨h, ⟨before, rest, hsource, hlength, hcurrent⟩, hname, ⟨inTypes, hways⟩, hrun⟩, rfl, rfl, hended⟩
    · rw [hspan]
      exact ⟨hlt, Nat.le_of_lt hword, (htyped.append hattributed).1.lastStop_le,
        h.toSound.isBoundary_offset, hnamed.steady.boundary⟩
    · rw [hspan]
      exact hword
    · rw [hspan]
      exact hrow.mono (Nat.le_trans hnamed.steady.lastStop_le htyped.1.le)
  have hbegun : start < attributed.offset := hopened.start_lt
  apply Prog.Gives.bind (gives_eat .slash)
  rintro closed slashed (⟨rfl, hslash, rfl⟩ | ⟨rfl, -, rfl⟩)
  · rw [if_pos rfl]
    have hslashed := State.Walked.advance hattributed.1.steady .code
    apply Prog.Gives.bind (gives_endTag between hslashed.steady)
    rintro _ ended ⟨hended, hend, -⟩
    apply Prog.Gives.bind (gives_spanFrom start)
    rintro opening last ⟨rfl, rfl⟩
    exact ⟨hopened.nested_single hslash hslashed hend hended.steady.boundary hgood,
      Nat.lt_trans (Nat.lt_of_lt_of_le hbegun hslashed.le) hend⟩
  · rw [if_neg Bool.false_ne_true]
    apply Prog.Gives.bind (gives_endTag true hattributed.1.steady)
    rintro _ ended ⟨hended, -, hgreater, hchild⟩
    apply Prog.Gives.bind (gives_spanFrom start)
    rintro opening opened ⟨rfl, rfl⟩
    apply Prog.Gives.bind (pieces_callChildren hf c hended.steady)
    rintro children inner ⟨hchildren, hrun⟩
    refine Prog.Gives.bind gives_here ?_
    rintro closingAt a ⟨rfl, rfl⟩
    apply Prog.Gives.bind (gives_closingStart hchildren.1.steady)
    rintro _ begun ⟨hbegins, hbelow, hless, hslash⟩
    apply Prog.Gives.bind (gives_tagName hf c hbegins.steady)
    rintro closingName renamed ⟨hrenamed, hclosingSpan, hclosingWord⟩
    apply Prog.Gives.bind (gives_endTag between hrenamed.steady)
    rintro _ finished ⟨hfinished, hfinish, -⟩
    have hclosing : closingName.span.Within source (a.offset + 1) finished.lastStop := by
      rw [hclosingSpan]
      exact ⟨hbelow, Nat.le_of_lt hclosingWord, hfinished.lastStop_le,
        hbegins.steady.toSound.isBoundary_offset, hrenamed.steady.boundary⟩
    have hdone := hopened.nested_closed hgreater (hchild rfl) hchildren hrun hless hslash hclosing
      (by rw [hclosingSpan]; exact hclosingWord) hfinished.steady.boundary hgood
    have hbefore : start < finished.lastStop :=
      Nat.lt_trans (Nat.lt_of_lt_of_le hbegun (Nat.le_trans hended.le hchildren.1.le))
        (Nat.lt_of_lt_of_le hbelow (Nat.le_trans hrenamed.le (Nat.le_of_lt hfinish)))
    split
    · apply Prog.Gives.bind (gives_spanFrom a.offset)
      rintro span last ⟨rfl, rfl⟩
      exact ⟨hdone, hbefore⟩
    · refine Prog.Gives.bind (gives_reportAt _ _) ?_
      rintro _ told rfl
      apply Prog.Gives.bind (gives_spanFrom a.offset)
      rintro span last ⟨rfl, rfl⟩
      exact ⟨hdone, hbefore⟩

theorem nested_elementRule (hf : Finds source good use) (hgood : Suits source use good) (c : Ctx)
    (between : Bool) (h : st.Steady source) :
    (elementRule c between).Gives use st fun piece next =>
      Nested good st.offset next.offset [piece] ∧ st.offset < next.lastStop := by
  refine Prog.Gives.bind gives_here ?_
  rintro start first ⟨rfl, rfl⟩
  apply Prog.Gives.bind (gives_expect .less)
  rintro _ next ⟨rfl, hless⟩
  have hnext := State.Walked.advance h .code
  have hlt := State.offset_lt_advance h.toSound hless .code
  refine Prog.Gives.bind gives_kind ?_
  rintro k next ⟨-, rfl⟩
  split
  · refine (pieces_fragmentRest hf c.enclosed between hnext.steady).imp ?_
    rintro piece last ⟨hlast, hnested⟩
    have hstop : first.offset < last.lastStop :=
      Nat.lt_of_lt_of_le (h.solid.lt_stop hless) hlast.lastStop_le
    exact ⟨hnested.mono hnext.le (Nat.le_refl _), hstop⟩
  · split
    · have hrest := nested_elementRest hf hgood c.enclosed between hnext.steady hlt
        (State.exists_behind_less h hless)
      refine ((goes hf _ hnext.steady).and hrest).imp ?_
      rintro piece last ⟨hlast, hnested, hstop⟩
      exact ⟨hnested.mono (Nat.le_refl _) hlast.steady.lastStop_le, hstop⟩
    · trivial

end Programs

/-! ## The whole grammar -/

/-- What is known of an element of a source: its tags are placed and were read there, and what stands
between them is what the rule for that gives. -/
structure Known (source : Text) (element : Tag × List Markup) : Prop where
  placed : element.1.Placed source
  read : TagRead source element.1
  way : ∃ fuel, ∃ o : Opening, o.Read source (runRule grammar fuel) element.1.span.start ∧
    o.Gave element.1
  between : ∀ closing, element.1.closing = some closing → ∃ fuel c st next,
    ReadBetween source (runRule grammar fuel) element.1 closing element.2 c st next

/-- All rules find elements as they should, however deep they are nested. -/
theorem finds_runRule (source : Text) (fuel : Nat) :
    Finds source (Known source) (runRule grammar fuel) := by
  have hknown : ∀ fuel, Suits source (runRule grammar fuel) (Known source) :=
    fun fuel _ _ hplaced hread hway hbetween =>
      ⟨hplaced, hread, ⟨fuel, hway⟩, fun closing hclosing => ⟨fuel, hbetween closing hclosing⟩⟩
  induction fuel with
  | zero => exact ⟨behaves_runRule source 0, fun _ _ _ _ => trivial, fun _ _ _ _ => trivial,
      fun _ _ _ => trivial, fun _ _ _ => trivial⟩
  | succ fuel ih =>
    exact ⟨behaves_runRule source (fuel + 1), fun c r st h => goes ih (grammar c r) h,
      fun c between st h => nested_elementRule ih (hknown fuel) c between h,
      fun c st h => (pieces_childrenRule ih c h).imp fun _ _ hpieces => hpieces.2,
      fun c st h => gives_attributesRule ih c h⟩

/-- **Elements are nested.** Of two elements of a script the later one stands behind the other one or
within it, and all is known of them. -/
theorem nested_parse {typed : Bool} {source : Text} {markup : List Markup}
    (h : parse typed source = .ok markup) :
    Nested (Known source) 0 (byteLength source) markup := by
  obtain ⟨a, last, hdone, rfl⟩ := exists_done_of_parse h
  have hwent := (goes (finds_runRule source (depthFor source.length)) (script typed)
    (State.steady_start source)).of_done hdone
  obtain ⟨new, hnew, hnested⟩ := hwent.found
  have hfound : last.found = new := hnew.trans (List.append_nil new)
  rw [hfound]
  exact hnested.mono (Nat.zero_le _) hwent.steady.toSound.offset_le

end Retouch.Script
