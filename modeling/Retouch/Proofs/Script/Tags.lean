import Retouch.Proofs.Script.DocumentOrder
import Retouch.Proofs.Script.Solid

/-!
# Where the parts of a tag stand

The spans that are noted for an element are parts of its source in the order in which they are
written, and elements are nested or apart. The main statement is `nested_parse`.

* `Tag.Placed` - what holds of the spans of one element.
* `TagRead` - how the name and the end of an opening tag were read.
* `Opening.Read` - the whole way of the reader through an opening tag.
* `ReadBetween` - how what stands between two tags was read.
* `Nested` - what holds of all elements of a part of a source.

`Behaves` says where elements begin; for where they end it has to be known where the token before the
current one ended (`State.Steady`), and for the attributes where each of them stands (`InRow`).
-/

namespace Retouch

open Text

/-- Whether a span is a part of a text from `low` up to `high`. -/
structure Span.Within (source : Text) (low high : Nat) (span : Span) : Prop where
  low_le : low ≤ span.start
  le : span.start ≤ span.stop
  le_high : span.stop ≤ high
  start : isBoundary source span.start = true
  stop : isBoundary source span.stop = true

theorem Span.Within.mono {source : Text} {low high low' high' : Nat} {span : Span}
    (h : span.Within source low high) (hlow : low' ≤ low) (hhigh : high ≤ high') :
    span.Within source low' high' :=
  ⟨Nat.le_trans hlow h.low_le, h.le, Nat.le_trans h.le_high hhigh, h.start, h.stop⟩

/-- Whether the parts of an element stand in order: the sign that begins its opening tag, the name,
the style attribute, the place for a new attribute, the end of the opening tag and the closing tag. -/
structure Tag.Placed (source : Text) (tag : Tag) : Prop where
  opening : tag.opening.Within source tag.span.start tag.span.stop
  opens : tag.opening.start = tag.span.start
  nameSpan : tag.nameSpan.Within source (tag.span.start + 1) tag.insertAt
  named : tag.nameSpan.start < tag.nameSpan.stop
  style : ∀ style, tag.style = some style →
    style.span.Within source tag.nameSpan.stop tag.insertAt ∧
      ∀ value, style.value = some value → value.Within source style.span.start style.span.stop
  insertAt : isBoundary source tag.insertAt = true
  insertAt_lt : tag.insertAt < tag.opening.stop
  single : tag.closing = none → tag.span.stop = tag.opening.stop
  closing : ∀ closing, tag.closing = some closing →
    closing.span.Within source tag.opening.stop tag.span.stop ∧
      closing.span.stop = tag.span.stop ∧
      closing.name.Within source (closing.span.start + 1) closing.span.stop ∧
      closing.name.start < closing.name.stop

namespace Script

open Cursor

/-! ## Elements in a part of a source -/

/-- Whether elements stand at offsets from `low` up to `high`, each of them behind or within any that
comes before it in document order. All of them are `good`. -/
structure Nested (good : Tag × List Markup → Prop) (low high : Nat) (found : List Markup) : Prop where
  nested : (Markup.elementsOfAll found).Pairwise fun element later =>
    element.1.span.stop ≤ later.1.span.start ∨ later.1.span.stop ≤ element.1.span.stop
  within : ∀ element ∈ Markup.elementsOfAll found,
    low ≤ element.1.span.start ∧ element.1.span.stop ≤ high
  good : ∀ element ∈ Markup.elementsOfAll found, good element

namespace Nested

variable {good : Tag × List Markup → Prop} {low middle high : Nat} {found more : List Markup}

theorem nil (low high : Nat) : Nested good low high [] := by
  constructor <;> simp [Markup.elementsOfAll]

/-- Only the elements matter. -/
theorem congr (h : Nested good low high found)
    (hsame : Markup.elementsOfAll more = Markup.elementsOfAll found) : Nested good low high more :=
  ⟨hsame ▸ h.nested, hsame ▸ h.within, hsame ▸ h.good⟩

theorem mono {low' high' : Nat} (h : Nested good low high found) (hlow : low' ≤ low)
    (hhigh : high ≤ high') : Nested good low' high' found := by
  refine ⟨h.nested, ?_, h.good⟩
  intro element helement
  have := h.within element helement
  omega

/-- Elements of one part of a source and those of the part behind it. -/
theorem append (hfound : Nested good low middle found) (hmore : Nested good middle high more)
    (hlow : low ≤ middle) (hhigh : middle ≤ high) : Nested good low high (found ++ more) := by
  constructor
  · rw [Markup.elementsOfAll_append, List.pairwise_append]
    refine ⟨hfound.nested, hmore.nested, ?_⟩
    intro element helement later hlater
    have := hfound.within element helement
    have := hmore.within later hlater
    omega
  · intro element helement
    rw [Markup.elementsOfAll_append, List.mem_append] at helement
    rcases helement with helement | helement
    · have := hfound.within element helement
      omega
    · have := hmore.within element helement
      omega
  · intro element helement
    rw [Markup.elementsOfAll_append, List.mem_append] at helement
    rcases helement with helement | helement
    · exact hfound.good element helement
    · exact hmore.good element helement

/-- An element around others. -/
theorem element {tag : Tag} {inside children : List Markup}
    (h : Nested good middle high (inside ++ children)) (hbegin : tag.span.start ≤ middle)
    (hend : high ≤ tag.span.stop) (hgood : good (tag, children)) :
    Nested good tag.span.start tag.span.stop [.element tag inside children] := by
  have helements : Markup.elementsOfAll [.element tag inside children]
      = (tag, children) :: Markup.elementsOfAll (inside ++ children) := by
    simp [Markup.elementsOfAll, Markup.elements, Markup.elementsOfAll_append]
  constructor
  · rw [helements, List.pairwise_cons]
    refine ⟨?_, h.nested⟩
    intro later hlater
    have := h.within later hlater
    exact .inr (by show later.1.span.stop ≤ tag.span.stop; omega)
  · rw [helements]
    intro element helement
    rcases List.mem_cons.1 helement with rfl | helement
    · exact ⟨Nat.le_refl _, Nat.le_refl _⟩
    · have := h.within element helement
      omega
  · rw [helements]
    intro element helement
    rcases List.mem_cons.1 helement with rfl | helement
    · exact hgood
    · exact h.good element helement

end Nested

/-! ## Attributes in a row -/

/-- Whether attributes stand one behind the other from `low` up to `high`, with their values in
them. -/
structure InRow (source : Text) (low high : Nat) (attributes : List Attribute) : Prop where
  increasing : attributes.Pairwise fun a later => a.span.stop ≤ later.span.start
  within : ∀ a ∈ attributes, a.span.Within source low high ∧
    ∀ value, a.value = some value → value.Within source a.span.start a.span.stop

namespace InRow

variable {source : Text} {low middle high : Nat} {first : Attribute} {attributes : List Attribute}

theorem nil (low high : Nat) : InRow source low high [] := by
  constructor <;> simp

theorem cons (hfirst : first.span.Within source low middle)
    (hvalue : ∀ value, first.value = some value →
      value.Within source first.span.start first.span.stop)
    (h : InRow source middle high attributes) (hhigh : middle ≤ high) :
    InRow source low high (first :: attributes) := by
  have hlow : low ≤ middle := Nat.le_trans (Nat.le_trans hfirst.low_le hfirst.le) hfirst.le_high
  constructor
  · rw [List.pairwise_cons]
    exact ⟨fun a ha => Nat.le_trans hfirst.le_high (h.within a ha).1.low_le, h.increasing⟩
  · intro a ha
    rcases List.mem_cons.1 ha with rfl | ha
    · exact ⟨hfirst.mono (Nat.le_refl _) hhigh, hvalue⟩
    · obtain ⟨hspan, hin⟩ := h.within a ha
      exact ⟨hspan.mono hlow (Nat.le_refl _), hin⟩

theorem mono {low' : Nat} (h : InRow source low high attributes) (hlow : low' ≤ low) :
    InRow source low' high attributes :=
  ⟨h.increasing, fun a ha => ⟨(h.within a ha).1.mono hlow (Nat.le_refl _), (h.within a ha).2⟩⟩

/-- Every attribute ends before the last one does. -/
theorem stop_le_of_getLast? {last a : Attribute} (h : InRow source low high attributes)
    (hlast : attributes.getLast? = some last) (ha : a ∈ attributes) :
    a.span.stop ≤ last.span.stop := by
  obtain ⟨before, rfl⟩ := List.getLast?_eq_some_iff.1 hlast
  rcases List.mem_append.1 ha with ha | ha
  · have hbehind := (List.pairwise_append.1 h.increasing).2.2 a ha last (by simp)
    exact Nat.le_trans hbehind (h.within last (by simp)).1.le
  · obtain rfl := List.mem_singleton.1 ha
    exact Nat.le_refl _

end InRow

/-- Where attributes end that stand behind an offset. -/
def attributesEnd (start : Nat) (attributes : List Attribute) : Nat :=
  match attributes.getLast? with
  | some last => last.span.stop
  | none => start

theorem attributesEnd_cons (start : Nat) (first : Attribute) (attributes : List Attribute) :
    attributesEnd start (first :: attributes) = attributesEnd first.span.stop attributes := by
  cases attributes <;> simp [attributesEnd, List.getLast?_cons]

/-! ## States -/

/-- Whether a token is the next one behind a cursor, wherever that stands and however often the token
was read again. -/
inductive Scanned.ReadAt (c : Cursor) : Scanned → Prop where
  | scan (place : Place) : ReadAt c (scan place c)
  | rescan {s : Scanned} (how : Rescan) (h : ReadAt c s) : ReadAt c (rescan how s)

/-- Whether a token is the next one behind an offset of a source. -/
def TokenAt (source : Text) (offset : Nat) (s : Scanned) : Prop :=
  ∃ before rest, source = before ++ rest ∧ byteLength before = offset ∧ s.ReadAt ⟨rest, offset⟩

namespace State

/-- Whether a state is one of reading a source: the end of the token before the current one stands in
it, too, and behind that the current one was read. -/
structure Steady (source : Text) (st : State) : Prop extends st.Sound source where
  solid : st.current.Solid
  lastStop_le : st.lastStop ≤ st.offset
  boundary : isBoundary source st.lastStop = true
  /-- At the beginning there is no token before the current one. -/
  read : st.lastStop ≠ 0 → TokenAt source st.lastStop st.current

/-- What may become of a state: the reader has moved on, and the elements found meanwhile stand in the
text between. -/
structure Went (source : Text) (good : Tag × List Markup → Prop) (st next : State) : Prop where
  steady : next.Steady source
  le : st.offset ≤ next.offset
  lastStop_le : st.lastStop ≤ next.lastStop
  found : ∃ new, next.found = new ++ st.found ∧ Nested good st.offset next.offset new.reverse

/-- The reader has moved on and found nothing. -/
structure Walked (source : Text) (st next : State) : Prop where
  steady : next.Steady source
  le : st.offset ≤ next.offset
  lastStop_le : st.lastStop ≤ next.lastStop
  found : next.found = st.found

variable {source : Text} {good : Tag × List Markup → Prop} {st next last : State}

/-- The current token begins at a place of the source. -/
theorem Sound.isBoundary_offset (h : st.Sound source) : isBoundary source st.offset = true := by
  obtain ⟨used, hsource, hoffset⟩ := h.reached
  refine isBoundary_iff.2 ⟨used, st.current.atToken, hsource.symm, ?_⟩
  have hoffset' : st.offset = 0 + byteLength used := hoffset
  omega

/-- The current token ends at a place of the source. -/
theorem Sound.isBoundary_stop (h : st.Sound source) :
    isBoundary source st.current.token.stop = true := by
  obtain ⟨used, hsource, hoffset⟩ := h.reached.trans h.token.leadsTo
  refine isBoundary_iff.2 ⟨used, st.current.behind, hsource.symm, ?_⟩
  have hoffset' : st.current.token.stop = 0 + byteLength used := hoffset
  omega

theorem Walked.refl (h : st.Steady source) : st.Walked source st :=
  ⟨h, Nat.le_refl _, Nat.le_refl _, rfl⟩

theorem Walked.trans (h : st.Walked source next) (hlast : next.Walked source last) :
    st.Walked source last :=
  ⟨hlast.steady, Nat.le_trans h.le hlast.le, Nat.le_trans h.lastStop_le hlast.lastStop_le,
    hlast.found.trans h.found⟩

theorem Went.of_walked (h : st.Walked source next) : st.Went source good next :=
  ⟨h.steady, h.le, h.lastStop_le, [], h.found, .nil _ _⟩

theorem Went.trans (h : st.Went source good next) (hlast : next.Went source good last) :
    st.Went source good last := by
  obtain ⟨new, hnew, hnested⟩ := h.found
  obtain ⟨newer, hnewer, hnested'⟩ := hlast.found
  refine ⟨hlast.steady, Nat.le_trans h.le hlast.le, Nat.le_trans h.lastStop_le hlast.lastStop_le,
    newer ++ new, ?_, ?_⟩
  · rw [hnewer, hnew, List.append_assoc]
  · rw [List.reverse_append]
    exact hnested.append hnested' h.le hlast.le

/-- Only the tokens matter. -/
theorem Steady.congr (h : st.Steady source) (hcurrent : next.current = st.current)
    (hlast : next.lastStop = st.lastStop) : next.Steady source := by
  have hoffset : next.offset = st.offset := by rw [offset, offset, hcurrent]
  constructor
  · exact ⟨hcurrent ▸ h.reached, hcurrent ▸ h.token⟩
  · exact hcurrent ▸ h.solid
  · rw [hlast, hoffset]
    exact h.lastStop_le
  · exact hlast ▸ h.boundary
  · rw [hlast, hcurrent]
    exact h.read

/-- Nothing has happened that concerns the tokens. -/
theorem Walked.of_eq (h : st.Steady source) (hcurrent : next.current = st.current)
    (hlast : next.lastStop = st.lastStop) (hfound : next.found = st.found) :
    st.Walked source next := by
  have hoffset : next.offset = st.offset := by rw [offset, offset, hcurrent]
  exact ⟨h.congr hcurrent hlast, Nat.le_of_eq hoffset.symm, Nat.le_of_eq hlast.symm, hfound⟩

/-- The token behind the current one is read there. -/
theorem tokenAt_advance (h : st.Sound source) (place : Place) :
    TokenAt source (st.advance place).lastStop (st.advance place).current := by
  obtain ⟨before, hsource, hoffset⟩ := h.reached.trans h.token.leadsTo
  have hstop : st.current.token.stop = 0 + byteLength before := hoffset
  refine ⟨before, st.current.behind, hsource, ?_, .scan place⟩
  show byteLength before = st.current.token.stop
  omega

/-- The reader moves on behind the current token. -/
theorem Walked.advance (h : st.Steady source) (place : Place) :
    st.Walked source (st.advance place) := by
  have hpassed := Passed.advance h.toSound place
  have hstop : st.offset ≤ st.current.token.stop := h.token.leadsTo.offset_le
  exact ⟨⟨hpassed.sound, Scanned.solid_scan place _,
    (Scanned.leadsTo_scan place st.current.after).offset_le, h.toSound.isBoundary_stop,
    fun _ => tokenAt_advance h.toSound place⟩, hpassed.le, Nat.le_trans h.lastStop_le hstop, rfl⟩

theorem Walked.reread (h : st.Steady source) (how : Rescan) :
    st.Walked source (st.reread how) := by
  have hpassed := Passed.reread h.toSound how
  have hstop := Nat.le_trans h.lastStop_le hpassed.le
  refine ⟨⟨hpassed.sound, Scanned.solid_rescan how h.solid, hstop, h.boundary, ?_⟩, hpassed.le,
    Nat.le_refl _, rfl⟩
  intro hlast
  obtain ⟨before, rest, hsource, hlength, hread⟩ := h.read hlast
  exact ⟨before, rest, hsource, hlength, hread.rescan how⟩

/-- What is read behind the sign that begins a tag. -/
theorem exists_behind_less (h : st.Steady source) (hless : st.current.token.kind = .punct .less) :
    ∃ before rest, source = before ++ '<' :: rest ∧ byteLength before = st.offset ∧
      (st.advance .code).current = scan .code ⟨rest, st.offset + 1⟩ := by
  obtain ⟨before, hbefore, hoffset⟩ := h.reached
  obtain ⟨hrest, hstop⟩ := h.solid.mark .less hless
  refine ⟨before, st.current.behind, hbefore.trans (congrArg (before ++ ·) hrest), ?_, ?_⟩
  · simpa [offset, Scanned.here, eq_comm] using hoffset
  · have hafter : st.current.after = ⟨st.current.behind, st.offset + 1⟩ :=
      congrArg (Cursor.mk st.current.behind) hstop
    exact congrArg (scan .code) hafter

/-- Reading begins in a steady state. -/
theorem steady_start (source : Text) : (State.start source).Steady source :=
  ⟨sound_start source, Scanned.solid_scan .code _, Nat.zero_le _, by simp [State.start, isBoundary],
    fun hlast => absurd rfl hlast⟩

end State

/-- The word that is the next thing behind a cursor in a tag, hyphens included. -/
def wordAt (c : Cursor) : Scanned := rescan .hyphens (scan .code c)

/-- How a name that is no member of another is read: one word, or two of them with a colon between. -/
inductive NameRead (c : Cursor) : Text → Span → Prop where
  | word {word : Text} : (wordAt c).token.kind.word? = some word →
      (scan .code (wordAt c).after).token.kind ≠ .punct .colon →
      NameRead c word ⟨(wordAt c).token.start, (wordAt c).token.stop⟩
  | namespaced {word tail : Text} : (wordAt c).token.kind.word? = some word →
      (scan .code (wordAt c).after).token.kind = .punct .colon →
      (wordAt (scan .code (wordAt c).after).after).token.kind.word? = some tail →
      NameRead c (word ++ ':' :: tail)
        ⟨(wordAt c).token.start, (wordAt (scan .code (wordAt c).after).after).token.stop⟩

/-- What the token behind the attributes of an opening tag can be, or that behind its name if it has
none: the beginning of type arguments, the slash of a tag that is all of its element, or the end of
another one. -/
inductive EndsWith (tag : Tag) (s : Scanned) : Prop where
  | types : s.token.kind = .punct .less ∨ s.token.kind = .punct .shiftLeft → EndsWith tag s
  | single : tag.closing = none → s.token.kind = .punct .slash → EndsWith tag s
  | opening : tag.closing ≠ none → s.token.kind = .punct .greater →
      s.token.stop = tag.opening.stop → EndsWith tag s

/-- How an opening tag was read: its name behind its sign, and its end behind its attributes. -/
structure TagRead (source : Text) (tag : Tag) : Prop where
  name : ∃ before rest, source = before ++ '<' :: rest ∧ byteLength before = tag.span.start ∧
    ∀ word, tag.name = some word → NameRead ⟨rest, tag.span.start + 1⟩ word tag.nameSpan
  ends : ∃ s, TokenAt source tag.insertAt s ∧ s.Solid ∧ EndsWith tag s

/-- The way of the reader through an opening tag, and what it gave. -/
structure Opening where
  c : Ctx
  /-- Behind the sign of the tag. -/
  begun : State
  name : TagName
  named : State
  /-- Behind the type arguments, if there are any. -/
  typed : State
  attributes : List Attribute
  ended : State

/-- Whether an opening tag that begins at `start` was read in a way: its name by the rule for names, and
its attributes, behind the name or type arguments there, by the rule for those. -/
structure Opening.Read (source : Text) (use : Use) (start : Nat) (o : Opening) : Prop where
  steady : o.begun.Steady source
  begins : ∃ before rest, source = before ++ '<' :: rest ∧ byteLength before = start ∧
    o.begun.current = scan .code ⟨rest, start + 1⟩
  name : (tagName o.c).run use o.begun = .done o.name o.named
  typed : ∃ inTypes, (elementRest.typeArgumentsOfTag o.c).run use o.named = .done inTypes o.typed
  attributes : use o.c .attributes { o.typed with found := [] } = .done o.attributes o.ended

/-- Whether a tag is what was read in a way, with the end that stands behind its attributes. -/
structure Opening.Gave (o : Opening) (tag : Tag) : Prop where
  name : tag.name = o.name.intrinsic
  nameSpan : tag.nameSpan = o.name.span
  style : tag.style = lastStyle o.attributes
  insertAt : tag.insertAt = insertionPoint o.name o.attributes
  ends : tag.closing = none ∧ o.ended.current.token.kind = .punct .slash ∨
    tag.closing ≠ none ∧ o.ended.current.token.kind = .punct .greater

/-- How what stands between two tags was read: from the piece behind the opening tag up to the sign that
begins the closing tag, with a slash behind it. -/
structure ReadBetween (source : Text) (use : Use) (tag : Tag) (closing : ClosingTag)
    (children : List Markup) (c : Ctx) (st next : State) : Prop where
  steady : st.Steady source
  current : ∃ rest, st.current = scanChild ⟨rest, tag.opening.stop⟩
  run : use c .children st = .done children next
  behind : next.offset = closing.span.start
  less : next.current.token.kind = .punct .less
  slash : (scan .code next.current.after).token.kind = .punct .slash

/-! ## All programs -/

/-- What rules do to the state of the reader, and what those give that belong to markup. -/
structure Finds (source : Text) (good : Tag × List Markup → Prop) (use : Use) : Prop where
  behaves : Behaves source use
  goes : ∀ c r st, st.Steady source → (use c r st).Gives fun _ next => st.Went source good next
  element : ∀ c between st, st.Steady source →
    (use c (.element between) st).Gives fun piece next =>
      Nested good st.offset next.offset [piece] ∧ st.offset < next.lastStop
  children : ∀ c st, st.Steady source →
    (use c .children st).Gives fun pieces next => Nested good st.offset next.offset pieces
  attributes : ∀ c st, st.Steady source →
    (use c .attributes st).Gives fun attributes next =>
      InRow source st.offset next.lastStop attributes ∧
        next.lastStop = attributesEnd st.lastStop attributes

section Goes

variable {source : Text} {good : Tag × List Markup → Prop} {use : Use} {st : State}

/-- What a rule gives and finds while it is used to gather. -/
theorem gives_gather_of {c : Ctx} {r : Rule} {post : r.Result → State → Prop}
    (h : (use c r { st with found := [] }).Gives post) :
    (gather c r).Gives use st fun answer next =>
      ∃ inner, post answer.1 inner ∧ answer.2 = inner.found.reverse ∧
        next = { inner with found := st.found } :=
  Prog.Gives.gather (h.imp fun _ inner hinner => ⟨inner, hinner, rfl, rfl⟩)

/-- Gathering finds nothing for the state, and gives what a rule found. -/
theorem gives_gathered (hf : Finds source good use) {c : Ctx} {r : Rule} (h : st.Steady source)
    {post : r.Result → State → Prop} (hpost : (use c r { st with found := [] }).Gives post) :
    (gather c r).Gives use st fun answer next =>
      st.Walked source next ∧ Nested good st.offset next.offset answer.2 ∧
        ∃ inner, post answer.1 inner ∧ inner.lastStop = next.lastStop ∧
          inner.current = next.current := by
  have hsteady : State.Steady source { st with found := [] } := h.congr rfl rfl
  refine (gives_gather_of ((hf.goes c r _ hsteady).and hpost)).imp ?_
  rintro answer next ⟨inner, ⟨hwent, hinner⟩, hfound, rfl⟩
  obtain ⟨new, hnew, hnested⟩ := hwent.found
  have hnew' : inner.found = new := by simpa using hnew
  refine ⟨⟨hwent.steady.congr rfl rfl, hwent.le, hwent.lastStop_le, rfl⟩, ?_, inner, hinner, rfl,
    rfl⟩
  rw [hfound, hnew']
  exact hnested

theorem goes_emitElement (hf : Finds source good use) (c : Ctx) (h : st.Steady source) :
    (emitElement c).Gives use st fun _ next =>
      st.Went source good next ∧ st.offset < next.lastStop := by
  have hpiece := ((hf.goes c (.element false) st h).and (hf.element c false st h)).and
    (hf.behaves.element c false st h.toSound)
  refine Prog.Gives.emitElement (hpiece.imp ?_)
  rintro piece inner ⟨⟨hwent, hnested, hlt⟩, hfound, -⟩
  exact ⟨⟨hwent.steady.congr rfl rfl, hwent.le, hwent.lastStop_le, [piece],
    congrArg (piece :: ·) hfound, hnested⟩, hlt⟩

theorem goes_attempt (hf : Finds source good use) (c : Ctx) (r : Rule) (h : st.Steady source) :
    (attempt c r).Gives use st fun _ next => st.Went source good next :=
  Prog.Gives.attempt (hf.goes c r st h) fun _ => .of_walked (.of_eq h rfl rfl rfl)

/-- One step of a program. -/
theorem goes_perform (hf : Finds source good use) (op : Op) (h : st.Steady source) :
    (perform op).Gives use st fun _ next => st.Went source good next := by
  cases op with
  | call c r => exact Prog.Gives.call (hf.goes c r st h)
  | attempt c r => exact goes_attempt hf c r h
  | gather c r =>
    have hall : (use c r { st with found := [] }).Gives fun _ _ => True := by
      cases use c r { st with found := [] } <;> trivial
    exact (gives_gathered hf h hall).imp fun _ _ hnext => .of_walked hnext.1
  | emitElement c => exact (goes_emitElement hf c h).imp fun _ _ hnext => hnext.1
  | advance place => exact .of_walked (.advance h place)
  | reread how => exact .of_walked (.reread h how)
  | _ => exact .of_walked (.of_eq h rfl rfl rfl)

/-- **Programs move on.** Where a program is done, the elements that it found stand between the place
where it began and the one where the reader stands. -/
theorem goes {α : Type} (hf : Finds source good use) (p : Prog α) (h : st.Steady source) :
    p.Gives use st fun _ next => st.Went source good next := by
  induction p generalizing st with
  | done a => exact .of_walked (.refl h)
  | stop d => trivial
  | step op next ih =>
    show ((perform op).bind next).Gives use st _
    apply Prog.Gives.bind (goes_perform hf op h)
    intro answer middle hmiddle
    exact (ih answer hmiddle.steady).imp fun _ last hlast => hmiddle.trans hlast

/-- A program that adds nothing to what was found. -/
theorem walks {α : Type} {p : Prog α} (hp : p.Moves source use) (hf : Finds source good use)
    (h : st.Steady source) : p.Gives use st fun _ next => st.Walked source next :=
  ((goes hf p h).and (hp st h.toSound)).imp fun _ _ hnext =>
    ⟨hnext.1.steady, hnext.1.le, hnext.1.lastStop_le, hnext.2.found⟩

end Goes

end Script

end Retouch
