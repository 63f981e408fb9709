import Retouch.Edit.Patches
import Retouch.Proofs.Patch.Apart
import Retouch.Proofs.Site.Spans

/-!
# The patches of one element

The patches that write an edit into an element stand apart in the element, behind the sign with which
it begins (`inside_patches`), so they can always be applied. They depend on the text of the element and
not on where that stands: in another source they are the same patches, moved (`patches_moved`).
-/

namespace Retouch

open Text Script

/-- The bytes that a patch replaces. -/
def Patch.span (p : Patch) : Span := ⟨p.start, p.stop⟩

/-- Whether a span ends before another one begins, and begins before it. -/
def Span.Precedes (span later : Span) : Prop := span.stop ≤ later.start ∧ span.start < later.start

theorem Patch.inside_of_within {source : Text} {low high : Nat} {own : List Patch}
    (hapart : own.Pairwise Apart) (hwithin : ∀ p ∈ own, p.span.Within source (low + 1) high) :
    Inside source low high own where
  apart := hapart
  lt_start p hp := (hwithin p hp).low_le
  forward p hp := (hwithin p hp).le
  stop_le p hp := (hwithin p hp).le_high
  boundary p hp := ⟨(hwithin p hp).start, (hwithin p hp).stop⟩

/-! ## Where the patches stand -/

namespace Text

/-- What is trimmed at its end begins the text. -/
theorem exists_trimEnd_append (t : Text) : ∃ blanks, trimEnd t ++ blanks = t := by
  induction t with
  | nil => exact ⟨[], rfl⟩
  | cons c t ih =>
    obtain ⟨blanks, hblanks⟩ := ih
    rw [trimEnd_cons]
    split
    · exact ⟨c :: t, rfl⟩
    · exact ⟨blanks, congrArg (c :: ·) hblanks⟩

theorem exists_withoutTail_append (tail t : Text) : ∃ rest, withoutTail tail t ++ rest = t := by
  unfold withoutTail
  split
  · exact ⟨_, List.take_append_drop _ _⟩
  · exact ⟨[], List.append_nil t⟩

end Text

/-- An opening tag does not end with its first sign. -/
theorem Tag.Placed.lt_opening_stop {source : Text} {tag : Tag} (h : tag.Placed source) :
    tag.span.start < tag.opening.stop := by
  have := h.nameSpan.low_le
  have := h.nameSpan.le
  have := h.nameSpan.le_high
  have := h.insertAt_lt
  omega

/-- The place for a new attribute is in the element. -/
theorem Tag.Placed.insertAt_le {source : Text} {tag : Tag} (h : tag.Placed source) :
    tag.insertAt ≤ tag.span.stop := Nat.le_trans (Nat.le_of_lt h.insertAt_lt) h.opening.le_high

/-- An element is not empty. -/
theorem Tag.Placed.lt_stop {source : Text} {tag : Tag} (h : tag.Placed source) :
    tag.span.start < tag.span.stop := Nat.lt_of_lt_of_le h.lt_opening_stop h.opening.le_high

namespace Site

variable {source : Text} {site : Site}

/-- The head of a tag begins the tag. -/
theorem exists_head_append (site : Site) (source : Text) :
    ∃ rest, site.head source ++ rest = site.tag.opening.slice source := by
  obtain ⟨blanks, hblanks⟩ := exists_trimEnd_append
    (withoutTail ['/', '>'] (site.tag.opening.slice source))
  obtain ⟨rest, hrest⟩ := exists_withoutTail_append ['/', '>'] (site.tag.opening.slice source)
  refine ⟨blanks ++ rest, ?_⟩
  rw [head, ← List.append_assoc, hblanks, hrest]

/-- The head of a tag holds its first sign. -/
theorem byteLength_head_pos {rest : Text} (h : site.tag.opening.slice source = '<' :: rest) :
    0 < byteLength (site.head source) := by
  have hless : isBlank '<' = false := by decide
  have hhead : ∀ t : Text, trimEnd ('<' :: t) = '<' :: trimEnd t := fun t => by
    rw [trimEnd_cons, hless, Bool.and_false, if_neg (by decide)]
  have hbegins : ∃ t, withoutTail ['/', '>'] ('<' :: rest) = '<' :: t := by
    unfold withoutTail
    split
    · next hsuffix =>
      obtain ⟨before, hbefore⟩ := List.isSuffixOf_iff_suffix.1 hsuffix
      -- The tag is longer than its end, for it begins with another sign.
      cases before with
      | nil => simp at hbefore
      | cons c before =>
        obtain ⟨rfl, rfl⟩ := List.cons.inj hbefore
        exact ⟨before, by simp⟩
    · exact ⟨rest, rfl⟩
  obtain ⟨t, ht⟩ := hbegins
  rw [head, h, ht, hhead, byteLength_cons]
  exact Nat.add_pos_left ('<'.utf8Size_pos) _

/-- The span of an opening tag holds the tag, which begins with its sign. -/
theorem exists_slice_opening (hplaced : site.tag.Placed source)
    (hopens : ∃ before rest, source = before ++ '<' :: rest ∧ byteLength before = site.anchor) :
    ∃ before rest behind, source = before ++ ('<' :: rest ++ behind) ∧
      byteLength before = site.tag.opening.start ∧
      site.tag.opening.start + byteLength ('<' :: rest) = site.tag.opening.stop ∧
      site.tag.opening.slice source = '<' :: rest := by
  obtain ⟨before, tail, hsource, hbefore⟩ := hopens
  have hstart : byteLength before = site.tag.opening.start := hbefore.trans hplaced.opens.symm
  obtain ⟨toStop, behind, hcut, hstop⟩ := isBoundary_iff.1 hplaced.opening.stop
  have hforward : site.tag.opening.start < site.tag.opening.stop := by
    rw [hplaced.opens]
    exact hplaced.lt_opening_stop
  obtain ⟨tag, rfl, htag⟩ := exists_eq_append_of_byteLength_le (hsource.symm.trans hcut.symm) (by omega)
  rw [byteLength_append] at hstop
  cases tag with
  | nil =>
    rw [byteLength_nil] at hstop
    omega
  | cons c rest =>
    obtain ⟨rfl, rfl⟩ := List.cons.inj htag
    refine ⟨before, rest, behind, hsource, hstart, by omega, ?_⟩
    have hslice := slice_append before ('<' :: rest) behind
    rw [hstart, show site.tag.opening.start + byteLength ('<' :: rest) = site.tag.opening.stop by omega]
      at hslice
    rw [Span.slice, ← hslice, hsource]
    simp

/-- A text is put into the element. -/
theorem textPatch_within (hplaced : site.tag.Placed source)
    (hopens : ∃ before rest, source = before ++ '<' :: rest ∧ byteLength before = site.anchor)
    (t : Text) :
    (site.textPatch source t).span.Within source (site.anchor + 1) site.tag.span.stop := by
  unfold textPatch
  split
  · next span hspan =>
    obtain ⟨closing, hclosing, rfl⟩ := Option.map_eq_some_iff.1 hspan
    have hplace := (hplaced.closing closing hclosing).1
    exact ⟨hplaced.lt_opening_stop, hplace.low_le, Nat.le_trans hplace.le hplace.le_high,
      hplaced.opening.stop, hplace.start⟩
  · obtain ⟨before, rest, behind, hsource, hbefore, hstop, hslice⟩ :=
      exists_slice_opening hplaced hopens
    obtain ⟨tail, htail⟩ := site.exists_head_append source
    have hpos := byteLength_head_pos hslice
    rw [hslice] at htail
    rw [← htail, byteLength_append] at hstop
    have hopens := hplaced.opens
    refine ⟨?_, ?_, hplaced.opening.le_high, ?_, hplaced.opening.stop⟩
    · show site.tag.span.start + 1 ≤ site.tag.opening.start + byteLength (site.head source)
      omega
    · show site.tag.opening.start + byteLength (site.head source) ≤ site.tag.opening.stop
      omega
    · refine isBoundary_iff.2 ⟨before ++ site.head source, tail ++ behind, ?_, ?_⟩
      · generalize site.head source = head at htail
        rw [hsource, ← htail]
        simp
      · rw [byteLength_append, hbefore]
        rfl

/-- A style is put behind the name. -/
theorem stylePatch_within (hplaced : site.tag.Placed source) (value : Text) :
    (site.stylePatch value).span.Within source site.tag.nameSpan.stop site.tag.insertAt := by
  unfold stylePatch
  split
  · next hstyle =>
    obtain ⟨hattribute, hvalue⟩ := hplaced.style _ hstyle
    exact (hvalue _ rfl).mono hattribute.low_le hattribute.le_high
  · next hstyle => exact (hplaced.style _ hstyle).1
  · exact ⟨hplaced.nameSpan.le_high, Nat.le_refl _, Nat.le_refl _, hplaced.insertAt,
      hplaced.insertAt⟩

/-- A name is put in the place of the name in each tag. -/
theorem of_mem_renamePatches {target : Option Text} {p : Patch}
    (hp : p ∈ site.renamePatches target) :
    p.span = site.tag.nameSpan ∨ ∃ closing, site.tag.closing = some closing ∧ p.span = closing.name := by
  unfold renamePatches at hp
  split at hp
  · simp at hp
  · split at hp
    · simp at hp
    · rcases List.mem_cons.1 hp with rfl | hp
      · exact .inl rfl
      · split at hp
        · next closing hclosing => exact .inr ⟨closing, hclosing, by rw [List.mem_singleton.1 hp]; rfl⟩
        · simp at hp

/-- The name in the closing tag stands behind the opening tag. -/
theorem closingName_within (hplaced : site.tag.Placed source) {closing : ClosingTag}
    (hclosing : site.tag.closing = some closing) :
    closing.name.Within source site.tag.opening.stop site.tag.span.stop := by
  obtain ⟨hplace, -, hname, -⟩ := hplaced.closing closing hclosing
  exact hname.mono (Nat.le_succ_of_le hplace.low_le) hplace.le_high

/-- A style stands behind the name in the opening tag. -/
theorem precedes_style (hplaced : site.tag.Placed source) {style : Span}
    (hstyle : style.Within source site.tag.nameSpan.stop site.tag.insertAt) :
    site.tag.nameSpan.Precedes style :=
  ⟨hstyle.low_le, Nat.lt_of_lt_of_le hplaced.named hstyle.low_le⟩

/-- What stands in the opening tag up to the place for a new attribute stands before the name in the
closing tag. -/
theorem precedes_closingName (hplaced : site.tag.Placed source) {closing : ClosingTag}
    (hclosing : site.tag.closing = some closing) {span : Span} {low : Nat}
    (hspan : span.Within source low site.tag.insertAt) : span.Precedes closing.name := by
  have hlast : span.stop < closing.name.start := Nat.lt_of_le_of_lt hspan.le_high
    (Nat.lt_of_lt_of_le hplaced.insertAt_lt (closingName_within hplaced hclosing).low_le)
  exact ⟨Nat.le_of_lt hlast, Nat.lt_of_le_of_lt hspan.le hlast⟩

/-- The name in the opening tag stands before that in the closing tag. -/
theorem pairwise_renamePatches (hplaced : site.tag.Placed source) (target : Option Text) :
    (site.renamePatches target).Pairwise Patch.Apart := by
  unfold renamePatches
  split
  · exact .nil
  · split
    · exact .nil
    · split
      · next closing hclosing =>
        exact List.pairwise_pair.2 (.inl (precedes_closingName hplaced hclosing hplaced.nameSpan))
      · exact List.pairwise_singleton _ _

/-- Names are put behind the first sign of the element. -/
theorem renamePatches_within (hplaced : site.tag.Placed source) {target : Option Text} {p : Patch}
    (hp : p ∈ site.renamePatches target) :
    p.span.Within source (site.anchor + 1) site.tag.span.stop := by
  rcases of_mem_renamePatches hp with hspan | ⟨closing, hclosing, hspan⟩
  · exact hspan ▸ hplaced.nameSpan.mono (Nat.le_refl _) hplaced.insertAt_le
  · exact hspan ▸ (closingName_within hplaced hclosing).mono hplaced.lt_opening_stop (Nat.le_refl _)

/-- The style stands between the names. -/
theorem apart_stylePatch (hplaced : site.tag.Placed source) (value : Text) {target : Option Text}
    {p : Patch} (hp : p ∈ site.renamePatches target) : (site.stylePatch value).Apart p := by
  have hstyle := stylePatch_within hplaced value
  rcases of_mem_renamePatches hp with hspan | ⟨closing, hclosing, hspan⟩
  · have hname := precedes_style hplaced hstyle
    rw [← hspan] at hname
    exact .inr hname
  · have hname := precedes_closingName hplaced hclosing hstyle
    rw [← hspan] at hname
    exact .inl hname

/-- The patches of a style edit are those of the style and those of the names. -/
theorem exists_of_patches_style {edit : StyleEdit} {own : List Patch}
    (h : site.patches source (.style edit) = .ok own) :
    ∃ value target, edit.expression = .ok value ∧ edit.target = .ok target ∧
      own = site.stylePatch value :: site.renamePatches target := by
  unfold patches at h
  dsimp only at h
  split at h
  · cases h
  · next value hvalue =>
    split at h
    · cases h
    · next target htarget => exact ⟨value, target, hvalue, htarget, (Except.ok.inj h).symm⟩

end Site

/-- **The patches of an element stand apart in the element**, behind the sign with which it begins. -/
theorem inside_patches {source : Text} {site : Site} (hplaced : site.tag.Placed source)
    (hopens : ∃ before rest, source = before ++ '<' :: rest ∧ byteLength before = site.anchor)
    {edit : PendingEdit} {own : List Patch} (h : site.patches source edit = .ok own) :
    Patch.Inside source site.anchor site.tag.span.stop own := by
  cases edit with
  | text edit =>
    obtain rfl := Except.ok.inj h
    refine Patch.inside_of_within (List.pairwise_singleton _ _) ?_
    intro p hp
    rw [List.mem_singleton.1 hp]
    exact Site.textPatch_within hplaced hopens edit.text
  | style edit =>
    obtain ⟨value, target, -, -, rfl⟩ := Site.exists_of_patches_style h
    have hnames := Site.pairwise_renamePatches hplaced target
    refine Patch.inside_of_within (List.pairwise_cons.2
      ⟨fun p hp => Site.apart_stylePatch hplaced value hp, hnames⟩) ?_
    intro p hp
    rcases List.mem_cons.1 hp with rfl | hp
    · have hname := Nat.le_trans hplaced.nameSpan.low_le hplaced.nameSpan.le
      exact (Site.stylePatch_within hplaced value).mono hname hplaced.insertAt_le
    · exact Site.renamePatches_within hplaced hp

/-! ## Elements that stand elsewhere -/

/-- A span with `n` more bytes before it. -/
def Span.moved (n : Nat) (span : Span) : Span := ⟨n + span.start, n + span.stop⟩

/-- The tags of an element with `n` more bytes before it. -/
def Tag.moved (n : Nat) (tag : Tag) : Tag where
  name := tag.name
  span := tag.span.moved n
  opening := tag.opening.moved n
  nameSpan := tag.nameSpan.moved n
  closing := tag.closing.map fun closing => ⟨closing.span.moved n, closing.name.moved n⟩
  style := tag.style.map fun style => ⟨style.span.moved n, style.value.map (Span.moved n)⟩
  insertAt := n + tag.insertAt

/-- A span with offsets counted from `n`. -/
def Span.shape (n : Nat) (span : Span) : Span := ⟨span.start - n, span.stop - n⟩

/-- The tags of an element with offsets counted from where the element begins. -/
def Tag.shape (tag : Tag) : Tag where
  name := tag.name
  span := tag.span.shape tag.span.start
  opening := tag.opening.shape tag.span.start
  nameSpan := tag.nameSpan.shape tag.span.start
  closing := tag.closing.map fun closing =>
    ⟨closing.span.shape tag.span.start, closing.name.shape tag.span.start⟩
  style := tag.style.map fun style =>
    ⟨style.span.shape tag.span.start, style.value.map (Span.shape tag.span.start)⟩
  insertAt := tag.insertAt - tag.span.start

/-- A site with `n` more bytes before it. -/
def Site.moved (n : Nat) (site : Site) : Site := { site with tag := site.tag.moved n }

/-- A span behind `n` is where its shape says. -/
theorem Span.Within.moved_shape {source : Text} {span : Span} {low high n : Nat}
    (h : span.Within source low high) (hn : n ≤ low) : (span.shape n).moved n = span := by
  have hstart : n + (span.start - n) = span.start := Nat.add_sub_of_le (Nat.le_trans hn h.low_le)
  have hstop : n + (span.stop - n) = span.stop :=
    Nat.add_sub_of_le (Nat.le_trans hn (Nat.le_trans h.low_le h.le))
  rw [Span.shape, Span.moved, hstart, hstop]

/-- The tags of an element are where their shape says. -/
theorem Tag.Placed.moved_shape {source : Text} {tag : Tag} (h : tag.Placed source) :
    tag.shape.moved tag.span.start = tag := by
  have hname : tag.span.start ≤ tag.nameSpan.stop := by
    have := h.nameSpan.low_le
    have := h.nameSpan.le
    omega
  have hopening : tag.span.start ≤ tag.opening.stop := Nat.le_of_lt h.lt_opening_stop
  have hinsert : tag.span.start + (tag.insertAt - tag.span.start) = tag.insertAt :=
    Nat.add_sub_of_le (Nat.le_trans hname h.nameSpan.le_high)
  have hspan : (tag.span.shape tag.span.start).moved tag.span.start = tag.span := by
    have hstop := Nat.le_trans hopening h.opening.le_high
    rw [Span.shape, Span.moved, Nat.add_sub_of_le hstop, Nat.sub_self, Nat.add_zero]
  have hclosing : ∀ closing, tag.closing = some closing →
      (closing.span.shape tag.span.start).moved tag.span.start = closing.span ∧
        (closing.name.shape tag.span.start).moved tag.span.start = closing.name := by
    intro closing hclosing
    obtain ⟨hplace, -, hclosingName, -⟩ := h.closing closing hclosing
    exact ⟨hplace.moved_shape hopening,
      hclosingName.moved_shape (Nat.le_succ_of_le (Nat.le_trans hopening hplace.low_le))⟩
  have hstyle : ∀ style, tag.style = some style →
      (style.span.shape tag.span.start).moved tag.span.start = style.span ∧
        ∀ value, style.value = some value →
          (value.shape tag.span.start).moved tag.span.start = value := by
    intro style hstyle
    obtain ⟨hplace, hvalue⟩ := h.style style hstyle
    exact ⟨hplace.moved_shape hname,
      fun value hv => (hvalue value hv).moved_shape (Nat.le_trans hname hplace.low_le)⟩
  have hopens := h.opening.moved_shape (Nat.le_refl _)
  have hnamed := h.nameSpan.moved_shape (Nat.le_succ _)
  obtain ⟨name, span, opening, nameSpan, closing, style, insertAt⟩ := tag
  simp only [Tag.moved, Tag.shape, Tag.mk.injEq] at *
  refine ⟨trivial, hspan, hopens, hnamed, ?_, ?_, hinsert⟩
  · cases closing with
    | none => rfl
    | some closing =>
      obtain ⟨hplace, hclosingName⟩ := hclosing closing rfl
      simp [hplace, hclosingName]
  · cases style with
    | none => rfl
    | some style =>
      obtain ⟨place, value⟩ := style
      obtain ⟨hplace, hvalue⟩ := hstyle _ rfl
      cases value with
      | none => simpa using hplace
      | some value => simpa using ⟨hplace, hvalue value rfl⟩

section Moved

variable {l m r : Text}

/-- A place of a part of a text is a place of the text. -/
theorem isBoundary_append_iff {n : Nat} (hn : n ≤ byteLength m) :
    isBoundary (l ++ (m ++ r)) (byteLength l + n) = true ↔ isBoundary m n = true := by
  rw [isBoundary_iff, isBoundary_iff]
  constructor
  · rintro ⟨left, right, hsource, hlength⟩
    obtain ⟨part, rfl, hpart⟩ := exists_eq_append_of_byteLength_le hsource.symm (by omega)
    rw [byteLength_append] at hlength
    obtain ⟨rest, rfl, -⟩ := exists_eq_append_of_byteLength_le hpart.symm (by omega)
    exact ⟨part, rest, rfl, by omega⟩
  · rintro ⟨left, right, rfl, rfl⟩
    exact ⟨l ++ left, right ++ r, by simp, by rw [byteLength_append]⟩

theorem Span.Within.of_moved {span : Span} {low high : Nat}
    (h : (span.moved (byteLength l)).Within (l ++ (m ++ r)) (byteLength l + low) (byteLength l + high))
    (hhigh : high ≤ byteLength m) : span.Within m low high := by
  have hlow : byteLength l + low ≤ byteLength l + span.start := h.low_le
  have hle : byteLength l + span.start ≤ byteLength l + span.stop := h.le
  have hstop : byteLength l + span.stop ≤ byteLength l + high := h.le_high
  exact ⟨by omega, by omega, by omega, (isBoundary_append_iff (by omega)).1 h.start,
    (isBoundary_append_iff (by omega)).1 h.stop⟩

/-- An element is placed in its own text as it is in the source. -/
theorem Tag.Placed.of_moved {tag : Tag} (h : (tag.moved (byteLength l)).Placed (l ++ (m ++ r)))
    (hstop : tag.span.stop ≤ byteLength m) : tag.Placed m := by
  have hopening : tag.opening.Within m tag.span.start tag.span.stop := h.opening.of_moved hstop
  have hlt : byteLength l + tag.insertAt < byteLength l + tag.opening.stop := h.insertAt_lt
  have hinsert : tag.insertAt < tag.opening.stop := by omega
  have hin : tag.insertAt ≤ byteLength m := by
    have := hopening.le_high
    omega
  constructor
  · exact hopening
  · exact Nat.add_left_cancel h.opens
  · exact h.nameSpan.of_moved hin
  · exact Nat.lt_of_add_lt_add_left h.named
  · intro style hstyle
    obtain ⟨hattribute, hvalue⟩ := h.style _ (congrArg (Option.map _) hstyle)
    have hattribute' : style.span.Within m tag.nameSpan.stop tag.insertAt := hattribute.of_moved hin
    refine ⟨hattribute', fun value hv => ?_⟩
    exact (hvalue _ (congrArg (Option.map _) hv)).of_moved (Nat.le_trans hattribute'.le_high hin)
  · exact (isBoundary_append_iff hin).1 h.insertAt
  · exact hinsert
  · intro hnone
    exact Nat.add_left_cancel (h.single (congrArg (Option.map _) hnone))
  · intro closing hclosing
    obtain ⟨hspan, hend, hname, hnamed⟩ := h.closing _ (congrArg (Option.map _) hclosing)
    have hspan' : closing.span.Within m tag.opening.stop tag.span.stop := hspan.of_moved hstop
    exact ⟨hspan', Nat.add_left_cancel hend, hname.of_moved (Nat.le_trans hspan'.le_high hstop),
      Nat.lt_of_add_lt_add_left hnamed⟩

/-- The bytes of a span are the same wherever they stand. -/
theorem Span.slice_moved {span : Span} {low high : Nat} (h : span.Within m low high) :
    (span.moved (byteLength l)).slice (l ++ (m ++ r)) = span.slice m := by
  obtain ⟨toStop, behind, rfl, hstop⟩ := isBoundary_iff.1 h.stop
  obtain ⟨before, after, hcut, hstart⟩ := isBoundary_iff.1 h.start
  obtain ⟨part, rfl, -⟩ := exists_eq_append_of_byteLength_le hcut (by have := h.le; omega)
  rw [byteLength_append] at hstop
  have hhere := slice_append before part behind
  have hthere := slice_append (l ++ before) part (behind ++ r)
  rw [byteLength_append, hstart, Nat.add_assoc, show span.start + byteLength part = span.stop by omega]
    at hthere
  rw [hstart, show span.start + byteLength part = span.stop by omega] at hhere
  have hsame : l ++ ((before ++ part ++ behind) ++ r) = l ++ before ++ part ++ (behind ++ r) := by simp
  rw [Span.slice, Span.slice, hhere, hsame]
  exact hthere

namespace Site

variable {site : Site}

theorem head_moved (h : site.tag.Placed m) :
    (site.moved (byteLength l)).head (l ++ (m ++ r)) = site.head m := by
  have hslice : (site.moved (byteLength l)).tag.opening.slice (l ++ (m ++ r))
      = site.tag.opening.slice m := Span.slice_moved h.opening
  rw [head, head, hslice]

theorem textPatch_moved (h : site.tag.Placed m) (t : Text) :
    (site.moved (byteLength l)).textPatch (l ++ (m ++ r)) t
      = (site.textPatch m t).moved (byteLength l) := by
  unfold textPatch
  rw [head_moved h]
  cases hclosing : site.tag.closing with
  | none => simp [between, moved, Tag.moved, hclosing, Patch.moved, Span.moved, Nat.add_assoc]
  | some closing => simp [between, moved, Tag.moved, hclosing, Patch.moved, Span.moved]

theorem stylePatch_moved (n : Nat) (value : Text) :
    (site.moved n).stylePatch value = (site.stylePatch value).moved n := by
  unfold stylePatch
  cases hstyle : site.tag.style with
  | none => simp [moved, Tag.moved, hstyle, Patch.moved, Patch.insertion]
  | some style =>
    obtain ⟨span, value⟩ := style
    cases value <;> simp [moved, Tag.moved, hstyle, Patch.moved, Span.moved]

theorem renamePatches_moved (n : Nat) (target : Option Text) :
    (site.moved n).renamePatches target = (site.renamePatches target).map (Patch.moved n) := by
  cases target with
  | none => rfl
  | some name =>
    unfold renamePatches
    dsimp only
    rw [show (site.moved n).name = site.name from rfl]
    split
    · rfl
    · cases hclosing : site.tag.closing <;>
        simp [moved, Tag.moved, hclosing, Patch.moved, Span.moved]

end Site

/-- **The patches of an element depend only on its text.** Where that stands elsewhere, they are moved. -/
theorem patches_moved {site : Site} (h : site.tag.Placed m) (edit : PendingEdit) :
    (site.moved (byteLength l)).patches (l ++ (m ++ r)) edit
      = (site.patches m edit).map (List.map (Patch.moved (byteLength l))) := by
  cases edit with
  | text edit => simp [Site.patches, Site.textPatch_moved h, Except.map]
  | style edit =>
    unfold Site.patches
    dsimp only
    cases edit.expression with
    | error cause => rfl
    | ok value =>
      dsimp only
      cases edit.target with
      | error name => rfl
      | ok target => simp [Site.stylePatch_moved, Site.renamePatches_moved, Except.map]

end Moved

/-! ## The text of an element -/

/-- The text of an element and those before and behind it. -/
theorem Tag.Placed.exists_cut {source : Text} {tag : Tag} (h : tag.Placed source) :
    ∃ l m r, source = l ++ (m ++ r) ∧ byteLength l = tag.span.start ∧
      byteLength m = tag.shape.span.stop ∧ byteLength l + byteLength m = tag.span.stop := by
  have hstop : isBoundary source tag.span.stop = true := by
    cases hclosing : tag.closing with
    | none => exact h.single hclosing ▸ h.opening.stop
    | some closing =>
      obtain ⟨hplace, hend, -⟩ := h.closing closing hclosing
      exact hend ▸ hplace.stop
  have hforward := h.lt_opening_stop
  have hend := h.opening.le_high
  obtain ⟨l, rest, hl, hlength⟩ := isBoundary_iff.1 h.opening.start
  obtain ⟨toStop, r, hr, hrlength⟩ := isBoundary_iff.1 hstop
  rw [h.opens] at hlength
  obtain ⟨m, rfl, -⟩ := exists_eq_append_of_byteLength_le (hl.trans hr.symm) (by omega)
  rw [byteLength_append] at hrlength
  refine ⟨l, m, r, by rw [← hr, List.append_assoc], hlength, ?_, hrlength⟩
  show byteLength m = tag.span.stop - tag.span.start
  omega

/-- An element in its own text. -/
def Site.alone (site : Site) : Site := { site with tag := site.tag.shape }

/-- Only the name and the tags of an element matter for its patches. -/
theorem patches_congr {site other : Site} (hname : site.name = other.name) (htag : site.tag = other.tag)
    (source : Text) (edit : PendingEdit) : site.patches source edit = other.patches source edit := by
  obtain ⟨address, name, tag, text, isLeaf⟩ := site
  obtain rfl : name = other.name := hname
  obtain rfl : tag = other.tag := htag
  cases edit <;> rfl

section Alone

variable {dialect : Dialect} {l m r : Text} {found : List Site} {site : Site}

/-- Elements of one shape and one text have the same patches, each where it stands. -/
theorem patches_of_shape_eq {again : Site} (halone : site.alone.tag.Placed m)
    (hagain : again.tag.Placed (l ++ (m ++ r))) (hl : byteLength l = again.anchor)
    (hname : again.name = site.name) (hshape : again.tag.shape = site.tag.shape) (edit : PendingEdit) :
    again.patches (l ++ (m ++ r)) edit
      = (site.alone.patches m edit).map (List.map (Patch.moved (byteLength l))) := by
  have htag : again.tag = (site.alone.moved (byteLength l)).tag := by
    show again.tag = site.tag.shape.moved (byteLength l)
    rw [← hshape, hl]
    exact hagain.moved_shape.symm
  have hname' : again.name = (site.alone.moved (byteLength l)).name := hname
  rw [patches_congr hname' htag, patches_moved halone]

/-- **An element stands apart in its own text**: its patches stand there behind its first sign, and in
the source they are the same patches, moved. -/
theorem exists_inside_alone (h : sites dialect (l ++ (m ++ r)) = .ok found) (hsite : site ∈ found)
    (hl : byteLength l = site.anchor) (hm : byteLength m = site.tag.shape.span.stop)
    {edit : PendingEdit} {own : List Patch} (hown : site.alone.patches m edit = .ok own) :
    site.alone.tag.Placed m ∧ Patch.Inside m 0 (byteLength m) own := by
  have hplaced := placed_of_sites h hsite
  have halone : site.alone.tag.Placed m := by
    refine Tag.Placed.of_moved (l := l) (r := r) ?_ (Nat.le_of_eq hm.symm)
    rw [hl]
    exact hplaced.moved_shape ▸ hplaced
  refine ⟨halone, ?_⟩
  have hopens : ∃ before rest, m = before ++ '<' :: rest ∧ byteLength before = site.alone.anchor := by
    obtain ⟨before, rest, hsource, hbefore⟩ := exists_append_anchor h hsite
    obtain ⟨-, htail⟩ := append_inj_of_byteLength_eq hsource (hl.trans hbefore.symm)
    cases m with
    | nil =>
      have hnone : 0 = site.tag.span.stop - site.tag.span.start := hm
      have := hplaced.lt_stop
      omega
    | cons c m =>
      obtain ⟨rfl, -⟩ := List.cons.inj htail
      exact ⟨[], m, rfl, (Nat.sub_self _).symm⟩
  have hinside := inside_patches halone hopens hown
  have hstart : site.alone.anchor = 0 := Nat.sub_self _
  have hstop : site.alone.tag.span.stop = byteLength m := hm.symm
  rwa [hstart, hstop] at hinside

end Alone

end Retouch
