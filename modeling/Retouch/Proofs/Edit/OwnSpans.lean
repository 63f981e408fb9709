import Retouch.Proofs.Edit.Batch
import Retouch.Proofs.Edit.Rename
import Retouch.Proofs.Script.LastSign

/-!
# The ranges that an edit changes

An edit of an element changes only ranges of its own (`Site.ownSpans`): a text edit what stands between the
two tags, or what stands behind the attributes of a tag that is all of the element; a style edit the last
style attribute, or the place for one, and the names if it renames.

What patches make of a text does not change if some of the text around each of them is put into it on both
sides. So patches that stand in given spans, one in each, can be taken for patches of exactly these spans
(`Weaves.exists_wide`), and an edit is one patch of each of its ranges (`confined_of_applyAt`).
-/

namespace Retouch

open Text

/-! ## Patches with more of the text around them -/

/-- Whether a span is part of another one. -/
def Span.StandsIn (span wide : Span) : Prop := wide.start ≤ span.start ∧ span.stop ≤ wide.stop

/-- Of spans that stand in others, one in each, each stands in one of them. -/
theorem Span.exists_standsIn {parts wide : List Span} (h : List.Forall₂ Span.StandsIn parts wide)
    {part : Span} (hpart : part ∈ parts) : ∃ span ∈ wide, part.StandsIn span := by
  induction h with
  | nil => exact absurd hpart List.not_mem_nil
  | @cons first span parts wide hfirst _ ih =>
    rcases List.mem_cons.1 hpart with rfl | hpart
    · exact ⟨span, List.mem_cons_self, hfirst⟩
    · obtain ⟨other, hother, hin⟩ := ih hpart
      exact ⟨other, List.mem_cons_of_mem _ hother, hin⟩

namespace Patch

variable {source output : Text}

/-- **Patches in spans replace nothing else**: what they make of a part of a text is made by wider patches,
each of which replaces one of the spans. -/
theorem Weaves.exists_wide (before : Text) {rest : Text} {cursor : Nat} {patches : List Patch}
    {spans : List Span} (h : Weaves cursor rest patches output) (hsource : before ++ rest = source)
    (hcursor : byteLength before = cursor)
    (hin : List.Forall₂ Span.StandsIn (patches.map Patch.span) spans)
    (horder : spans.Pairwise Span.Precedes)
    (hwithin : ∀ span ∈ spans, cursor ≤ span.start ∧ isBoundary source span.start = true ∧
      isBoundary source span.stop = true) :
    ∃ wides, wides.map Patch.span = spans ∧ Weaves cursor rest wides output := by
  induction patches generalizing before rest cursor output spans with
  | nil =>
    cases hin
    exact ⟨[], rfl, h⟩
  | cons p patches ih =>
    obtain ⟨span, spans, hp, hlater, rfl⟩ := List.forall₂_cons_left_iff.1 hin
    cases h with
    | @cons _ kept replaced behind woven _ _ hstart hstop hweaves =>
      obtain ⟨hfirst, horder⟩ := List.pairwise_cons.1 horder
      obtain ⟨⟨hlow, hbegin, hend⟩, hwithin⟩ := List.forall_mem_cons.1 hwithin
      obtain ⟨hspanStart, hspanStop⟩ : span.start ≤ p.start ∧ p.stop ≤ span.stop := hp
      -- The text between the patch and the ends of the span.
      obtain ⟨toStart, fromStart, hs, hslength⟩ := isBoundary_iff.1 hbegin
      obtain ⟨toStop, behind', ht, htlength⟩ := isBoundary_iff.1 hend
      obtain ⟨far, rfl, hfar⟩ := exists_eq_append_of_byteLength_le (hsource.trans hs.symm) (by omega)
      rw [byteLength_append] at hslength
      obtain ⟨left, rfl, -⟩ := exists_eq_append_of_byteLength_le hfar.symm (by omega)
      have hjoined : (before ++ ((far ++ left) ++ replaced)) ++ behind = toStop ++ behind' := by
        rw [ht, ← hsource]
        simp
      obtain ⟨right, rfl, rfl⟩ := exists_eq_append_of_byteLength_le hjoined (by
        simp only [byteLength_append] at hstart ⊢
        omega)
      simp only [byteLength_append] at hstart htlength
      -- The other patches stand behind the span.
      have hbehind : ∀ q ∈ patches, p.stop + byteLength right ≤ q.start := by
        intro q hq
        obtain ⟨later, hlater', hq'⟩ := Span.exists_standsIn hlater (List.mem_map_of_mem hq)
        have hafter := (hfirst later hlater').1
        have hwithinLater : later.start ≤ q.start := hq'.1
        omega
      obtain ⟨woven', hwoven, rfl⟩ := hweaves.exists_of_le_start hbehind
      have hplace : p.stop + byteLength right = span.stop := by omega
      rw [hplace] at hwoven
      obtain ⟨wides, rfl, hwide⟩ := ih _ hwoven ht (by
        simp only [byteLength_append]
        omega) hlater horder fun later hlater' =>
        ⟨(hfirst later hlater').1, (hwithin later hlater').2⟩
      refine ⟨⟨span.start, span.stop, left ++ p.text ++ right⟩ :: wides, rfl, ?_⟩
      have hkept : cursor + byteLength far = span.start := by omega
      have hreplaced : span.start + byteLength (left ++ replaced ++ right) = span.stop := by
        simp only [byteLength_append]
        omega
      have hall := Weaves.cons (p := ⟨span.start, span.stop, left ++ p.text ++ right⟩) hkept hreplaced
        hwide
      simpa only [List.append_assoc] using hall

/-- The bytes of a text from a cursor on, in which patches replace their ranges one after the other. -/
def spliced (source : List UInt8) : (cursor : Nat) → List Patch → List UInt8
  | cursor, [] => source.drop cursor
  | cursor, p :: patches =>
    (source.take p.start).drop cursor ++ (bytes p.text ++ spliced source p.stop patches)

/-- What patches in order make of a text is the text with their ranges replaced. -/
theorem Weaves.bytes_eq (before : Text) {rest : Text} {cursor : Nat} {patches : List Patch}
    (h : Weaves cursor rest patches output) (hsource : before ++ rest = source)
    (hcursor : byteLength before = cursor) : bytes output = spliced (bytes source) cursor patches := by
  induction h generalizing before with
  | nil cursor rest =>
    have hlength : (bytes before).length = cursor := (length_bytes before).trans hcursor
    rw [spliced, ← hsource, bytes_append, List.drop_left' hlength]
  | @cons cursor kept replaced behind woven p patches hstart hstop _ ih =>
    have hlater := ih (before ++ (kept ++ replaced)) (by simpa using hsource) (by
      simp only [byteLength_append]
      omega)
    have htake : (bytes before ++ bytes kept).length = p.start := by
      rw [List.length_append, length_bytes, length_bytes]
      omega
    have hlength : (bytes before).length = cursor := (length_bytes before).trans hcursor
    have hbytes : bytes source = (bytes before ++ bytes kept) ++ bytes (replaced ++ behind) := by
      rw [← hsource]
      simp
    have hkept : ((bytes source).take p.start).drop cursor = bytes kept := by
      rw [hbytes, List.take_left' htake, List.drop_left' hlength]
    rw [spliced, hkept, ← hlater]
    simp

end Patch

/-! ## The end of a tag that is all of its element -/

namespace Text

/-- What is trimmed off the end of a text stands behind every character that is no blank. -/
theorem exists_trimEnd_eq {c : Char} (hc : isBlank c = false) (before behind : Text) :
    ∃ rest, trimEnd (before ++ c :: behind) = before ++ c :: rest := by
  induction before with
  | nil => exact ⟨trimEnd behind, by rw [List.nil_append, trimEnd_cons, hc, Bool.and_false]; rfl⟩
  | cons d before ih =>
    obtain ⟨rest, hrest⟩ := ih
    refine ⟨rest, ?_⟩
    rw [List.cons_append, trimEnd_cons, hrest]
    simp

/-- Two signs at the end of a text stand behind a part of it that is followed by another sign than the
second one. -/
theorem exists_withoutTail_eq (first : Char) {last d : Char} (hd : d ≠ last) (before rest : Text) :
    ∃ tail, withoutTail [first, last] (before ++ d :: rest) = before ++ tail := by
  unfold withoutTail
  split
  · next hsuffix =>
    cases rest with
    | nil =>
      -- The text ends with the other sign.
      obtain ⟨more, hmore⟩ := List.isSuffixOf_iff_suffix.1 hsuffix
      have hlast := congrArg List.getLast? hmore
      simp only [List.getLast?_append, List.getLast?_cons_cons, List.getLast?_singleton,
        Option.some_or, Option.some.injEq] at hlast
      exact absurd hlast.symm hd
    | cons e rest =>
      refine ⟨(d :: e :: rest).take rest.length, ?_⟩
      have hlength : (before ++ d :: e :: rest).length - [first, last].length
          = before.length + rest.length := by
        simp only [List.length_append, List.length_cons, List.length_nil]
        omega
      rw [hlength, List.take_length_add_append]
  · exact ⟨_, rfl⟩

end Text

namespace Site

variable {dialect : Dialect} {source : Text} {found : List Site} {site : Site}

/-- **What is put into a tag that is all of its element stands behind the attributes and the name.** -/
theorem insertAt_le_head (h : sites dialect source = .ok found) (hsite : site ∈ found)
    (hsingle : site.tag.closing = none) :
    site.tag.insertAt ≤ site.tag.opening.start + byteLength (site.head source) := by
  obtain ⟨children, hstands⟩ := exists_stands h hsite
  have hplaced : site.tag.Placed source := hstands.known.placed
  obtain ⟨before, rest, behind, hsource, hbefore, hstop, hslice⟩ :=
    exists_slice_opening hplaced (exists_append_anchor h hsite)
  obtain ⟨toLast, c, beyond, hfirm, hlength, hc⟩ := hstands.known.firmAt_insertAt hstands.name
  have hbegins : site.tag.opening.start < site.tag.insertAt := by
    have hname := hplaced.nameSpan
    rw [hplaced.opens]
    exact Nat.lt_of_lt_of_le hname.low_le (Nat.le_trans hname.le hname.le_high)
  generalize '<' :: rest = tag at hsource hstop hslice
  -- The last character of the attributes or the name stands in the tag.
  have hlast : byteLength (toLast ++ [c]) = site.tag.insertAt := by
    rw [byteLength_append]
    exact hlength
  obtain ⟨inside, hinside, hbeyond⟩ := exists_eq_append_of_byteLength_le
    (show before ++ (tag ++ behind) = (toLast ++ [c]) ++ beyond by rw [← hsource, hfirm]; simp) (by omega)
  have hinsert : site.tag.opening.start + byteLength inside = site.tag.insertAt := by
    rw [← hlast, hinside, byteLength_append, hbefore]
  obtain rfl | ⟨inner, d, rfl⟩ := List.eq_nil_or_concat' inside
  · exact absurd hinsert (Nat.ne_of_lt hbegins)
  obtain ⟨rfl, hsame⟩ := List.append_inj' (hinside.trans (List.append_assoc before inner [d]).symm) rfl
  obtain rfl := List.singleton_inj.1 hsame
  -- Behind it stands another sign than the last one of the tag.
  have hlt := hplaced.insertAt_lt
  obtain ⟨more, rfl, rfl⟩ := exists_eq_append_of_byteLength_le hbeyond.symm (by omega)
  cases more with
  | nil =>
    rw [List.append_nil] at hstop
    omega
  | cons e more =>
    have he : e ≠ '>' := by
      rintro rfl
      have hgreater : source = (before ++ (inner ++ [c])) ++ '>' :: (more ++ behind) := by
        rw [hsource]
        simp
      refine hstands.known.read.ne_greater hsingle hgreater ?_
      rw [byteLength_append, hbefore]
      exact hinsert
    obtain ⟨tail, htail⟩ := exists_withoutTail_eq '/' he (inner ++ [c]) more
    obtain ⟨kept, hkept⟩ := exists_trimEnd_eq hc inner tail
    have hhead : site.head source = (inner ++ [c]) ++ kept := by
      rw [head, hslice, htail, List.append_assoc, List.singleton_append, hkept, List.append_assoc]
      rfl
    rw [hhead, byteLength_append]
    omega

end Site

/-! ## The ranges of an edit -/

namespace Site

/-- The last style attribute, or the place for one. -/
def styleSpan (site : Site) : Span :=
  match site.tag.style with
  | some style => style.span
  | none => ⟨site.tag.insertAt, site.tag.insertAt⟩

/-- Whether a style edit gives the element another name. -/
def renames (site : Site) (edit : StyleEdit) : Bool :=
  match edit.target with
  | .ok (some name) => name ≠ site.name
  | _ => false

/-- The ranges of a style edit, `style` being that of the style: the names stand around it. -/
def spansAround (site : Site) (edit : StyleEdit) (style : Span) : List Span :=
  if site.renames edit then
    site.tag.nameSpan :: style :: (site.tag.closing.map ClosingTag.name).toList
  else [style]

/-- The ranges of the source that an edit of an element can change. -/
def ownSpans (site : Site) : PendingEdit → List Span
  | .text _ =>
    match site.tag.closing with
    | some closing => [⟨site.tag.opening.stop, closing.span.start⟩]
    | none => [⟨site.tag.insertAt, site.tag.span.stop⟩]
  | .style edit => site.spansAround edit site.styleSpan

variable {dialect : Dialect} {source : Text} {found : List Site} {site : Site}

section Styles

variable {edit : StyleEdit} {style : Span}

theorem of_mem_spansAround {span : Span} (h : span ∈ site.spansAround edit style) :
    span = site.tag.nameSpan ∨ span = style ∨
      ∃ closing, site.tag.closing = some closing ∧ span = closing.name := by
  unfold spansAround at h
  split at h
  · rcases List.mem_cons.1 h with rfl | h
    · exact .inl rfl
    · rcases List.mem_cons.1 h with rfl | h
      · exact .inr (.inl rfl)
      · obtain ⟨closing, hclosing, rfl⟩ := Option.map_eq_some_iff.1 (Option.mem_toList.1 h)
        exact .inr (.inr ⟨closing, hclosing, rfl⟩)
  · exact .inr (.inl (List.mem_singleton.1 h))

theorem styleSpan_within (hplaced : site.tag.Placed source) :
    site.styleSpan.Within source site.tag.nameSpan.stop site.tag.insertAt := by
  unfold styleSpan
  split
  · next style hstyle => exact (hplaced.style style hstyle).1
  · exact ⟨hplaced.nameSpan.le_high, Nat.le_refl _, Nat.le_refl _, hplaced.insertAt, hplaced.insertAt⟩

/-- The style is put into the range of the style. -/
theorem stylePatch_standsIn (hplaced : site.tag.Placed source) (value : Text) :
    (site.stylePatch value).span.StandsIn site.styleSpan := by
  unfold stylePatch styleSpan
  split
  · next span stretch hstyle =>
    obtain ⟨-, hvalue⟩ := hplaced.style _ hstyle
    rw [hstyle]
    exact ⟨(hvalue stretch rfl).low_le, (hvalue stretch rfl).le_high⟩
  · next span hstyle =>
    rw [hstyle]
    exact ⟨Nat.le_refl _, Nat.le_refl _⟩
  · next hstyle =>
    rw [hstyle]
    exact ⟨Nat.le_refl _, Nat.le_refl _⟩

/-- The patches of a style edit replace the names and what the style stands for. -/
theorem map_span_inOrder (hplaced : site.tag.Placed source) {target : Option Text}
    (htarget : edit.target = .ok target) (value : Text) :
    (Patch.inOrder (site.stylePatch value :: site.renamePatches target)).map Patch.span
      = site.spansAround edit (site.stylePatch value).span := by
  unfold spansAround renames
  rw [htarget]
  cases target with
  | none => simp [renamePatches, Patch.inOrder]
  | some t =>
    by_cases ht : t = site.name
    · simp [renamePatches, Patch.inOrder, ht]
    · rw [inOrder_rename hplaced ht]
      cases site.tag.closing <;> simp [ht, Patch.span]

/-- The ranges of a style edit stand one behind the other. -/
theorem pairwise_spansAround (hplaced : site.tag.Placed source)
    (hstyle : style.Within source site.tag.nameSpan.stop site.tag.insertAt) :
    (site.spansAround edit style).Pairwise Span.Precedes := by
  unfold spansAround
  split
  · have hfirst := precedes_style hplaced hstyle
    cases hclosing : site.tag.closing with
    | none => exact List.pairwise_pair.2 hfirst
    | some closing =>
      have hsecond := precedes_closingName hplaced hclosing hstyle
      have hbetween := precedes_closingName hplaced hclosing hplaced.nameSpan
      simp [hfirst, hsecond, hbetween]
  · exact List.pairwise_singleton _ _

/-- Another span of the style in place of a part of it. -/
theorem spansAround_standsIn {wide : Span} (h : style.StandsIn wide) :
    List.Forall₂ Span.StandsIn (site.spansAround edit style) (site.spansAround edit wide) := by
  have hsame : ∀ spans : List Span, List.Forall₂ Span.StandsIn spans spans := fun spans =>
    List.forall₂_same.2 fun span _ => ⟨Nat.le_refl _, Nat.le_refl _⟩
  unfold spansAround
  split
  · exact .cons ⟨Nat.le_refl _, Nat.le_refl _⟩ (.cons h (hsame _))
  · exact .cons h .nil

end Styles

variable {edit : PendingEdit}

/-- The ranges of an edit stand one behind the other. -/
theorem pairwise_ownSpans (hplaced : site.tag.Placed source) (edit : PendingEdit) :
    (site.ownSpans edit).Pairwise Span.Precedes := by
  cases edit with
  | text edit =>
    unfold ownSpans
    dsimp only
    split <;> exact List.pairwise_singleton _ _
  | style edit => exact pairwise_spansAround hplaced (styleSpan_within hplaced)

/-- **The ranges of a style edit are in the tags**: no child has a byte in them. -/
theorem ownSpans_style (hplaced : site.tag.Placed source) {edit : StyleEdit} {span : Span}
    (h : span ∈ site.ownSpans (.style edit)) :
    span.Within source site.tag.opening.start site.tag.opening.stop ∨
      ∃ closing, site.tag.closing = some closing ∧
        span.Within source closing.span.start closing.span.stop := by
  have hopens := hplaced.opens
  have hinsert := Nat.le_of_lt hplaced.insertAt_lt
  rcases of_mem_spansAround h with rfl | rfl | ⟨closing, hclosing, rfl⟩
  · exact .inl (hplaced.nameSpan.mono (by omega) hinsert)
  · have hname := hplaced.nameSpan.low_le
    have hforward := hplaced.nameSpan.le
    exact .inl ((styleSpan_within hplaced).mono (by omega) hinsert)
  · obtain ⟨-, -, hname, -⟩ := hplaced.closing closing hclosing
    exact .inr ⟨closing, hclosing, hname.mono (Nat.le_succ _) (Nat.le_refl _)⟩

/-- The ranges of an edit begin and end where characters do. -/
theorem boundary_ownSpans (hplaced : site.tag.Placed source) {span : Span}
    (h : span ∈ site.ownSpans edit) :
    isBoundary source span.start = true ∧ isBoundary source span.stop = true := by
  cases edit with
  | text edit =>
    unfold ownSpans at h
    dsimp only at h
    split at h
    · next closing hclosing =>
      obtain rfl := List.mem_singleton.1 h
      exact ⟨hplaced.opening.stop, (hplaced.closing closing hclosing).1.start⟩
    · next hsingle =>
      obtain rfl := List.mem_singleton.1 h
      refine ⟨hplaced.insertAt, ?_⟩
      rw [hplaced.single hsingle]
      exact hplaced.opening.stop
  | style edit =>
    rcases ownSpans_style hplaced h with hspan | ⟨closing, -, hspan⟩
    · exact ⟨hspan.start, hspan.stop⟩
    · exact ⟨hspan.start, hspan.stop⟩

/-- **The patches of an edit stand in its ranges**, one in each. -/
theorem patches_standsIn (h : sites dialect source = .ok found) (hsite : site ∈ found)
    {own : List Patch} (hown : site.patches source edit = .ok own) :
    List.Forall₂ Span.StandsIn ((Patch.inOrder own).map Patch.span) (site.ownSpans edit) := by
  have hplaced := placed_of_sites h hsite
  cases edit with
  | text edit =>
    obtain rfl := Except.ok.inj hown
    rw [Patch.inOrder, List.mergeSort_singleton]
    unfold textPatch between ownSpans
    cases hclosing : site.tag.closing with
    | some closing => exact .cons ⟨Nat.le_refl _, Nat.le_refl _⟩ .nil
    | none =>
      refine .cons ⟨insertAt_le_head h hsite hclosing, ?_⟩ .nil
      exact hplaced.opening.le_high
  | style edit =>
    obtain ⟨value, target, -, htarget, rfl⟩ := exists_of_patches_style hown
    rw [map_span_inOrder hplaced htarget]
    exact spansAround_standsIn (stylePatch_standsIn hplaced value)

/-- Whether an edit of an element makes `output` of `source` and changes nothing but its ranges. -/
structure Confined (site : Site) (edit : PendingEdit) (source output : Text) : Prop where
  /-- One patch for each range replaces that, and all other bytes stand around what it brings. Without a
  style attribute, an attribute is all that comes into the place for one. -/
  patched : ∃ own : List Patch, own.map Patch.span = site.ownSpans edit ∧
    bytes output = Patch.spliced (bytes source) 0 own ∧
    ∀ style, edit = .style style → site.tag.style = none → ∃ value, style.expression = .ok value ∧
      Patch.insertion site.tag.insertAt (' ' :: styleAttribute value) ∈ own
  /-- The ranges stand one behind the other. -/
  inOrder : (site.ownSpans edit).Pairwise Span.Precedes
  /-- No range of a style edit is between the tags. -/
  inTags : ∀ style, edit = .style style → ∀ span ∈ site.ownSpans edit,
    span.StandsIn site.tag.opening ∨
      ∃ closing, site.tag.closing = some closing ∧ span.StandsIn closing.span

/-- The patches of a style edit that adds an attribute have the ranges of the edit. -/
theorem map_span_inOrder_of_none (hplaced : site.tag.Placed source) (hnone : site.tag.style = none)
    {edit : StyleEdit} {target : Option Text} (htarget : edit.target = .ok target) (value : Text) :
    (Patch.inOrder (site.stylePatch value :: site.renamePatches target)).map Patch.span
      = site.ownSpans (.style edit) := by
  have hspan : (site.stylePatch value).span = site.styleSpan := by
    rw [stylePatch, styleSpan, hnone]
    rfl
  rw [map_span_inOrder hplaced htarget, hspan]
  rfl

/-- **An edit changes only its own ranges.** -/
theorem confined_of_applyAt (h : sites dialect source = .ok found) (hsite : site ∈ found)
    {next : EditedSource} (hnext : applyAt dialect source site edit = .ok next) :
    site.Confined edit source next.source := by
  obtain ⟨-, houtput, hown⟩ := sites_of_applyAt hnext
  have hplaced := placed_of_sites h hsite
  have hweaves := Patch.applyAll_eq_ok_iff.1 houtput
  refine ⟨?_, pairwise_ownSpans hplaced edit, ?_⟩
  · by_cases hadded : (∃ style, edit = .style style) ∧ site.tag.style = none
    · -- The patches are of the ranges as they are.
      obtain ⟨⟨style, rfl⟩, hnone⟩ := hadded
      obtain ⟨value, target, hvalue, htarget, hpatches⟩ := exists_of_patches_style hown
      rw [hpatches] at hweaves
      refine ⟨_, map_span_inOrder_of_none hplaced hnone htarget value, hweaves.bytes_eq [] rfl rfl, ?_⟩
      intro other hother _
      obtain rfl := PendingEdit.style.inj hother
      refine ⟨value, hvalue, Patch.mem_inOrder.2 ?_⟩
      rw [stylePatch, hnone]
      exact List.mem_cons_self
    · obtain ⟨wides, hspans, hwide⟩ := hweaves.exists_wide [] rfl rfl (patches_standsIn h hsite hown)
        (pairwise_ownSpans hplaced edit) fun span hspan =>
          ⟨Nat.zero_le _, boundary_ownSpans hplaced hspan⟩
      exact ⟨wides, hspans, hwide.bytes_eq [] rfl rfl,
        fun style hstyle hnone => absurd ⟨⟨style, hstyle⟩, hnone⟩ hadded⟩
  · rintro style rfl span hspan
    rcases ownSpans_style hplaced hspan with hin | ⟨closing, hclosing, hin⟩
    · exact .inl ⟨hin.low_le, hin.le_high⟩
    · exact .inr ⟨closing, hclosing, hin.low_le, hin.le_high⟩

end Site

end Retouch
