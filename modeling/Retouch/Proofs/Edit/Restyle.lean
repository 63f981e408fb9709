import Retouch.Proofs.Edit.Batch
import Retouch.Proofs.Edit.Element
import Retouch.Proofs.Patch.Weaves
import Retouch.Proofs.Script.WrittenStyle
import Retouch.Proofs.Style.Expression

/-!
# A style edit and the style that is read afterwards

A style edit that renames nothing makes one patch in the opening tag, behind the name. Where the style
attribute that it has written is read as the last one of an element, its value is exactly what was
written (`exists_restyled`). It is read so exactly if the tag is read up to that place and no style
attribute stands behind (`StyleCut.keepsStyle_iff`). A later style edit of that element then writes what
it would have written at once (`applyEdit_again`).
-/

namespace Retouch

open Text Script

variable {dialect : Dialect} {source : Text} {found : List Site}

/-! ## The written attribute -/

namespace Site

/-- Where the last style attribute of the element begins once a style was written. -/
def styleStart (site : Site) : Nat :=
  match site.tag.style with
  | some style => style.span.start
  | none => site.tag.insertAt + 1

/-- Whether the element has no attributes, so that a new one goes directly behind its name. -/
def isBare (site : Site) : Bool := site.tag.insertAt == site.tag.nameSpan.stop

/-- Whether the last style attribute of an element, read in another source, begins where that of `site`
was written. -/
def KeepsStyle (site again : Site) : Prop :=
  again.tag.style.map (fun style => style.span.start) = some site.styleStart

/-- Whether a style is written behind all other attributes. -/
def writesLast (site : Site) : Bool := (site.stylePatch []).stop == site.tag.insertAt

/-- Whether the tag of an element in another source was read up to where the style of `site` was written,
and no style attribute stands behind that one. -/
def ReachesStyle (site again : Site) (source : Text) : Prop :=
  ReadTo source again.tag site.styleStart ∧
    (site.writesLast = true ∨
      ∀ style, again.tag.style = some style → style.span.start ≤ site.styleStart)

/-- The text of the value of the last style attribute, if that has one. -/
def styleText (site : Site) (source : Text) : Option Text :=
  site.tag.style.bind fun style => style.value.map fun span => span.slice source

end Site

/-- Where a style edit cuts a source: `replaced` is what its patch stands for. In the place of that it
writes the end of `pre`, if that is not there, and the value; `pre` is the style attribute up to its
value. -/
structure StyleCut (source : Text) (site : Site) (toPatch replaced behind before pre : Text) : Prop where
  cut : source = toPatch ++ (replaced ++ behind)
  start : ∀ value, byteLength toPatch = (site.stylePatch value).start
  stop : ∀ value, (site.stylePatch value).start + byteLength replaced = (site.stylePatch value).stop
  patched : ∀ value, toPatch ++ (site.stylePatch value).text = before ++ (pre ++ value)
  begins : byteLength before = site.styleStart
  leads : LeadsToValue pre site.styleStart

theorem Span.Within.exists_cut {span : Span} {low high : Nat} (h : span.Within source low high) :
    ∃ l m r, source = l ++ (m ++ r) ∧ byteLength l = span.start ∧
      span.start + byteLength m = span.stop := by
  obtain ⟨l, rest, hl, hlength⟩ := isBoundary_iff.1 h.start
  obtain ⟨toStop, r, hr, hstop⟩ := isBoundary_iff.1 h.stop
  obtain ⟨m, rfl, rfl⟩ := exists_eq_append_of_byteLength_le (hl.trans hr.symm) (by have := h.le; omega)
  rw [byteLength_append] at hstop
  exact ⟨l, m, r, hl.symm, hlength, by omega⟩

/-- How a source is cut is told by the patch. -/
theorem StyleCut.of_patch {site : Site} {toPatch replaced behind before pre : Text} {start stop : Nat}
    {text : Text → Text} (hpatch : ∀ value, site.stylePatch value = ⟨start, stop, text value⟩)
    (hcut : source = toPatch ++ (replaced ++ behind)) (hstart : byteLength toPatch = start)
    (hstop : start + byteLength replaced = stop)
    (htext : ∀ value, toPatch ++ text value = before ++ (pre ++ value))
    (hbegins : byteLength before = site.styleStart) (hleads : LeadsToValue pre site.styleStart) :
    StyleCut source site toPatch replaced behind before pre where
  cut := hcut
  start value := by rw [hpatch, hstart]
  stop value := by rw [hpatch, hstop]
  patched value := by rw [hpatch, htext]
  begins := hbegins
  leads := hleads

/-- **A style edit cuts its source** before a value, or where a whole style attribute is written. -/
theorem exists_styleCut (h : sites dialect source = .ok found) {site : Site} (hsite : site ∈ found) :
    ∃ toPatch replaced behind before pre, StyleCut source site toPatch replaced behind before pre := by
  obtain ⟨children, hstands⟩ := exists_stands h hsite
  have hplaced : site.tag.Placed source := hstands.known.placed
  cases hstyle : site.tag.style with
  | none =>
    have hpatch : ∀ value, site.stylePatch value
        = ⟨site.tag.insertAt, site.tag.insertAt, ' ' :: Site.styleAttribute value⟩ := fun value => by
      rw [Site.stylePatch, hstyle]
      rfl
    obtain ⟨toPatch, behind, hcut, hlength⟩ := isBoundary_iff.1 hplaced.insertAt
    have hbegins : byteLength (toPatch ++ [' ']) = site.styleStart := by
      rw [Site.styleStart, hstyle, byteLength_append, hlength]
      rfl
    exact ⟨toPatch, [], behind, toPatch ++ [' '], "style=".toList,
      .of_patch hpatch hcut.symm hlength rfl (fun value => by rw [List.append_assoc]; rfl) hbegins
        (leadsToValue_style _)⟩
  | some style =>
    obtain ⟨span, value⟩ := style
    obtain ⟨hspan, hvalue⟩ := hplaced.style _ hstyle
    have hstart : site.styleStart = span.start := by rw [Site.styleStart, hstyle]
    cases value with
    | none =>
      have hpatch : ∀ value, site.stylePatch value
          = ⟨span.start, span.stop, Site.styleAttribute value⟩ := fun value => by
        rw [Site.stylePatch, hstyle]
      obtain ⟨toPatch, replaced, behind, hcut, hlength, hstop⟩ := hspan.exists_cut
      exact ⟨toPatch, replaced, behind, toPatch, "style=".toList,
        .of_patch hpatch hcut hlength hstop (fun _ => rfl) (hlength.trans hstart.symm)
          (leadsToValue_style _)⟩
    | some stretch =>
      have hpatch : ∀ value, site.stylePatch value = ⟨stretch.start, stretch.stop, value⟩ :=
        fun value => by rw [Site.stylePatch, hstyle]
      have hwithin := hvalue stretch rfl
      have hlow : span.start ≤ stretch.start := hwithin.low_le
      obtain ⟨before, rest, hbefore, hlength⟩ := isBoundary_iff.1 hspan.start
      dsimp only at hlength
      obtain ⟨toPatch, replaced, behind, hcut, htoPatch, hstop⟩ := hwithin.exists_cut
      obtain ⟨pre, rfl, -⟩ := exists_eq_append_of_byteLength_le (hbefore.trans hcut) (by
        omega)
      have hvalueStart : span.start + byteLength pre = stretch.start := by
        rw [byteLength_append] at htoPatch
        omega
      have hleads := (exists_attributeRead hstands.known hstands.name hstyle).leadsToValue rfl rfl
        (hcut.trans (List.append_assoc _ _ _)) hlength hvalueStart
      exact ⟨before ++ pre, replaced, behind, before, pre,
        .of_patch hpatch hcut htoPatch hstop (fun _ => List.append_assoc _ _ _)
          (hlength.trans hstart.symm) (hstart ▸ hleads)⟩

/-- What a style edit writes begins with a brace. -/
theorem exists_brace_of_expression {edit : StyleEdit} {value : Text} (h : edit.expression = .ok value) :
    ∃ more, value = '\x7b' :: more := by
  unfold StyleEdit.expression at h
  split at h
  · exact ⟨_, (Except.ok.inj h).symm⟩
  · cases h

/-- Whether a text is read as an object of strings in braces, whatever stands behind it. -/
structure IsContainer (value : Text) : Prop where
  brace : ∃ more, value = '\x7b' :: more
  read : ∃ properties, ∀ rest offset,
    readContainer? ⟨value ++ rest, offset⟩ = some (properties, ⟨rest, offset + byteLength value⟩)

/-- What a style edit writes is one, unless a line ends in a colour. -/
theorem isContainer_of_expression {edit : StyleEdit} {value : Text} (h : edit.expression = .ok value)
    (hline : (edit.backgroundColor.text ++ edit.textColor.text).any endsString = false) :
    IsContainer value := by
  have husable : StyleEdit.isUsableSize edit.fontSize = true := by
    by_contra hunusable
    rw [StyleEdit.expression_eq, if_neg hunusable] at h
    cases h
  obtain ⟨written, hwritten, hread⟩ := readContainer?_expression edit husable
  obtain rfl : written = value := Except.ok.inj (hwritten.symm.trans h)
  simp only [hline, Bool.false_eq_true, if_false] at hread
  exact ⟨exists_brace_of_expression h, _, hread⟩

/-! ## The style that is read -/

/-- A style edit that renames nothing makes one patch. -/
theorem patches_style {site : Site} {edit : StyleEdit} (hplain : edit.targetTag = none) (source : Text) :
    site.patches source (.style edit)
      = match edit.expression with
        | .ok value => .ok [site.stylePatch value]
        | .error cause => .error (.invalidStyle cause) := by
  have htarget : edit.target = .ok none := by rw [StyleEdit.target, hplain]
  rw [Site.patches, htarget]
  cases edit.expression <;> rfl

namespace StyleCut

variable {site : Site} {toPatch replaced behind before pre value : Text}

/-- A style edit that renames nothing is made if the source that it gives can be read. -/
theorem applyEdit (hcut : StyleCut source site toPatch replaced behind before pre)
    (h : sites dialect source = .ok found) (hsite : site ∈ found) {edit : StyleEdit}
    (haddress : edit.address = site.address) (hplain : edit.targetTag = none)
    (hvalue : edit.expression = .ok value) :
    Retouch.applyEdit dialect source (.style edit)
      = match sites dialect (before ++ (pre ++ (value ++ behind))) with
        | .ok _ => .ok (before ++ (pre ++ (value ++ behind)))
        | .error cause => .error (.unreadable cause) := by
  have hown : site.patches source (.style edit) = .ok [site.stylePatch value] := by
    rw [patches_style hplain, hvalue]
  refine applyEdit_of_applyAll h hsite (.style edit) haddress hown ?_
  have happly := @Patch.applyAll_single _ _ behind _ (hcut.start value) (hcut.stop value)
  rw [← hcut.cut, hcut.patched] at happly
  simpa using happly

/-- **The written attribute.** Where the last style attribute of an element begins where it was written,
it ends behind the value that was written, and that is its value. -/
theorem style_eq (hcut : StyleCut source site toPatch replaced behind before pre)
    (hvalue : IsContainer value) {now : List Site}
    (hnow : sites dialect (before ++ (pre ++ (value ++ behind))) = .ok now) {again : Site}
    (hagain : again ∈ now)
    (hstart : site.KeepsStyle again) :
    again.tag.style = some
      ⟨⟨site.styleStart, site.styleStart + byteLength pre + byteLength value⟩,
        some ⟨site.styleStart + byteLength pre,
          site.styleStart + byteLength pre + byteLength value⟩⟩ := by
  obtain ⟨style, hstyle, hbegin⟩ := Option.map_eq_some_iff.1 hstart
  obtain ⟨children, hstands⟩ := exists_stands hnow hagain
  obtain ⟨⟨more, rfl⟩, properties, hread⟩ := hvalue
  have hsource : before ++ (pre ++ ('\x7b' :: more ++ behind))
      = before ++ (pre ++ '\x7b' :: (more ++ behind)) := rfl
  have hwritten := (exists_attributeRead hstands.known hstands.name hstyle).eq_of_container
    hsource (hcut.begins.trans hbegin.symm) (hbegin ▸ hcut.leads) (hread behind _)
  obtain ⟨span, value⟩ := style
  dsimp only at hbegin hwritten
  rw [hstyle]
  simp only [Attribute.mk.injEq, hbegin] at hwritten
  rw [hwritten.2.1, hwritten.2.2]

/-- So that is the text of its value. -/
theorem styleText_eq (hcut : StyleCut source site toPatch replaced behind before pre) {again : Site}
    (hstyle : again.tag.style = some
      ⟨⟨site.styleStart, site.styleStart + byteLength pre + byteLength value⟩,
        some ⟨site.styleStart + byteLength pre,
          site.styleStart + byteLength pre + byteLength value⟩⟩) :
    again.styleText (before ++ (pre ++ (value ++ behind))) = some value := by
  have hslice := slice_append (before ++ pre) value behind
  rw [byteLength_append, hcut.begins] at hslice
  rw [Site.styleText, hstyle]
  simpa [Span.slice] using hslice

/-- Behind a style that is written last stands a mark that no attribute begins with. -/
theorem kind_behind (hcut : StyleCut source site toPatch replaced behind before pre)
    (h : sites dialect source = .ok found) (hsite : site ∈ found) (hlast : site.writesLast = true)
    (n : Nat) : (scan .code ⟨behind, n⟩).token.kind ∈
      [.punct .slash, .punct .greater, .punct .less, .punct .shiftLeft] := by
  obtain ⟨children, hstands⟩ := exists_stands h hsite
  obtain ⟨toInsert, rest, hsource, hlength, hkind⟩ := hstands.known.kind_insertAt hstands.name
  have hstop : (site.stylePatch []).stop = site.tag.insertAt := eq_of_beq hlast
  obtain ⟨-, rfl⟩ := append_inj_of_byteLength_eq
    (hsource.symm.trans (hcut.cut.trans (List.append_assoc _ _ _).symm)) (by
      rw [byteLength_append, hcut.start [], hcut.stop [], hstop, hlength])
  exact kind_scan_ends hkind n

/-- **The place of the style.** The last style attribute of an element begins where it was written exactly
if the tag was read up to there and no style attribute stands behind. -/
theorem keepsStyle_iff (hcut : StyleCut source site toPatch replaced behind before pre)
    (h : sites dialect source = .ok found) (hsite : site ∈ found) (hvalue : IsContainer value)
    {now : List Site} (hnow : sites dialect (before ++ (pre ++ (value ++ behind))) = .ok now)
    {again : Site} (hagain : again ∈ now) :
    site.KeepsStyle again ↔ site.ReachesStyle again (before ++ (pre ++ (value ++ behind))) := by
  obtain ⟨children, hstands⟩ := exists_stands hnow hagain
  constructor
  · intro hkept
    obtain ⟨style, hstyle, hstart⟩ := Option.map_eq_some_iff.1 hkept
    refine ⟨hstart ▸ hstands.known.readTo_style hstands.name hstyle, .inr fun other hother => ?_⟩
    obtain rfl := Option.some.inj (hstyle.symm.trans hother)
    exact Nat.le_of_eq hstart
  · rintro ⟨hto, hlast⟩
    obtain ⟨⟨more, rfl⟩, properties, hread⟩ := hvalue
    obtain ⟨style, hstyle, hle, hwritten⟩ :=
      hto.style_of_container hstands.name rfl hcut.begins hcut.leads (hread behind _)
    rw [Site.KeepsStyle, hstyle]
    rcases hlast with hlast | hlast
    · obtain ⟨rfl, -⟩ := hwritten (hcut.kind_behind h hsite hlast _)
      rfl
    · exact congrArg some (Nat.le_antisymm (hlast style hstyle) hle)

/-- **Without attributes**, the element that begins at the same sign has the same name and the style. No
type arguments stand behind its name. -/
theorem keepsStyle_of_isBare (hcut : StyleCut source site toPatch replaced behind before pre)
    (h : sites dialect source = .ok found) (hsite : site ∈ found) (hbare : site.isBare = true)
    (hvalue : IsContainer value) {now : List Site}
    (hnow : sites dialect (before ++ (pre ++ (value ++ behind))) = .ok now) {again : Site}
    (hagain : again ∈ now) (hanchor : again.anchor = site.anchor) :
    site.KeepsStyle again ∧ again.name = site.name ∧ again.tag.nameSpan = site.tag.nameSpan ∧
      (skipGap .blank behind 0 false).cursor.rest.head? ≠ some '<' := by
  obtain ⟨children, hstands⟩ := exists_stands h hsite
  obtain ⟨children', hstands'⟩ := exists_stands hnow hagain
  obtain ⟨⟨more, rfl⟩, properties, hread⟩ := hvalue
  have hinsert : site.tag.insertAt = site.tag.nameSpan.stop := eq_of_beq hbare
  obtain ⟨_, _, -, -, hbehind⟩ := hstands.known.behindName hstands.name
  have hstyle : site.tag.style = none := hbehind.unstyled hinsert
  have hstart : site.styleStart = site.tag.insertAt + 1 := by rw [Site.styleStart, hstyle]
  have hpatch : site.stylePatch ('\x7b' :: more)
      = .insertion site.tag.insertAt (' ' :: Site.styleAttribute ('\x7b' :: more)) := by
    rw [Site.stylePatch, hstyle]
  -- Nothing is replaced, and the style stands behind a blank.
  have htoPatch := hcut.start ('\x7b' :: more)
  have hreplaced := hcut.stop ('\x7b' :: more)
  have hpatched := hcut.patched ('\x7b' :: more)
  rw [hpatch] at htoPatch hreplaced hpatched
  obtain rfl : replaced = [] :=
    eq_nil_of_byteLength_eq_zero (Nat.add_left_cancel (hreplaced.trans (Nat.add_zero _).symm))
  have hedited : before ++ (pre ++ ('\x7b' :: more ++ behind))
      = toPatch ++ ' ' :: ("style=".toList ++ '\x7b' :: (more ++ behind)) := by
    rw [← List.append_assoc pre, ← List.append_assoc before, ← hpatched, List.append_assoc]
    exact congrArg (fun t => toPatch ++ ' ' :: t) (List.append_assoc _ _ _)
  obtain ⟨hname, hspan, hnew, hend⟩ := hstands.known.style_of_bare hstands'.known hstands.name
    hstands'.name hinsert hcut.cut hedited htoPatch hanchor (hread behind _)
  refine ⟨by rw [Site.KeepsStyle, hnew, hstart]; rfl, hname, hspan, fun hless => ?_⟩
  -- Behind the style the tag ends, and not with that sign.
  generalize site.tag.insertAt + 7 + byteLength ('\x7b' :: more) = n at hend
  have hmark : ∀ mark : Punct, (scan .code ⟨behind, n⟩).token.kind = .punct mark →
      mark.text.head? = some '<' := by
    intro mark hmark
    have hspelt := ((Scanned.solid_scan .code _).mark mark hmark).1
    rw [Scanned.here_scan_gap .code (by decide)] at hspelt
    rw [(skipGap_offset .blank behind 0 n false).1, hspelt] at hless
    cases mark <;> exact hless
  simp only [List.mem_cons, List.not_mem_nil, or_false] at hend
  rcases hend with hslash | hgreater
  · exact absurd (hmark _ hslash) (by decide)
  · exact absurd (hmark _ hgreater) (by decide)

end StyleCut

/-- What a style edit makes of a source, at a site of it: it puts a text in the place of `replaced`, and is
made if the source that this gives can be read. -/
structure Restyled (dialect : Dialect) (source : Text) (site : Site) (edit : StyleEdit)
    (value before replaced behind : Text) : Prop where
  value_eq : edit.expression = .ok value
  cut : source = before ++ (replaced ++ behind)
  start : byteLength before = (site.stylePatch value).start
  stop : (site.stylePatch value).start + byteLength replaced = (site.stylePatch value).stop
  applied : applyEdit dialect source (.style edit)
    = match sites dialect (before ++ (site.stylePatch value).text ++ behind) with
      | .ok _ => .ok (before ++ (site.stylePatch value).text ++ behind)
      | .error cause => .error (.unreadable cause)
  /-- Where a style attribute is read that begins where one was written, its value is the style. -/
  kept : ∀ now, sites dialect (before ++ (site.stylePatch value).text ++ behind) = .ok now →
    ∀ again ∈ now, site.KeepsStyle again →
      again.styleText (before ++ (site.stylePatch value).text ++ behind) = some value
  /-- One begins there exactly if the tag is read up to there and no style attribute stands behind. -/
  placed : ∀ now, sites dialect (before ++ (site.stylePatch value).text ++ behind) = .ok now →
    ∀ again ∈ now, site.KeepsStyle again ↔
      site.ReachesStyle again (before ++ (site.stylePatch value).text ++ behind)
  /-- If there were no attributes, that is so of the element that begins at the same sign, and it has the
  same name. No element is read there if type arguments stand behind the name, for the style is written
  before those. -/
  bare : site.isBare = true →
    ∀ now, sites dialect (before ++ (site.stylePatch value).text ++ behind) = .ok now →
      ∀ again ∈ now, again.anchor = site.anchor →
        site.KeepsStyle again ∧ again.name = site.name ∧ again.tag.nameSpan = site.tag.nameSpan ∧
          (skipGap .blank behind 0 false).cursor.rest.head? ≠ some '<'

/-- **A style is read back.** A style edit that renames nothing, with a usable font size and colours
without line breaks, replaces the value of the last style attribute, a bare style attribute, or nothing
behind the other attributes. It succeeds exactly if the new source can be read, and what is then read as
the style there is exactly what was written. -/
theorem exists_restyled (h : sites dialect source = .ok found) {site : Site} (hsite : site ∈ found)
    {edit : StyleEdit} (haddress : edit.address = site.address) (hplain : edit.targetTag = none)
    (husable : StyleEdit.isUsableSize edit.fontSize = true)
    (hline : (edit.backgroundColor.text ++ edit.textColor.text).any endsString = false) :
    ∃ value before replaced behind, Restyled dialect source site edit value before replaced behind := by
  obtain ⟨value, hvalue⟩ : ∃ value, edit.expression = .ok value :=
    ⟨_, by rw [StyleEdit.expression_eq, if_pos husable]⟩
  have hcontainer := isContainer_of_expression hvalue hline
  obtain ⟨toPatch, replaced, behind, before, pre, hcut⟩ := exists_styleCut h hsite
  have hedited : toPatch ++ (site.stylePatch value).text ++ behind
      = before ++ (pre ++ (value ++ behind)) := by
    rw [hcut.patched, List.append_assoc, List.append_assoc]
  refine ⟨value, toPatch, replaced, behind, ?_⟩
  constructor
  case value_eq => exact hvalue
  case cut => exact hcut.cut
  case start => exact hcut.start value
  case stop => exact hcut.stop value
  all_goals rw [hedited]
  case applied => exact hcut.applyEdit h hsite haddress hplain hvalue
  case kept =>
    intro now hnow again hagain hkept
    exact hcut.styleText_eq (hcut.style_eq hcontainer hnow hagain hkept)
  case placed =>
    intro now hnow again hagain
    exact hcut.keepsStyle_iff h hsite hcontainer hnow hagain
  case bare =>
    intro hbare now hnow again hagain hanchor
    exact hcut.keepsStyle_of_isBare h hsite hbare hcontainer hnow hagain hanchor

/-- The edit of a tag without attributes. -/
theorem exists_restyled_bare :
    let edit : StyleEdit :=
      ⟨.of "p".toList 0, ⟨"red".toList, by decide⟩, ⟨"blue".toList, by decide⟩, 16, false, none⟩
    ∃ found, sites .tsx "<p>a</p>".toList = .ok found ∧ ∃ site ∈ found, site.isBare = true ∧
      edit.address = site.address ∧ edit.targetTag = none ∧
      StyleEdit.isUsableSize edit.fontSize = true ∧
      (edit.backgroundColor.text ++ edit.textColor.text).any endsString = false ∧
      (applyEdit .tsx "<p>a</p>".toList (.style edit)).toOption.isSome = true ∧
      ∃ value before replaced behind,
        Restyled .tsx "<p>a</p>".toList site edit value before replaced behind := by
  intro edit
  let site : Site := ⟨.of "p".toList 0, "p".toList,
    ⟨some "p".toList, ⟨0, 8⟩, ⟨0, 3⟩, ⟨1, 2⟩, some ⟨⟨4, 8⟩, ⟨6, 7⟩⟩, none, 2⟩, "a".toList, true⟩
  have hfound : sites .tsx "<p>a</p>".toList = .ok [site] := by decide +kernel
  have husable : StyleEdit.isUsableSize edit.fontSize = true := by decide +kernel
  exact ⟨_, hfound, site, List.mem_cons_self, rfl, rfl, rfl, husable, rfl, by decide +kernel,
    exists_restyled hfound List.mem_cons_self rfl rfl husable rfl⟩

/-- A style is written before type arguments, and what is then written cannot be read. Behind them it
could be. -/
theorem exists_style_before_types :
    let edit : StyleEdit :=
      ⟨.of "div".toList 0, ⟨"red".toList, by decide⟩, ⟨"blue".toList, by decide⟩, 16, false, none⟩
    addresses .tsx "<div<string> />".toList = .ok [edit.address] ∧
      (applyEdit .tsx "<div<string> />".toList (.style edit)).toOption = none ∧
      ∃ value ∈ edit.expression.toOption,
        let edited := "<div<string> style=".toList ++ value ++ " />".toList
        (sites .tsx edited).toOption.map (fun found => found.map fun site => site.styleText edited)
          = some [some value] := by
  decide +kernel

/-! ## Another style -/

/-- **A later style edit replaces an earlier one.** Where the element that is found at the address after
the first edit has its last style attribute where that was written, a second style edit makes of the
edited source what it makes of the first one, also if that is an error. That is so if it had no attributes
before and begins at the same sign, or if its tag is read up to that place and no style attribute stands
behind. -/
theorem applyEdit_again (h : sites dialect source = .ok found) {site : Site} (hsite : site ∈ found)
    {first second : StyleEdit} (hfirst : first.address = site.address)
    (hsecond : second.address = site.address) (hplain : first.targetTag = none)
    (hplain' : second.targetTag = none)
    (hline : (first.backgroundColor.text ++ first.textColor.text).any endsString = false)
    {edited : Text} (hedited : applyEdit dialect source (.style first) = .ok edited) {now : List Site}
    (hnow : sites dialect edited = .ok now) {again : Site}
    (hagain : findSite now site.address = some again)
    (hkept : site.KeepsStyle again ∨ site.isBare = true ∧ again.anchor = site.anchor ∨
      site.ReachesStyle again edited) :
    applyEdit dialect edited (.style second) = applyEdit dialect source (.style second) := by
  obtain ⟨toPatch, replaced, behind, before, pre, hcut⟩ := exists_styleCut h hsite
  have hagain' : again ∈ now := List.mem_of_find?_eq_some hagain
  have haddress : again.address = site.address := by simpa using List.find?_some hagain
  cases hvalue : first.expression with
  | error cause =>
    rw [applyEdit_of_error h hsite (.style first) hfirst
      (by rw [patches_style hplain, hvalue])] at hedited
    cases hedited
  | ok value =>
    have happly := (hcut.applyEdit h hsite hfirst hplain hvalue).symm.trans hedited
    obtain rfl : before ++ (pre ++ (value ++ behind)) = edited := by
      split at happly
      · exact Except.ok.inj happly
      · cases happly
    have hcontainer := isContainer_of_expression hvalue hline
    have hkept' : site.KeepsStyle again := by
      rcases hkept with hkept | ⟨hbare, hanchor⟩ | hreaches
      · exact hkept
      · exact (hcut.keepsStyle_of_isBare h hsite hbare hcontainer hnow hagain' hanchor).1
      · exact (hcut.keepsStyle_iff h hsite hcontainer hnow hagain').2 hreaches
    have hstyle := hcut.style_eq hcontainer hnow hagain' hkept'
    cases hvalue' : second.expression with
    | error cause =>
      rw [applyEdit_of_error hnow hagain' (.style second) (hsecond.trans haddress.symm)
          (by rw [patches_style hplain', hvalue']),
        applyEdit_of_error h hsite (.style second) hsecond
          (by rw [patches_style hplain', hvalue'])]
    | ok other =>
      -- The second style is put in the place of the value of the first one.
      have hpatch : again.stylePatch other = ⟨site.styleStart + byteLength pre,
          site.styleStart + byteLength pre + byteLength value, other⟩ := by
        rw [Site.stylePatch, hstyle]
      have hsingle : Patch.applyAll (before ++ (pre ++ (value ++ behind))) [again.stylePatch other]
          = .ok (before ++ (pre ++ (other ++ behind))) := by
        rw [hpatch]
        have happly := @Patch.applyAll_single (before ++ pre) value behind
          ⟨site.styleStart + byteLength pre, site.styleStart + byteLength pre + byteLength value, other⟩
          (by rw [byteLength_append, hcut.begins]) rfl
        simpa using happly
      have hedit := applyEdit_of_applyAll hnow hagain' (.style second)
        (hsecond.trans haddress.symm) (by rw [patches_style hplain', hvalue']) hsingle
      exact hedit.trans (hcut.applyEdit h hsite hsecond hplain' hvalue').symm

/-- Two edits of a tag whose style is a string. -/
theorem applyEdit_again_string :
    let source := "<p style=\"a\" b>c</p>".toList
    let first : StyleEdit :=
      ⟨.of "p".toList 0, ⟨"red".toList, by decide⟩, ⟨"blue".toList, by decide⟩, 16, false, none⟩
    let second : StyleEdit :=
      ⟨.of "p".toList 0, ⟨"rgb(0, 0, 0)".toList, by decide⟩, .white, 12.5, true, none⟩
    ∃ found, sites .tsx source = .ok found ∧ ∃ site ∈ found, ∃ edited,
      applyEdit .tsx source (.style first) = .ok edited ∧ ∃ now, sites .tsx edited = .ok now ∧
        ∃ again, findSite now site.address = some again ∧ site.KeepsStyle again ∧
          applyEdit .tsx edited (.style second) = applyEdit .tsx source (.style second) := by
  intro source first second
  let edited := ("<p style=\x7b\x7b backgroundColor: \"red\", color: \"blue\", fontSize: \"16px\", "
    ++ "fontWeight: \"normal\" \x7d\x7d b>c</p>").toList
  let site : Site := ⟨.of "p".toList 0, "p".toList,
    ⟨some "p".toList, ⟨0, 20⟩, ⟨0, 15⟩, ⟨1, 2⟩, some ⟨⟨16, 20⟩, ⟨18, 19⟩⟩,
      some ⟨⟨3, 12⟩, some ⟨9, 12⟩⟩, 14⟩, "c".toList, true⟩
  let again : Site := ⟨.of "p".toList 0, "p".toList,
    ⟨some "p".toList, ⟨0, 100⟩, ⟨0, 95⟩, ⟨1, 2⟩, some ⟨⟨96, 100⟩, ⟨98, 99⟩⟩,
      some ⟨⟨3, 92⟩, some ⟨9, 92⟩⟩, 94⟩, "c".toList, true⟩
  have hfound : sites .tsx source = .ok [site] := by decide +kernel
  have hedited : applyEdit .tsx source (.style first) = .ok edited :=
    mem_toOption.1 (by decide +kernel)
  have hnow : sites .tsx edited = .ok [again] := by decide +kernel
  exact ⟨_, hfound, site, List.mem_cons_self, edited, hedited, _, hnow, again, rfl, rfl,
    applyEdit_again hfound List.mem_cons_self rfl rfl rfl rfl rfl hedited hnow rfl (.inl rfl)⟩

/-- A line separator in a colour ends a comment that the element stands in for a reading of the whole
source that then holds: the element is gone, and so is its style. -/
theorem exists_style_gone :
    let source := "a < <p>(z: [x // <i/>\n'</p> + ']) => b > (c) //'".toList
    let first : StyleEdit :=
      ⟨.of "i".toList 0, ⟨"rgb(\u2028,//)".toList, by decide⟩, ⟨"blue".toList, by decide⟩, 16, false, none⟩
    let second : StyleEdit :=
      ⟨.of "i".toList 0, ⟨"red".toList, by decide⟩, ⟨"blue".toList, by decide⟩, 16, false, none⟩
    (applyEdit .tsx source (.style second)).toOption.isSome = true ∧
      ∃ edited ∈ (applyEdit .tsx source (.style first)).toOption,
        (applyEdit .tsx edited (.style second)).toOption = none := by
  decide +kernel

end Retouch
