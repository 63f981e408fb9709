import Retouch.Proofs.Edit.Listing
import Retouch.Proofs.Edit.Restyle
import Retouch.Proofs.Script.TargetName

/-!
# A style edit with a new name

A style edit that renames its element puts the new name in the place of the old one in both tags, and the
style between them (`exists_renamed`). An element that is read at the same sign afterwards has the new
name, and is addressed by it unless the name is `this`: that is accepted as a new name, and read as the
name of a component. Where the other sites are still read, they keep their names and their order.
-/

namespace Retouch

open Text Script

variable {dialect : Dialect} {source : Text} {found : List Site}

/-! ## The parts of a source -/

/-- The parts of a source around the names in the tags of an element and what a style is put in the place
of. Without a closing tag `closed` is empty. -/
structure RenameParts where
  before : Text
  opened : Text
  toStyle : Text
  replaced : Text
  toClosing : Text
  closed : Text
  behind : Text

namespace RenameParts

/-- The text from the name on to its end. -/
def behindName (parts : RenameParts) (style closed : Text) : Text :=
  parts.toStyle ++ (style ++ (parts.toClosing ++ (closed ++ parts.behind)))

/-- The whole text with some names and a style. -/
def fill (parts : RenameParts) (opened style closed : Text) : Text :=
  parts.before ++ (opened ++ parts.behindName style closed)

end RenameParts

/-- Whether the parts are those of a source at a site of it, `value` being the value of the style. -/
structure RenameCut (source : Text) (site : Site) (value : Text) (parts : RenameParts) : Prop where
  source_eq : source = parts.fill parts.opened parts.replaced parts.closed
  nameStart : byteLength parts.before = site.tag.nameSpan.start
  nameStop : site.tag.nameSpan.start + byteLength parts.opened = site.tag.nameSpan.stop
  styleStart : site.tag.nameSpan.stop + byteLength parts.toStyle = (site.stylePatch value).start
  styleStop : (site.stylePatch value).start + byteLength parts.replaced = (site.stylePatch value).stop
  closing : ∀ closing, site.tag.closing = some closing →
    (site.stylePatch value).stop + byteLength parts.toClosing = closing.name.start ∧
      closing.name.start + byteLength parts.closed = closing.name.stop
  single : site.tag.closing = none → parts.closed = []

/-- A span of a text is cut out of what is left of it behind another place. -/
theorem Span.Within.exists_cut_behind {before rest : Text} {span : Span} {low high : Nat}
    (h : span.Within source low high) (hsource : source = before ++ rest)
    (hbefore : byteLength before ≤ span.start) :
    ∃ l m r, rest = l ++ (m ++ r) ∧ byteLength before + byteLength l = span.start ∧
      span.start + byteLength m = span.stop := by
  obtain ⟨toStart, m, r, hcut, hstart, hstop⟩ := h.exists_cut
  obtain ⟨l, rfl, rfl⟩ := exists_eq_append_of_byteLength_le (hsource.symm.trans hcut) (by omega)
  rw [byteLength_append] at hstart
  exact ⟨l, m, r, rfl, hstart, hstop⟩

/-- **The parts of a source** at a site of it. -/
theorem exists_renameCut (h : sites dialect source = .ok found) {site : Site} (hsite : site ∈ found)
    (value : Text) : ∃ parts, RenameCut source site value parts := by
  have hplaced := placed_of_sites h hsite
  have hstyle := Site.stylePatch_within hplaced value
  obtain ⟨before, opened, rest, hsource, hstart, hstop⟩ := hplaced.nameSpan.exists_cut
  have hsource' : source = (before ++ opened) ++ rest := by rw [hsource, List.append_assoc]
  have hlow : byteLength (before ++ opened) ≤ (site.stylePatch value).start := by
    rw [byteLength_append, hstart, hstop]
    exact hstyle.low_le
  obtain ⟨toStyle, replaced, behind, rfl, hstyleStart, hstyleStop⟩ :=
    hstyle.exists_cut_behind hsource' hlow
  rw [byteLength_append, hstart, hstop] at hstyleStart
  cases hclosing : site.tag.closing with
  | none =>
    refine ⟨⟨before, opened, toStyle, replaced, behind, [], []⟩, ?_, hstart, hstop, hstyleStart,
      hstyleStop, ?_, fun _ => rfl⟩
    · rw [hsource, RenameParts.fill, RenameParts.behindName]
      simp
    · intro closing hsome
      rw [hclosing] at hsome
      cases hsome
  | some closing =>
    have hname := Site.closingName_within hplaced hclosing
    have hsource'' : source = (before ++ (opened ++ (toStyle ++ replaced))) ++ behind := by
      rw [hsource]
      simp
    have hlength : byteLength (before ++ (opened ++ (toStyle ++ replaced)))
        = (site.stylePatch value).stop := by
      have : (site.stylePatch value).start + byteLength replaced = (site.stylePatch value).stop :=
        hstyleStop
      have : site.tag.nameSpan.stop + byteLength toStyle = (site.stylePatch value).start := hstyleStart
      simp only [byteLength_append]
      omega
    have hbehind : (site.stylePatch value).stop ≤ closing.name.start :=
      Nat.le_trans hstyle.le_high (Nat.le_trans (Nat.le_of_lt hplaced.insertAt_lt) hname.low_le)
    obtain ⟨toClosing, closed, last, rfl, hclosingStart, hclosingStop⟩ :=
      hname.exists_cut_behind hsource'' (hlength ▸ hbehind)
    rw [hlength] at hclosingStart
    refine ⟨⟨before, opened, toStyle, replaced, toClosing, closed, last⟩, hsource, hstart, hstop,
      hstyleStart, hstyleStop, ?_, ?_⟩
    · intro other hother
      obtain rfl := Option.some.inj (hclosing.symm.trans hother)
      exact ⟨hclosingStart, hclosingStop⟩
    · intro hnone
      rw [hclosing] at hnone
      cases hnone

/-! ## The new source -/

/-- The name that stands in a tag afterwards, `old` being what stood there. -/
def Site.newName (site : Site) (t old : Text) : Text := if t = site.name then old else t

/-- The source with the new name and the style. -/
def RenameParts.edited (parts : RenameParts) (site : Site) (t value : Text) : Text :=
  parts.fill (site.newName t parts.opened) (site.stylePatch value).text
    (if site.tag.closing.isSome then site.newName t parts.closed else [])

/-- The patches of a style edit that renames, in order: the name, the style and the name in the closing
tag. -/
theorem Site.inOrder_rename {site : Site} (hplaced : site.tag.Placed source) {t : Text}
    (ht : t ≠ site.name) (value : Text) :
    Patch.inOrder (site.stylePatch value :: site.renamePatches (some t))
      = ⟨site.tag.nameSpan.start, site.tag.nameSpan.stop, t⟩ :: site.stylePatch value
        :: match site.tag.closing with
          | some closing => [⟨closing.name.start, closing.name.stop, t⟩]
          | none => [] := by
  have hstyle := stylePatch_within hplaced value
  have hfirst : Patch.Precedes ⟨site.tag.nameSpan.start, site.tag.nameSpan.stop, t⟩
      (site.stylePatch value) := precedes_style hplaced hstyle
  rw [renamePatches, if_neg ht]
  refine Patch.inOrder_eq_of_pairwise ?_ (.swap _ _ _)
  cases hclosing : site.tag.closing with
  | none => exact List.pairwise_pair.2 hfirst
  | some closing =>
    have hsecond : (site.stylePatch value).Precedes ⟨closing.name.start, closing.name.stop, t⟩ :=
      precedes_closingName hplaced hclosing hstyle
    have hbetween : Patch.Precedes ⟨site.tag.nameSpan.start, site.tag.nameSpan.stop, t⟩
        ⟨closing.name.start, closing.name.stop, t⟩ :=
      precedes_closingName hplaced hclosing hplaced.nameSpan
    simp [hfirst, hsecond, hbetween]

namespace RenameCut

variable {site : Site} {t value : Text} {parts : RenameParts}

/-- What the patches of the edit make of the source. -/
theorem applyAll_eq (hcut : RenameCut source site value parts) (hplaced : site.tag.Placed source) :
    Patch.applyAll source (site.stylePatch value :: site.renamePatches (some t))
      = .ok (parts.edited site t value) := by
  have hstart := hcut.nameStart
  have hstop := hcut.nameStop
  have hstyleStart := hcut.styleStart
  rw [hcut.source_eq, RenameParts.edited, RenameParts.fill, RenameParts.fill, RenameParts.behindName,
    RenameParts.behindName]
  by_cases ht : t = site.name
  · -- Only the style is written.
    have hsame : (if site.tag.closing.isSome = true then parts.closed else []) = parts.closed := by
      cases hclosing : site.tag.closing with
      | none => rw [hcut.single hclosing]; rfl
      | some closing => rfl
    have hbefore : byteLength (parts.before ++ (parts.opened ++ parts.toStyle))
        = (site.stylePatch value).start := by
      simp only [byteLength_append]
      omega
    have happly := @Patch.applyAll_single _ _ (parts.toClosing ++ (parts.closed ++ parts.behind)) _
      hbefore hcut.styleStop
    rw [Site.renamePatches, if_pos ht, Site.newName, if_pos ht, Site.newName, if_pos ht, hsame]
    simpa using happly
  · rw [Site.newName, if_neg ht, Site.newName, if_neg ht, Patch.applyAll_eq_ok_iff,
      Site.inOrder_rename hplaced ht]
    -- The closing tag, the style and the name, from the end on.
    have hclosed : Patch.Weaves (site.stylePatch value).stop
        (parts.toClosing ++ (parts.closed ++ parts.behind))
        (match site.tag.closing with
          | some closing => [⟨closing.name.start, closing.name.stop, t⟩]
          | none => [])
        (parts.toClosing ++ ((if site.tag.closing.isSome = true then t else []) ++ parts.behind)) := by
      cases hclosing : site.tag.closing with
      | none =>
        rw [hcut.single hclosing]
        exact .nil _ _
      | some closing =>
        obtain ⟨hclosingStart, hclosingStop⟩ := hcut.closing closing hclosing
        have hall := Patch.Weaves.cons (p := ⟨closing.name.start, closing.name.stop, t⟩) hclosingStart
          hclosingStop (.nil closing.name.stop parts.behind)
        simpa only [List.append_assoc, Option.isSome_some, if_true] using hall
    have hstyled := Patch.Weaves.cons hstyleStart hcut.styleStop hclosed
    have hall := Patch.Weaves.cons (p := ⟨site.tag.nameSpan.start, site.tag.nameSpan.stop, t⟩)
      (show 0 + byteLength parts.before = site.tag.nameSpan.start by omega) hstop hstyled
    simpa only [List.append_assoc] using hall

/-- A style edit with a new name is made if the source that it gives can be read. -/
theorem applyEdit_eq (hcut : RenameCut source site value parts) (h : sites dialect source = .ok found)
    (hsite : site ∈ found) {edit : StyleEdit} (haddress : edit.address = site.address)
    (htarget : edit.target = .ok (some t)) (hvalue : edit.expression = .ok value) :
    applyEdit dialect source (.style edit)
      = match sites dialect (parts.edited site t value) with
        | .ok _ => .ok (parts.edited site t value)
        | .error cause => .error (.unreadable cause) := by
  have hown : site.patches source (.style edit)
      = .ok (site.stylePatch value :: site.renamePatches (some t)) := by
    rw [Site.patches, hvalue, htarget]
  exact applyEdit_of_applyAll h hsite (.style edit) haddress hown (hcut.applyAll_eq (placed_of_sites h hsite))

/-- Where the other sites are still read, all names are those of the sites that are left, but for the one that
is read at the sign of the element. -/
theorem map_name_eq (hcut : RenameCut source site value parts) (h : sites dialect source = .ok found)
    (hsite : site ∈ found) {edit : StyleEdit} (htarget : edit.target = .ok (some t))
    (hvalue : edit.expression = .ok value) {now : List Site}
    (hnow : sites dialect (parts.edited site t value) = .ok now) {again : Site} (hagain : again ∈ now)
    (hanchor : again.anchor = site.anchor)
    (hothers : OthersRead source (site.stylePatch value :: site.renamePatches (some t)) found now
      site.anchor) :
    now.map Site.name = namesWith site.anchor again.name
      (sparedSites (site.stylePatch value :: site.renamePatches (some t)) found) := by
  have happly := hcut.applyAll_eq (t := t) (placed_of_sites h hsite)
  refine hothers.map_name_eq h hnow happly hagain ?_
  rw [hanchor]
  have hown : site.patches source (.style edit)
      = .ok (site.stylePatch value :: site.renamePatches (some t)) := by
    rw [Site.patches, hvalue, htarget]
  exact image_anchor h hsite hown happly

end RenameCut

/-! ## What stands behind the name -/

/-- What the patch of a style can be: one that adds an attribute behind the others, one that replaces a
bare attribute, or one that replaces a value. -/
inductive Site.StyleShape (site : Site) (value : Text) : Patch → Prop where
  | added : site.tag.style = none →
      StyleShape site value (.insertion site.tag.insertAt (' ' :: styleAttribute value))
  | bare {span : Span} : site.tag.style = some ⟨span, none⟩ →
      StyleShape site value ⟨span.start, span.stop, styleAttribute value⟩
  | value {span stretch : Span} : site.tag.style = some ⟨span, some stretch⟩ →
      StyleShape site value ⟨stretch.start, stretch.stop, value⟩

theorem Site.styleShape (site : Site) (value : Text) : site.StyleShape value (site.stylePatch value) := by
  unfold stylePatch
  split
  · next hstyle => exact .value hstyle
  · next hstyle => exact .bare hstyle
  · next hstyle => exact .added hstyle

namespace RenameCut

variable {site : Site} {parts : RenameParts} {more : Text} {children : List Markup}

/-- The source up to the end of the name, and what stands behind that. -/
theorem source_eq_append {value : Text} (hcut : RenameCut source site value parts) :
    source = (parts.before ++ parts.opened) ++ parts.behindName parts.replaced parts.closed := by
  rw [hcut.source_eq, RenameParts.fill, List.append_assoc]

theorem byteLength_toBehind {value : Text} (hcut : RenameCut source site value parts) :
    byteLength (parts.before ++ parts.opened) = site.tag.nameSpan.stop := by
  rw [byteLength_append, hcut.nameStart, hcut.nameStop]

/-- A name before the style ends there, unless an escape stood behind the old name. -/
theorem ends (hcut : RenameCut source site ('\x7b' :: more) parts) (hstands : site.Stands source children)
    (hback : ∀ rest, parts.behindName parts.replaced parts.closed ≠ '\\' :: rest) (u closed : Text) :
    Ends u (parts.behindName (site.stylePatch ('\x7b' :: more)).text closed) := by
  have hstyleStart := hcut.styleStart
  have hbefore := hcut.byteLength_toBehind
  have hsource := hcut.source_eq_append
  -- The old name ended before a character that goes on with no word.
  have hold : ∀ d rest, parts.behindName parts.replaced parts.closed = d :: rest →
      isIdentifierPart d = false ∧ d ≠ '-' ∧ d ≠ '\\' := by
    intro d rest hcons
    obtain ⟨hpart, hhyphen⟩ := hstands.known.stop_name hstands.name hsource hbefore hcons
    exact ⟨hpart, hhyphen, fun hbackslash => hback rest (hbackslash ▸ hcons)⟩
  have hnew : ∃ d rest, parts.behindName (site.stylePatch ('\x7b' :: more)).text closed = d :: rest ∧
      isIdentifierPart d = false ∧ d ≠ '-' ∧ d ≠ '\\' := by
    unfold RenameParts.behindName at hold ⊢
    cases htoStyle : parts.toStyle with
    | cons d m =>
      obtain ⟨hpart, hhyphen, hbackslash⟩ := hold d _ (by rw [htoStyle]; rfl)
      exact ⟨d, _, rfl, hpart, hhyphen, hbackslash⟩
    | nil =>
      have hshape := site.styleShape ('\x7b' :: more)
      rw [htoStyle, byteLength_nil, Nat.add_zero] at hstyleStart
      generalize site.stylePatch ('\x7b' :: more) = p at hshape hstyleStart
      cases hshape with
      | added _ => exact ⟨' ', _, rfl, by decide, by decide, by decide⟩
      | value _ => exact ⟨'\x7b', _, rfl, by decide, by decide, by decide⟩
      | bare hstyle =>
        -- An attribute directly behind the name would go on with it.
        have hread := exists_attributeRead hstands.known hstands.name hstyle
        obtain ⟨c, rest, hrest, hbegins⟩ := hread.exists_cons hsource (hbefore.trans hstyleStart)
        obtain ⟨hpart, -, hbackslash⟩ := hold c rest hrest
        rcases hbegins with hbegins | hbegins
        · rw [isIdentifierPart_of_isIdentifierStart hbegins] at hpart
          cases hpart
        · exact absurd hbegins hbackslash
  obtain ⟨d, rest, hd, hpart, hhyphen, hbackslash⟩ := hnew
  rw [hd]
  exact ends_cons hpart hhyphen hbackslash u rest

/-- Behind the new name stands what stood behind the old one, or the style. -/
theorem exists_gap (hcut : RenameCut source site ('\x7b' :: more) parts)
    (hstands : site.Stands source children) (closed : Text) :
    ∃ d rest n o, Cursor.Gap ⟨parts.behindName (site.stylePatch ('\x7b' :: more)).text closed, n⟩
        ⟨d :: rest, o⟩ ∧ d ∉ [':', '.'] := by
  have hstyleStart := hcut.styleStart
  have hbefore := hcut.byteLength_toBehind
  have hsource := hcut.source_eq_append
  obtain ⟨toStop, u, hcut', hlength, hbehind⟩ := hstands.known.behindName hstands.name
  obtain ⟨-, rfl⟩ := append_inj_of_byteLength_eq (hcut'.symm.trans hsource)
    (hlength.trans hbefore.symm)
  have hshape := site.styleShape ('\x7b' :: more)
  unfold RenameParts.behindName at hbehind ⊢
  generalize site.stylePatch ('\x7b' :: more) = p at hshape hstyleStart
  have hends : EndsGap 's' := ⟨by decide, by decide, by decide⟩
  by_cases hbare : site.tag.insertAt = site.tag.nameSpan.stop
  · -- The style is the only attribute, and stands behind a blank.
    have hnone := hbehind.unstyled hbare
    cases hshape with
    | bare hstyle | value hstyle =>
      rw [hnone] at hstyle
      cases hstyle
    | added _ =>
      have hnothing : parts.toStyle = [] := by
        refine eq_nil_of_byteLength_eq_zero ?_
        have hinsert : site.tag.nameSpan.stop + byteLength parts.toStyle = site.tag.insertAt := hstyleStart
        omega
      rw [hnothing]
      exact ⟨'s', _, 0, 1, ⟨false, hends.skipGap _ 1 false⟩, by decide⟩
  · obtain ⟨c, rest, hgap, hc⟩ := hbehind.exists_gap hbare
    obtain ⟨hlt, -⟩ := hbehind.attributed hbare
    have hle := hbehind.styled
    have hplaced := hstands.known.placed
    generalize (scan .code _).token.start = o at hgap hlt hle
    simp only [List.mem_cons, List.not_mem_nil, or_false, not_or] at hc
    -- The first sign stands before the style, or the style stands in its place.
    have hsign : o ≤ p.start ∧ (o = p.start → ∃ d more, p.text = d :: more ∧ EndsGap d ∧ d ∉ [':', '.']) := by
      cases hshape with
      | added _ =>
        exact ⟨Nat.le_of_lt hlt, fun hsame => absurd hsame (Nat.ne_of_lt hlt)⟩
      | bare hstyle => exact ⟨hle _ hstyle, fun _ => ⟨'s', _, rfl, hends, by decide⟩⟩
      | value hstyle =>
        obtain ⟨-, hvalue⟩ := hplaced.style _ hstyle
        exact ⟨Nat.le_trans (hle _ hstyle) (hvalue _ rfl).low_le,
          fun _ => ⟨'\x7b', _, rfl, endsGap_brace, by decide⟩⟩
    obtain ⟨hstart, hreplaced⟩ := hsign
    rw [← hstyleStart] at hstart hreplaced
    obtain ⟨d, rest', hgap', hd⟩ := hgap.exists_beside hc.1 hstart
      (z := p.text ++ (parts.toClosing ++ (closed ++ parts.behind))) fun hsame => by
        obtain ⟨d, more, htext, hd, -⟩ := hreplaced hsame
        exact ⟨d, more ++ _, by rw [htext]; rfl, hd⟩
    refine ⟨d, rest', _, o, hgap', ?_⟩
    rcases hd with rfl | ⟨hsame, hd⟩
    · simpa using hc.2
    · obtain ⟨e, more, htext, -, he⟩ := hreplaced hsame
      rw [htext] at hd
      obtain ⟨rfl, -⟩ := List.cons.inj hd
      exact he

/-- **The element that is read at the same sign** has the new name, and is rendered under it unless that is
`this`. -/
theorem named (hcut : RenameCut source site ('\x7b' :: more) parts) (hstands : site.Stands source children)
    {t : Text} (ht : isIntrinsicTagName t = true)
    (hback : ∀ rest, parts.behindName parts.replaced parts.closed ≠ '\\' :: rest)
    {element : Tag × List Markup} (helement : Known (parts.edited site t ('\x7b' :: more)) element)
    (hanchor : element.1.span.start = site.anchor) :
    element.1.nameSpan = ⟨site.tag.nameSpan.start,
        site.tag.nameSpan.start + byteLength (site.newName t parts.opened)⟩ ∧
      element.1.name = if t = Keyword.this.text then none else some t := by
  generalize hclosed : (if site.tag.closing.isSome then site.newName t parts.closed else []) = closed
  have hends := hcut.ends hstands hback
  obtain ⟨d, rest, n, o, hgap, hd⟩ := hcut.exists_gap hstands closed
  have hkind : ∀ mark, mark.text.head? ∈ [some ':', some '.'] → ∀ k,
      (scan .code ⟨parts.behindName (site.stylePatch ('\x7b' :: more)).text closed, k⟩).token.kind
        ≠ .punct mark := by
    intro mark hmark k hread
    rw [hgap.head_of_mark hread] at hmark
    exact hd (by simpa using hmark)
  have hwritten : Writes site.name parts.opened (parts.behindName parts.replaced parts.closed) t
      (site.newName t parts.opened) (parts.behindName (site.stylePatch ('\x7b' :: more)).text closed) := by
    unfold Site.newName
    split
    · next hsame => exact .kept hsame (hends _ _)
    · exact .replaced (hends _ _)
  refine hstands.known.eq_target helement hstands.name hcut.source_eq ?_ hcut.nameStart hcut.nameStop
    hanchor ht hwritten (hkind .colon (by decide) _) (hkind .dot (by decide) _)
  rw [RenameParts.edited, hclosed, RenameParts.fill]

end RenameCut

/-- An element that is rendered under its name has a site. -/
theorem Site.exists_of_mem_elements {counter : Counter} {elements : List (Tag × List Markup)} {tag : Tag}
    {children : List Markup} {name : Text} (h : (tag, children) ∈ elements) (hname : tag.name = some name) :
    ∃ site ∈ ofElements counter elements, site.tag = tag ∧ site.name = name := by
  induction elements generalizing counter with
  | nil => cases h
  | cons element rest ih =>
    obtain ⟨first, inner⟩ := element
    rcases List.mem_cons.1 h with hfirst | h
    · obtain ⟨rfl, rfl⟩ := Prod.mk.inj hfirst
      rw [ofElements_cons_some hname]
      exact ⟨_, List.mem_cons_self, rfl, rfl⟩
    · cases hfirst : first.name with
      | none =>
        rw [ofElements_cons_none hfirst]
        exact ih h
      | some other =>
        rw [ofElements_cons_some hfirst]
        obtain ⟨site, hsite, hsame⟩ := @ih (counter.next other).2 h
        exact ⟨site, List.mem_cons_of_mem _ hsite, hsame⟩

/-- What a style edit with the new name `t` makes of a source with the sites `found`, at one of them:
`edited`, whose sites are `now`. -/
structure Renamed (dialect : Dialect) (source : Text) (found : List Site) (site : Site) (edit : StyleEdit)
    (t edited : Text) (now : List Site) (value : Text) (parts : RenameParts) : Prop where
  value_eq : edit.expression = .ok value
  cut : RenameCut source site value parts
  edited_eq : edited = parts.edited site t value
  readable : sites dialect edited = .ok now
  /-- Unless an escape stands directly behind the old name, a site that begins at the same sign has the new
  name. -/
  named : (∀ rest, parts.behindName parts.replaced parts.closed ≠ '\\' :: rest) →
    ∀ again ∈ now, again.anchor = site.anchor → again.name = t ∧
      again.tag.nameSpan = ⟨site.tag.nameSpan.start,
        site.tag.nameSpan.start + byteLength (site.newName t parts.opened)⟩
  /-- An element that begins there has a site, unless the new name is `this`. -/
  addressed : (∀ rest, parts.behindName parts.replaced parts.closed ≠ '\\' :: rest) →
    ∀ markup, parse dialect.typed edited = .ok markup → ∀ element ∈ Markup.elementsOfAll markup,
      element.1.span.start = site.anchor →
        ((∃ again ∈ now, again.tag = element.1) ↔ t ≠ Keyword.this.text)
  /-- If a site begins there and the others are still read, the sites are those that do not begin in the
  value of the old style, in their order, and all but that one have the name that they had. -/
  listed : (∀ rest, parts.behindName parts.replaced parts.closed ≠ '\\' :: rest) →
    (∃ again ∈ now, again.anchor = site.anchor) →
      OthersRead source (site.stylePatch value :: site.renamePatches (some t)) found now site.anchor →
        now.map Site.name = namesWith site.anchor t
          (sparedSites (site.stylePatch value :: site.renamePatches (some t)) found) ∧
        addresses dialect edited = .ok (RenderedNode.addressesOf .empty (namesWith site.anchor t
          (sparedSites (site.stylePatch value :: site.renamePatches (some t)) found)))

theorem isIntrinsicTagName_of_target {edit : StyleEdit} {t : Text} (h : edit.target = .ok (some t)) :
    isIntrinsicTagName t = true := by
  unfold StyleEdit.target at h
  split at h
  · cases h
  · split at h
    · next hname => exact (Option.some.inj (Except.ok.inj h)) ▸ hname
    · cases h

/-- **A renamed element has the new name.** A style edit with a new name that is made puts that name in
the place of the old one in both tags, and the style between them; nothing else is changed. If an element
is then read at the same sign, it has the new name and a site, but for the name `this`, which leaves it
without one. -/
theorem exists_renamed (h : sites dialect source = .ok found) {site : Site} (hsite : site ∈ found)
    {edit : StyleEdit} (haddress : edit.address = site.address) {t : Text}
    (htarget : edit.target = .ok (some t)) {edited : Text}
    (hedited : applyEdit dialect source (.style edit) = .ok edited) :
    ∃ now value parts, Renamed dialect source found site edit t edited now value parts := by
  obtain ⟨children, hstands⟩ := exists_stands h hsite
  cases hvalue : edit.expression with
  | error cause =>
    have hfails : site.patches source (.style edit) = .error (.invalidStyle cause) := by
      rw [Site.patches, hvalue]
    rw [applyEdit_of_error h hsite (.style edit) haddress hfails] at hedited
    cases hedited
  | ok value =>
    obtain ⟨parts, hcut⟩ := exists_renameCut h hsite value
    rw [hcut.applyEdit_eq h hsite haddress htarget hvalue] at hedited
    cases hnow : sites dialect (parts.edited site t value) with
    | error cause =>
      rw [hnow] at hedited
      cases hedited
    | ok now =>
      rw [hnow] at hedited
      obtain rfl := Except.ok.inj hedited
      obtain ⟨more, rfl⟩ := exists_brace_of_expression hvalue
      have ht := isIntrinsicTagName_of_target htarget
      have hnamed : (∀ rest, parts.behindName parts.replaced parts.closed ≠ '\\' :: rest) →
          ∀ again ∈ now, again.anchor = site.anchor → again.name = t ∧
            again.tag.nameSpan = ⟨site.tag.nameSpan.start,
              site.tag.nameSpan.start + byteLength (site.newName t parts.opened)⟩ := by
        intro hback again hagain hanchor
        obtain ⟨inner, hstands'⟩ := exists_stands hnow hagain
        obtain ⟨hspan, hname⟩ := hcut.named hstands ht hback hstands'.known hanchor
        refine ⟨?_, hspan⟩
        have hsome := hstands'.name.symm.trans hname
        split at hsome
        · cases hsome
        · exact Option.some.inj hsome
      refine ⟨now, _, parts, hvalue, hcut, rfl, hnow, hnamed, ?_, ?_⟩
      · intro hback markup hmarkup element helement hanchor
        obtain ⟨tag, inner⟩ := element
        obtain ⟨-, hname⟩ := hcut.named hstands ht hback ((nested_parse hmarkup).good _ helement) hanchor
        have hfound : now = Site.ofElements .empty (Markup.elementsOfAll markup) := by
          rw [sites, hmarkup] at hnow
          exact (Except.ok.inj hnow).symm
        subst hfound
        constructor
        · rintro ⟨again, hagain, rfl⟩ hthis
          obtain ⟨-, -, hsome, -⟩ := Site.exists_of_mem_ofElements hagain
          rw [if_pos hthis] at hname
          rw [hname] at hsome
          cases hsome
        · intro hthis
          rw [if_neg hthis] at hname
          obtain ⟨again, hagain, htag, -⟩ := Site.exists_of_mem_elements helement hname
          exact ⟨again, hagain, htag⟩
      · rintro hback ⟨again, hagain, hanchor⟩ hothers
        have hnames := hcut.map_name_eq h hsite htarget hvalue hnow hagain hanchor hothers
        rw [(hnamed hback again hagain hanchor).1] at hnames
        exact ⟨hnames, addresses_of_map_name hnow hnames⟩

/-! ## A paragraph -/

/-- The only site of `<p>a</p>`. -/
def paragraphSite : Site :=
  ⟨.of "p".toList 0, "p".toList,
    ⟨some "p".toList, ⟨0, 8⟩, ⟨0, 3⟩, ⟨1, 2⟩, some ⟨⟨4, 8⟩, ⟨6, 7⟩⟩, none, 2⟩, "a".toList, true⟩

/-- An edit that gives it a style and another name. -/
def paragraphEdit (raw : Text) : StyleEdit :=
  ⟨.of "p".toList 0, ⟨"red".toList, by decide⟩, ⟨"blue".toList, by decide⟩, 16, false, some raw⟩

/-- The style of that edit. -/
def paragraphStyle : Text :=
  ("\x7b\x7b backgroundColor: \"red\", color: \"blue\", fontSize: \"16px\", "
    ++ "fontWeight: \"normal\" \x7d\x7d").toList

def paragraphParts : RenameParts :=
  ⟨"<".toList, "p".toList, [], [], ">a</".toList, "p".toList, ">".toList⟩

theorem sites_paragraph : sites .tsx "<p>a</p>".toList = .ok [paragraphSite] := by decide +kernel

/-- What the edit makes of the paragraph. -/
theorem applyEdit_paragraph {raw t : Text} (htarget : (paragraphEdit raw).target = .ok (some t)) :
    applyEdit .tsx "<p>a</p>".toList (.style (paragraphEdit raw))
      = match sites .tsx (paragraphParts.edited paragraphSite t paragraphStyle) with
        | .ok _ => .ok (paragraphParts.edited paragraphSite t paragraphStyle)
        | .error cause => .error (.unreadable cause) := by
  have hcut : RenameCut "<p>a</p>".toList paragraphSite paragraphStyle paragraphParts := by
    refine ⟨rfl, rfl, rfl, rfl, rfl, ?_, by decide⟩
    intro closing hclosing
    obtain rfl := Option.some.inj hclosing
    exact ⟨rfl, rfl⟩
  have hvalue : (paragraphEdit []).expression = .ok paragraphStyle :=
    mem_toOption.1 (by decide +kernel)
  exact hcut.applyEdit_eq sites_paragraph List.mem_cons_self rfl htarget hvalue

/-- A paragraph becomes a heading. -/
theorem exists_renamed_heading :
    ∃ found, sites .tsx "<p>a</p>".toList = .ok found ∧ ∃ site ∈ found,
      (paragraphEdit "H1".toList).address = site.address ∧
      (paragraphEdit "H1".toList).target = .ok (some "h1".toList) ∧
      ∃ edited, applyEdit .tsx "<p>a</p>".toList (.style (paragraphEdit "H1".toList)) = .ok edited ∧
        addresses .tsx edited = .ok [.of "h1".toList 0] ∧
        ∃ now value parts,
          Renamed .tsx "<p>a</p>".toList found site (paragraphEdit "H1".toList) "h1".toList edited now value
            parts := by
  have htarget : (paragraphEdit "H1".toList).target = .ok (some "h1".toList) := by decide +kernel
  have hnow : addresses .tsx (paragraphParts.edited paragraphSite "h1".toList paragraphStyle)
      = .ok [.of "h1".toList 0] := mem_toOption.1 (by decide +kernel)
  obtain ⟨now, hsites⟩ : ∃ now, sites .tsx (paragraphParts.edited paragraphSite "h1".toList paragraphStyle)
      = .ok now := by
    cases hsites : sites .tsx (paragraphParts.edited paragraphSite "h1".toList paragraphStyle) with
    | error cause =>
      rw [addresses, hsites] at hnow
      cases hnow
    | ok now => exact ⟨now, rfl⟩
  have hedited := applyEdit_paragraph htarget
  rw [hsites] at hedited
  exact ⟨_, sites_paragraph, _, List.mem_cons_self, rfl, htarget, _, hedited, hnow,
    exists_renamed sites_paragraph List.mem_cons_self rfl htarget hedited⟩

/-- A paragraph that is renamed to `this` is no longer addressed: the name is accepted, and read as that of
a component. -/
theorem exists_renamed_unaddressed :
    ∃ edited, applyEdit .tsx "<p>a</p>".toList (.style (paragraphEdit "this".toList)) = .ok edited ∧
      addresses .tsx edited = .ok [] := by
  have htarget : (paragraphEdit "this".toList).target = .ok (some "this".toList) := by decide +kernel
  have hnow : sites .tsx (paragraphParts.edited paragraphSite "this".toList paragraphStyle) = .ok [] :=
    mem_toOption.1 (by decide +kernel)
  have hedited := applyEdit_paragraph htarget
  rw [hnow] at hedited
  exact ⟨_, hedited, by rw [addresses, hnow]; rfl⟩

end Retouch
