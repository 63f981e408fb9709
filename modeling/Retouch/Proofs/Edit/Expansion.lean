import Retouch.Proofs.Edit.Element
import Retouch.Proofs.Edit.TextRoundTrip
import Retouch.Proofs.Script.BehindName

/-!
# A text edit of a self-closing element

A text edit of an element of one tag keeps the head of the tag and puts a sign `>`, the text and a
closing tag behind it. If only blanks and closed comments stand in the head behind the attributes
(`Site.endsInGap`), an element that is read there with its attributes has its old name and a closing
tag, and shows the text: `textContent_of_expanded`.

The head is cut off by the last two characters of the tag. Where the slash of the tag does not stand
right before its end, it stays in the head, and the element is not what it was: `exists_slash_kept`.
-/

namespace Retouch

open Text Script

namespace Site

/-- Whether only blanks and closed comments stand in the head of a tag behind the attributes. -/
def endsInGap (site : Site) (source : Text) : Bool :=
  match splitAt? (site.head source) (site.tag.insertAt - site.anchor) with
  | some (_, gap) => closes gap
  | none => false

/-- A self-closing element with a text in it. -/
def expanded (site : Site) (source t : Text) : Text :=
  site.head source ++ '>' :: (renderText t ++ '<' :: '/' :: (site.name ++ ['>']))

end Site

variable {dialect : Dialect} {source : Text} {found : List Site}

/-! ## The edited source -/

/-- The head of a tag and what is left of the tag behind it. -/
theorem exists_append_head (h : sites dialect source = .ok found) {site : Site} (hsite : site ∈ found) :
    ∃ before tail behind, source = before ++ (site.head source ++ (tail ++ behind)) ∧
      byteLength before = site.anchor ∧
      site.anchor + byteLength (site.head source) + byteLength tail = site.tag.opening.stop := by
  have hplaced := placed_of_sites h hsite
  obtain ⟨before, rest, behind, hsource, hbefore, hstop, hslice⟩ :=
    Site.exists_slice_opening hplaced (exists_append_anchor h hsite)
  obtain ⟨tail, htail⟩ := site.exists_head_append source
  rw [hslice] at htail
  refine ⟨before, tail, behind, ?_, hbefore.trans hplaced.opens, ?_⟩
  · exact hsource.trans (by rw [← htail, List.append_assoc])
  · rw [← hstop, ← htail, byteLength_append, hplaced.opens]
    exact Nat.add_assoc _ _ _

/-- A text edit of a self-closing element is made if the source that it gives can be read. -/
theorem applyEdit_expanded (h : sites dialect source = .ok found) {site : Site} (hsite : site ∈ found)
    (hsingle : site.isSelfClosing = true) {before tail behind : Text}
    (hsource : source = before ++ (site.head source ++ (tail ++ behind)))
    (hbefore : byteLength before = site.anchor)
    (hstop : site.anchor + byteLength (site.head source) + byteLength tail = site.tag.opening.stop)
    (t : Text) :
    applyEdit dialect source (.text ⟨site.address, t⟩)
      = match sites dialect (before ++ (site.expanded source t ++ behind)) with
        | .ok _ => .ok (before ++ (site.expanded source t ++ behind))
        | .error cause => .error (.unreadable cause) := by
  have hpatch : site.textPatch source t
      = ⟨site.anchor + byteLength (site.head source), site.tag.opening.stop,
          '>' :: renderText t ++ ['<', '/'] ++ site.name ++ ['>']⟩ := by
    have hnone : site.between = none := by
      rw [Site.between, Option.isNone_iff_eq_none.1 hsingle]
      rfl
    rw [Site.textPatch, hnone]
    dsimp only
    rw [(placed_of_sites h hsite).opens]
    rfl
  have hcut : source = before ++ site.head source ++ (tail ++ behind) :=
    hsource.trans (List.append_assoc _ _ _).symm
  have happly := applyEdit_textPatch h hsite t hcut
    (by rw [hpatch, byteLength_append, hbefore]) (by rw [hpatch]; exact hstop)
  have hsame : before ++ site.head source ++ (site.textPatch source t).text ++ behind
      = before ++ (site.expanded source t ++ behind) := by
    rw [hpatch, Site.expanded]
    simp
  rwa [hsame] at happly

/-! ## The element in the edited source -/

section Expanded

variable {site again : Site} {before tail behind t : Text} {children pieces : List Markup}

/-- Behind the attributes stand blanks and comments up to the sign that ends the tag. -/
theorem exists_append_gap (hgap : site.endsInGap source = true) :
    ∃ attributes gap, site.head source = attributes ++ gap ∧ closes gap = true ∧
      byteLength attributes = site.tag.insertAt - site.anchor := by
  unfold Site.endsInGap at hgap
  split at hgap
  · next attributes gap hsplit =>
    obtain ⟨happend, hlength⟩ := append_of_splitAt? hsplit
    exact ⟨attributes, gap, happend.symm, hgap, hlength⟩
  · cases hgap

/-- An element that is read up to behind its attributes has a closing tag, and its opening tag ends
with the sign that was put there. -/
theorem between_of_expanded
    (hagain : Known (before ++ (site.expanded source t ++ behind)) (again.tag, children))
    (hbefore : byteLength before = site.anchor) (hgap : site.endsInGap source = true)
    (hforward : site.anchor ≤ site.tag.insertAt) (hsame : again.tag.insertAt = site.tag.insertAt) :
    ∃ between, again.between = some between ∧
      between.start = site.anchor + byteLength (site.head source) + 1 := by
  obtain ⟨attributes, gap, hhead, hcloses, hlength⟩ := exists_append_gap hgap
  obtain ⟨s, ⟨first, rest, hfirst, hoffset, hread⟩, hsolid, hends⟩ := hagain.read.ends
  dsimp only at hoffset hread hends
  rw [Site.expanded, hhead] at hfirst
  have hcut : first ++ rest = (before ++ attributes)
      ++ (gap ++ '>' :: (renderText t ++ '<' :: '/' :: (site.name ++ '>' :: behind))) := by
    rw [← hfirst]
    simp
  obtain ⟨-, rfl⟩ := append_inj_of_byteLength_eq hcut (by rw [byteLength_append]; omega)
  obtain ⟨hclosing, hstop⟩ := hends.stop_of_closes hread hsolid hcloses
  obtain ⟨closing, hclosing⟩ := Option.ne_none_iff_exists'.1 hclosing
  refine ⟨⟨again.tag.opening.stop, closing.span.start⟩, by rw [Site.between, hclosing]; rfl, ?_⟩
  dsimp only
  rw [hstop, hhead, byteLength_append]
  omega

/-- It has its name, too, for that stands in the head of the tag. -/
theorem name_of_expanded (hstands : site.Stands source children)
    (hagain : again.Stands (before ++ (site.expanded source t ++ behind)) pieces)
    (hsource : source = before ++ (site.head source ++ (tail ++ behind)))
    (hbefore : byteLength before = site.anchor) (hgap : site.endsInGap source = true)
    (hanchor : again.anchor = site.anchor) (hsame : again.tag.insertAt = site.tag.insertAt) :
    again.name = site.name ∧ again.tag.nameSpan = site.tag.nameSpan := by
  obtain ⟨attributes, gap, hsplit, -, hattributes⟩ := exists_append_gap hgap
  -- The names end before the place for a new attribute, and that is in the head.
  have hlong : site.tag.insertAt ≤ byteLength (before ++ site.head source) := by
    rw [byteLength_append, hsplit, byteLength_append]
    omega
  have hends := hstands.known.placed.nameSpan.le_high
  have hends' := hagain.known.placed.nameSpan.le_high
  dsimp only at hends hends'
  have hedited : before ++ (site.expanded source t ++ behind) = before ++ site.head source
      ++ '>' :: (renderText t ++ '<' :: '/' :: (site.name ++ '>' :: behind)) := by
    rw [Site.expanded]
    simp
  exact hstands.known.name_unique hagain.known hstands.name hagain.name
    (hsource.trans (List.append_assoc _ _ _).symm) hedited hanchor (Nat.le_trans hends hlong)
    (Nat.le_trans hends' (hsame ▸ hlong))

/-- What is read between its tags is the text. -/
theorem shows_of_expanded (hstands : site.Stands source children)
    (hagain : again.Stands (before ++ (site.expanded source t ++ behind)) pieces)
    (hbefore : byteLength before = site.anchor) {between : Span}
    (hbetween : again.between = some between)
    (hstart : between.start = site.anchor + byteLength (site.head source) + 1) :
    between.stop = between.start + byteLength (renderText t) ∧ again.isLeaf = true ∧
      again.text = t := by
  obtain ⟨closing, hclosing, rfl⟩ := Option.map_eq_some_iff.1 hbetween
  obtain ⟨fuel, c, st, next, hread⟩ := hagain.known.between closing hclosing
  obtain ⟨_, _, _, _, hnamed⟩ := hstands.known.read.name
  obtain ⟨first, rest, hname, hfirst⟩ := (hnamed _ hstands.name).exists_cons
  have hedited : before ++ (site.expanded source t ++ behind)
      = (before ++ site.head source ++ ['>'])
        ++ (renderText t ++ '<' :: '/' :: first :: (rest ++ '>' :: behind)) := by
    rw [Site.expanded, hname]
    simp
  rw [hedited] at hread
  obtain ⟨htext, hleaf, hstop⟩ := hread.shows
    (by rw [byteLength_append, byteLength_append, hbefore]; exact hstart.symm)
    ⟨0, kind_scan_slash_name hfirst _ 0⟩
  exact ⟨hstop, by rw [hagain.isLeaf, hleaf]; rfl, hagain.text.trans htext⟩

end Expanded

/-- **A self-closing element is expanded.** A text edit of a self-closing element replaces the end of
its tag, behind the head, by a sign `>`, the rendered text and a closing tag. It succeeds exactly if the
new source can be read. Each element of that whose opening tag ends with the sign and has a closing tag
has exactly the rendered text between its tags and shows exactly the text. Such an element is, with the
old name, the one that is read in the old place with attributes up to the old place, if the head ends in
a gap. -/
theorem textContent_of_expanded (h : sites dialect source = .ok found) {site : Site}
    (hsite : site ∈ found) (hsingle : site.isSelfClosing = true) (t : Text) :
    ∃ before tail behind, source = before ++ (site.head source ++ (tail ++ behind)) ∧
      byteLength before = site.anchor ∧
      site.anchor + byteLength (site.head source) + byteLength tail = site.tag.opening.stop ∧
      (applyEdit dialect source (.text ⟨site.address, t⟩)
        = match sites dialect (before ++ (site.expanded source t ++ behind)) with
          | .ok _ => .ok (before ++ (site.expanded source t ++ behind))
          | .error cause => .error (.unreadable cause)) ∧
      ∀ now, sites dialect (before ++ (site.expanded source t ++ behind)) = .ok now →
        ∀ again ∈ now,
          (∀ between, again.between = some between →
            between.start = site.anchor + byteLength (site.head source) + 1 →
            between.stop = between.start + byteLength (renderText t) ∧ again.isLeaf = true ∧
              textContent dialect (before ++ (site.expanded source t ++ behind)) again.address
                = .ok t) ∧
          (site.endsInGap source = true → again.anchor = site.anchor →
            again.tag.insertAt = site.tag.insertAt →
            again.name = site.name ∧ again.tag.nameSpan = site.tag.nameSpan ∧
              ∃ between, again.between = some between ∧
                between.start = site.anchor + byteLength (site.head source) + 1) := by
  obtain ⟨children, hstands⟩ := exists_stands h hsite
  obtain ⟨before, tail, behind, hsource, hbefore, hstop⟩ := exists_append_head h hsite
  refine ⟨before, tail, behind, hsource, hbefore, hstop,
    applyEdit_expanded h hsite hsingle hsource hbefore hstop t, ?_⟩
  intro now hnow again hagain
  obtain ⟨pieces, hstands'⟩ := exists_stands hnow hagain
  constructor
  · intro between hbetween hstart
    obtain ⟨hend, hleaf, htext⟩ := shows_of_expanded hstands hstands' hbefore hbetween hstart
    refine ⟨hend, hleaf, ?_⟩
    rw [textContent, hnow]
    dsimp only
    rw [findSite_address hnow hagain]
    exact congrArg Except.ok htext
  · intro hgap hanchor hsame
    have hplaced := hstands.known.placed
    have hforward : site.anchor ≤ site.tag.insertAt :=
      Nat.le_of_succ_le (Nat.le_trans hplaced.nameSpan.low_le
        (Nat.le_trans hplaced.nameSpan.le hplaced.nameSpan.le_high))
    obtain ⟨hname, hspan⟩ :=
      name_of_expanded hstands hstands' hsource hbefore hgap hanchor hsame
    exact ⟨hname, hspan, between_of_expanded hstands'.known hbefore hgap hforward hsame⟩

/-- An element with a comment behind its attribute, and a text with a sign that means something. -/
theorem textContent_of_expanded_comment :
    let source := "<p a /* b */ />".toList
    let edited := "<p a /* b */>\x7b\"1 < 2\"\x7d</p>".toList
    ∃ found site, sites .tsx source = .ok found ∧ site ∈ found ∧ site.isSelfClosing = true ∧
      site.endsInGap source = true ∧
      ∃ now again, sites .tsx edited = .ok now ∧ again ∈ now ∧ again.anchor = site.anchor ∧
        again.tag.insertAt = site.tag.insertAt ∧ again.name = site.name ∧
        textContent .tsx edited again.address = .ok "1 < 2".toList := by
  intro source edited
  let site : Site := ⟨.of "p".toList 0, "p".toList,
    ⟨some "p".toList, ⟨0, 15⟩, ⟨0, 15⟩, ⟨1, 2⟩, none, none, 4⟩, [], true⟩
  let again : Site := ⟨.of "p".toList 0, "p".toList,
    ⟨some "p".toList, ⟨0, 26⟩, ⟨0, 13⟩, ⟨1, 2⟩, some ⟨⟨22, 26⟩, ⟨24, 25⟩⟩, none, 4⟩,
    "1 < 2".toList, true⟩
  have hfound : sites .tsx source = .ok [site] := by decide +kernel
  have hnow : sites .tsx edited = .ok [again] := by decide +kernel
  have hhead : site.head source = "<p a /* b */".toList := by decide
  obtain ⟨before, tail, behind, hsource, hbefore, hstop, -, hedited⟩ :=
    textContent_of_expanded hfound List.mem_cons_self rfl "1 < 2".toList
  -- The tag is all of the source.
  obtain rfl : before = [] := eq_nil_of_byteLength_eq_zero hbefore
  rw [hhead] at hsource hstop
  have hcut : "<p a /* b */".toList ++ (tail ++ behind)
      = "<p a /* b */".toList ++ (" />".toList ++ []) := hsource.symm
  have hlength : 0 + 12 + byteLength tail = 15 := hstop
  obtain ⟨rfl, rfl⟩ := append_inj_of_byteLength_eq (List.append_cancel_left hcut) (by
    have : byteLength " />".toList = 3 := by decide
    omega)
  have hsame : [] ++ (site.expanded source "1 < 2".toList ++ []) = edited := by decide
  rw [hsame] at hedited
  obtain ⟨hread, hkept⟩ := hedited _ hnow again List.mem_cons_self
  obtain ⟨hname, -, between, hbetween, hstart⟩ := hkept (by decide) rfl rfl
  obtain ⟨-, -, htext⟩ := hread between hbetween hstart
  exact ⟨_, site, hfound, List.mem_cons_self, rfl, by decide, _, again, hnow, List.mem_cons_self, rfl,
    rfl, hname, htext⟩

/-- The slash of a tag stays in the head if a blank stands behind it. Then the new source cannot be
read, or it can, and the element is still one of a single tag that shows nothing. -/
theorem exists_slash_kept :
    let source := "<div><p / ></div>".toList
    let quiet := "<p / >, <i/>> 1".toList
    let edited := "<p / >>a</p>, <i/>> 1".toList
    (sites .tsx source).map (fun found => found.map fun site => (site.address, site.isSelfClosing))
        = .ok [(.of "div".toList 0, false), (.of "p".toList 0, true)] ∧
      (applyEdit .tsx source (.text ⟨.of "p".toList 0, "a".toList⟩)).toOption = none ∧
      (applyEdit .tsx quiet (.text ⟨.of "p".toList 0, "a".toList⟩)).toOption = some edited ∧
      (textContent .tsx edited (.of "p".toList 0)).toOption = some [] := by
  decide +kernel

end Retouch
