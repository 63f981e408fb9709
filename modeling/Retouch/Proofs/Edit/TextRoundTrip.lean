import Retouch.Proofs.Edit.Batch
import Retouch.Proofs.Edit.Listing
import Retouch.Proofs.Patch.Weaves
import Retouch.Proofs.Script.BehindName
import Retouch.Proofs.Script.Between
import Retouch.Proofs.Site.Spans

/-!
# A text edit and the text that is read afterwards

What a text edit writes between two tags is read back there as it was given, whatever it is
(`textContent_of_edited`). Where the other sites are still read, all but those between the tags keep
their order, and the edited element keeps its address. `applyEdit` checks that what an edit makes of a
source can be read, and not that the edited element is still read in it: `exists_text_lost`.
-/

namespace Retouch

open Text Script

variable {dialect : Dialect} {source : Text} {found : List Site}

/-! ## The edited source -/

/-- A text edit is made if the source that it gives can be read. -/
theorem applyEdit_textPatch (h : sites dialect source = .ok found) {site : Site}
    (hsite : site ∈ found) (t : Text) {before replaced behind : Text}
    (hsource : source = before ++ (replaced ++ behind))
    (hstart : byteLength before = (site.textPatch source t).start)
    (hstop : (site.textPatch source t).start + byteLength replaced = (site.textPatch source t).stop) :
    applyEdit dialect source (.text ⟨site.address, t⟩)
      = match sites dialect (before ++ (site.textPatch source t).text ++ behind) with
        | .ok _ => .ok (before ++ (site.textPatch source t).text ++ behind)
        | .error cause => .error (.unreadable cause) := by
  have happly : Patch.applyAll source [site.textPatch source t]
      = .ok (before ++ (site.textPatch source t).text ++ behind) := by
    generalize site.textPatch source t = p at hstart hstop
    rw [hsource, Patch.applyAll_single hstart hstop]
  exact applyEdit_of_applyAll h hsite (.text ⟨site.address, t⟩) rfl rfl happly

/-- So it is of an element with a closing tag. -/
theorem applyEdit_text (h : sites dialect source = .ok found) {site : Site} (hsite : site ∈ found)
    {between : Span} (hbetween : site.between = some between) {before replaced behind : Text}
    (hsource : source = before ++ (replaced ++ behind)) (hstart : byteLength before = between.start)
    (hstop : between.start + byteLength replaced = between.stop) (t : Text) :
    applyEdit dialect source (.text ⟨site.address, t⟩)
      = match sites dialect (before ++ renderText t ++ behind) with
        | .ok _ => .ok (before ++ renderText t ++ behind)
        | .error cause => .error (.unreadable cause) := by
  have hpatch : site.textPatch source t = ⟨between.start, between.stop, renderText t⟩ := by
    rw [Site.textPatch, hbetween]
  have happly := applyEdit_textPatch h hsite t hsource (by rw [hpatch]; exact hstart)
    (by rw [hpatch]; exact hstop)
  rwa [hpatch] at happly

/-! ## The element in the edited source -/

section Edited

variable {before replaced behind : Text} {site again : Site} {between stretch : Span} {now : List Site}

/-- What the patch of a text edit makes of the source. -/
theorem applyAll_textPatch (hbetween : site.between = some between)
    (hsource : source = before ++ (replaced ++ behind)) (hstart : byteLength before = between.start)
    (hstop : between.start + byteLength replaced = between.stop) (t : Text) :
    Patch.applyAll source [site.textPatch source t] = .ok (before ++ renderText t ++ behind) := by
  have hpatch : site.textPatch source t = ⟨between.start, between.stop, renderText t⟩ := by
    rw [Site.textPatch, hbetween]
  rw [hpatch, hsource, Patch.applyAll_single hstart hstop]

/-- The element that begins at the same sign and ends its opening tag where the edited one did has the same
name. -/
theorem name_of_edited (h : sites dialect source = .ok found) (hsite : site ∈ found)
    (hbetween : site.between = some between) (hsource : source = before ++ (replaced ++ behind))
    (hstart : byteLength before = between.start) {t : Text}
    (hnow : sites dialect (before ++ renderText t ++ behind) = .ok now) (hagain : again ∈ now)
    (hstretch : again.between = some stretch) (hsame : stretch.start = between.start)
    (hanchor : again.anchor = site.anchor) : again.name = site.name := by
  obtain ⟨closing, -, rfl⟩ := Option.map_eq_some_iff.1 hbetween
  obtain ⟨closing', -, rfl⟩ := Option.map_eq_some_iff.1 hstretch
  obtain ⟨children, hstands⟩ := exists_stands h hsite
  obtain ⟨pieces, hstands'⟩ := exists_stands hnow hagain
  have hnamed : ∀ {text : Text} {tag : Tag}, tag.Placed text → tag.nameSpan.stop ≤ tag.opening.stop :=
    fun hplaced => Nat.le_trans hplaced.nameSpan.le_high (Nat.le_of_lt hplaced.insertAt_lt)
  have hname := hnamed hstands.known.placed
  have hname' := hnamed hstands'.known.placed
  dsimp only at hstart hsame hname hname'
  exact (hstands.known.name_unique hstands'.known hstands.name hstands'.name hsource
    (List.append_assoc _ _ _) hanchor (hstart ▸ hname) (hstart ▸ hsame ▸ hname')).1

/-- **The sites are listed as before**, but for those between the tags, where the others are still read. -/
theorem listed_of_edited (h : sites dialect source = .ok found) (hsite : site ∈ found)
    (hbetween : site.between = some between) (hsource : source = before ++ (replaced ++ behind))
    (hstart : byteLength before = between.start)
    (hstop : between.start + byteLength replaced = between.stop) {t : Text}
    (hnow : sites dialect (before ++ renderText t ++ behind) = .ok now) (hagain : again ∈ now)
    (hanchor : again.anchor = site.anchor) (hname : again.name = site.name)
    (hothers : OthersRead source [site.textPatch source t] found now site.anchor) :
    addresses dialect (before ++ renderText t ++ behind)
        = .ok (RenderedNode.addressesOf .empty
            ((sparedSites [site.textPatch source t] found).map Site.name)) ∧
      again.address = site.address := by
  have happly := applyAll_textPatch hbetween hsource hstart hstop t
  have hown : site.patches source (.text ⟨site.address, t⟩) = .ok [site.textPatch source t] := rfl
  have himage : Patch.image source [site.textPatch source t] site.anchor = some again.anchor := by
    rw [hanchor]
    exact image_anchor h hsite hown happly
  constructor
  · have hlisted := hothers.listed_of_name_eq h hnow happly hsite hagain himage hname
    have hnames := congrArg (List.map Prod.snd) hlisted
    rw [List.map_map, List.map_map] at hnames
    exact addresses_of_map_name hnow hnames
  · refine hothers.address_eq h hnow happly hsite hagain himage hname fun other _ hle => ?_
    have hinside := inside_patches (placed_of_sites h hsite) (exists_append_anchor h hsite) hown
    have hbelow := hinside.lt_start _ List.mem_cons_self
    have hspares : other.anchor < (site.textPatch source t).start := Nat.lt_of_le_of_lt hle hbelow
    simp [Patch.spares, hspares]

end Edited

/-! ## The text that is read -/

/-- **A text is read back.** A text edit of an element with a closing tag puts the rendered text in the
place of what stood between the tags. It succeeds exactly if the new source can be read. Each element
of that with a closing tag whose opening tag ends where that of the edited element does then has
exactly the rendered text between its tags and shows exactly the text. If it begins at the same sign it
has the same name. If the other sites are still read, too, the sites are those of the source without the
ones that began between the tags, ranked anew, and the element has its address. -/
theorem textContent_of_edited (h : sites dialect source = .ok found) {site : Site}
    (hsite : site ∈ found) {between : Span} (hbetween : site.between = some between) (t : Text) :
    ∃ before replaced behind, source = before ++ (replaced ++ behind) ∧
      byteLength before = between.start ∧ between.start + byteLength replaced = between.stop ∧
      (applyEdit dialect source (.text ⟨site.address, t⟩)
        = match sites dialect (before ++ renderText t ++ behind) with
          | .ok _ => .ok (before ++ renderText t ++ behind)
          | .error cause => .error (.unreadable cause)) ∧
      ∀ now, sites dialect (before ++ renderText t ++ behind) = .ok now →
        ∀ again ∈ now, ∀ stretch, again.between = some stretch → stretch.start = between.start →
          stretch.stop = between.start + byteLength (renderText t) ∧ again.isLeaf = true ∧
            textContent dialect (before ++ renderText t ++ behind) again.address = .ok t ∧
            (again.anchor = site.anchor → again.name = site.name ∧
              (OthersRead source [site.textPatch source t] found now site.anchor →
                addresses dialect (before ++ renderText t ++ behind)
                    = .ok (RenderedNode.addressesOf .empty
                        ((sparedSites [site.textPatch source t] found).map Site.name)) ∧
                  again.address = site.address)) := by
  obtain ⟨closing, hclosing, rfl⟩ := Option.map_eq_some_iff.1 hbetween
  obtain ⟨children, hstands⟩ := exists_stands h hsite
  obtain ⟨fuel, c, st, next, hread⟩ := hstands.known.between closing hclosing
  obtain ⟨toClosing, tail, hsource, hlength, hslash⟩ := hread.exists_append_slash
  -- The source is cut behind the opening tag and before the closing tag.
  have hplaced : site.tag.Placed source := hstands.known.placed
  have hforward : site.tag.opening.stop ≤ closing.span.start :=
    (hplaced.closing closing hclosing).1.low_le
  obtain ⟨before, rest, hcut, hbefore⟩ := isBoundary_iff.1 hplaced.opening.stop
  obtain ⟨replaced, rfl, rfl⟩ := exists_eq_append_of_byteLength_le (hcut.trans hsource) (by omega)
  have hparts : source = before ++ (replaced ++ '<' :: tail) := by simpa using hsource
  have hstop : site.tag.opening.stop + byteLength replaced = closing.span.start := by
    rw [byteLength_append] at hlength
    omega
  refine ⟨before, replaced, '<' :: tail, hparts, hbefore, hstop,
    applyEdit_text h hsite hbetween hparts hbefore hstop t, ?_⟩
  intro now hnow again hagain stretch hstretch hsame
  obtain ⟨closing', hclosing', rfl⟩ := Option.map_eq_some_iff.1 hstretch
  obtain ⟨pieces, hstands'⟩ := exists_stands hnow hagain
  obtain ⟨fuel', c', st', next', hread'⟩ := hstands'.known.between closing' hclosing'
  rw [List.append_assoc] at hread'
  dsimp only at hsame
  obtain ⟨htext, hleaf, hend⟩ := hread'.shows (hbefore.trans hsame.symm) hslash
  refine ⟨by rw [← hsame]; exact hend, by rw [hstands'.isLeaf, hleaf]; rfl, ?_, fun hanchor => ?_⟩
  · rw [textContent, hnow]
    dsimp only
    rw [findSite_address hnow hagain]
    exact congrArg Except.ok (hstands'.text.trans htext)
  · have hname := name_of_edited h hsite hbetween hparts hbefore hnow hagain hstretch hsame hanchor
    exact ⟨hname, listed_of_edited h hsite hbetween hparts hbefore hstop hnow hagain hanchor hname⟩

/-- A text with a sign that means something in the place of an element. The one behind it has another
rank. -/
theorem textContent_of_edited_less :
    let source := "<><p><b/></p><b/></>".toList
    let edited := "<><p>\x7b\"1 < 2\"\x7d</p><b/></>".toList
    ∃ found site between, sites .tsx source = .ok found ∧ site ∈ found ∧ site.between = some between ∧
      applyEdit .tsx source (.text ⟨site.address, "1 < 2".toList⟩) = .ok edited ∧
      ∃ now again stretch, sites .tsx edited = .ok now ∧ again ∈ now ∧
        again.between = some stretch ∧ stretch.start = between.start ∧ again.anchor = site.anchor ∧
        OthersRead source [site.textPatch source "1 < 2".toList] found now site.anchor ∧
        textContent .tsx edited again.address = .ok "1 < 2".toList ∧ again.address = site.address ∧
        addresses .tsx edited = .ok [.of "p".toList 0, .of "b".toList 0] := by
  intro source edited
  let site : Site := ⟨.of "p".toList 0, "p".toList,
    ⟨some "p".toList, ⟨2, 13⟩, ⟨2, 5⟩, ⟨3, 4⟩, some ⟨⟨9, 13⟩, ⟨11, 12⟩⟩, none, 4⟩, [], false⟩
  let again : Site := ⟨.of "p".toList 0, "p".toList,
    ⟨some "p".toList, ⟨2, 18⟩, ⟨2, 5⟩, ⟨3, 4⟩, some ⟨⟨14, 18⟩, ⟨16, 17⟩⟩, none, 4⟩, "1 < 2".toList, true⟩
  let single (rank start : Nat) : Site := ⟨.of "b".toList rank, "b".toList,
    ⟨some "b".toList, ⟨start, start + 4⟩, ⟨start, start + 4⟩, ⟨start + 1, start + 2⟩, none, none,
      start + 2⟩, [], true⟩
  have hfound : sites .tsx source = .ok [site, single 0 5, single 1 13] := by decide +kernel
  have hnow : sites .tsx edited = .ok [again, single 0 18] := by decide +kernel
  have hothers : OthersRead source [site.textPatch source "1 < 2".toList]
      [site, single 0 5, single 1 13] [again, single 0 18] site.anchor := by decide +kernel
  have hbetween : site.between = some ⟨5, 9⟩ := rfl
  obtain ⟨before, replaced, behind, hsource, hbefore, hstop, happly, hread⟩ :=
    textContent_of_edited hfound List.mem_cons_self hbetween "1 < 2".toList
  have hcut : "<><p>".toList ++ ("<b/>".toList ++ "</p><b/></>".toList) = before ++ (replaced ++ behind) :=
    hsource
  obtain ⟨rfl, hrest⟩ := append_inj_of_byteLength_eq hcut hbefore.symm
  obtain ⟨rfl, rfl⟩ := append_inj_of_byteLength_eq hrest (Nat.add_left_cancel hstop).symm
  have hedited : "<><p>".toList ++ renderText "1 < 2".toList ++ "</p><b/></>".toList = edited := by decide
  rw [hedited, hnow] at happly
  rw [hedited] at hread
  obtain ⟨-, -, htext, hlisted⟩ := hread _ hnow again List.mem_cons_self ⟨5, 14⟩ rfl rfl
  obtain ⟨haddresses, haddress⟩ := (hlisted rfl).2 hothers
  exact ⟨_, site, _, hfound, List.mem_cons_self, rfl, happly, _, again, _, hnow, List.mem_cons_self, rfl, rfl,
    rfl, hothers, htext, haddress, haddresses.trans (by decide +kernel)⟩

/-- A text can be written into an element in such a way that the element is gone: what it was in is
read as a call with type arguments. -/
theorem exists_text_lost :
    let source := "a < <p>x</p> + ') => b > (c) //'".toList
    let edited := "a < <p>(z: '</p> + ') => b > (c) //'".toList
    (sites .tsx source).map (fun found => found.map fun site => (site.address, site.between))
        = .ok [(.of "p".toList 0, some ⟨7, 8⟩)] ∧
      (applyEdit .tsx source (.text ⟨.of "p".toList 0, "(z: '".toList⟩)).toOption = some edited ∧
      (textContent .tsx edited (.of "p".toList 0)).toOption = none ∧
      addresses .tsx edited = .ok [] := by
  decide +kernel

end Retouch
