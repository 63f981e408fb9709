import Mathlib.Data.List.Nodup
import Retouch.Proofs.Script.DocumentOrder
import Retouch.Proofs.Site.Ranks

/-!
# What tells the sites of a source apart

The sites of a source are ranked as they are met, so no two of them have one address
(`nodup_address`), and looking an address up leads back to the site that carries it
(`findSite_address`). They stand in document order, so no two of them begin at one offset either
(`pairwise_anchor`, `eq_of_anchor_eq`).
-/

namespace Retouch

/-- **Addresses are unique.** No two sites of a source have one address. -/
theorem nodup_address {dialect : Dialect} {source : Text} {found : List Site}
    (h : sites dialect source = .ok found) : (found.map Site.address).Nodup := by
  rw [sites] at h
  split at h
  · obtain rfl := Except.ok.inj h
    rw [Site.map_address_eq]
    exact RenderedNode.nodup_addressesOf _ _
  · cases h

/-- **Addresses lead back.** The address of a site finds that site. -/
theorem findSite_address {dialect : Dialect} {source : Text} {found : List Site} {site : Site}
    (h : sites dialect source = .ok found) (hsite : site ∈ found) :
    findSite found site.address = some site :=
  find?_eq_some_of_nodup (nodup_address h) hsite

/-! ## Where sites begin -/

open Text Script

/-- The sites of elements begin where some of the elements do. -/
theorem Site.sublist_anchor (counter : Counter) (elements : List (Tag × List Markup)) :
    ((Site.ofElements counter elements).map Site.anchor).Sublist
      (elements.map fun element => element.1.span.start) := by
  induction elements generalizing counter with
  | nil => exact .slnil
  | cons element rest ih =>
    obtain ⟨tag, children⟩ := element
    unfold Site.ofElements
    split
    · exact (ih counter).cons _
    · exact (ih _).cons_cons _

variable {dialect : Dialect} {source : Text} {found : List Site}

/-- The elements of a source that has sites are in order. -/
theorem exists_inOrder_of_sites (h : sites dialect source = .ok found) :
    ∃ markup, InOrder source 0 (byteLength source) markup ∧
      (found.map Site.anchor).Sublist (starts markup) := by
  unfold sites at h
  split at h
  · rename_i markup hmarkup
    obtain rfl := Except.ok.inj h
    exact ⟨markup, inOrder_parse hmarkup, Site.sublist_anchor _ _⟩
  · cases h

/-- **Sites stand in document order.** Each begins behind the one before it. -/
theorem pairwise_anchor (h : sites dialect source = .ok found) :
    (found.map Site.anchor).Pairwise (· < ·) := by
  obtain ⟨markup, horder, hsublist⟩ := exists_inOrder_of_sites h
  exact horder.increasing.sublist hsublist

theorem nodup_anchor (h : sites dialect source = .ok found) : (found.map Site.anchor).Nodup :=
  (pairwise_anchor h).imp fun hlt => by omega

/-- Where a site begins tells which site it is. -/
theorem eq_of_anchor_eq (h : sites dialect source = .ok found) {site other : Site}
    (hsite : site ∈ found) (hother : other ∈ found) (heq : site.anchor = other.anchor) :
    site = other := List.inj_on_of_nodup_map (nodup_anchor h) hsite hother heq

/-- A site begins with the sign `<`. -/
theorem exists_append_anchor (h : sites dialect source = .ok found) {site : Site}
    (hsite : site ∈ found) :
    ∃ before rest, source = before ++ '<' :: rest ∧ byteLength before = site.anchor := by
  obtain ⟨markup, horder, hsublist⟩ := exists_inOrder_of_sites h
  exact horder.opens _ (hsublist.subset (List.mem_map_of_mem hsite))

theorem anchor_lt (h : sites dialect source = .ok found) {site : Site} (hsite : site ∈ found) :
    site.anchor < byteLength source := by
  obtain ⟨before, rest, rfl, hlength⟩ := exists_append_anchor h hsite
  have := ('<' : Char).utf8Size_pos
  rw [byteLength_append, byteLength_cons]
  omega

end Retouch
