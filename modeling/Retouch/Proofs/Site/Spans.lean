import Retouch.Proofs.Script.Placed
import Retouch.Proofs.Site.Identity

/-!
# Where the tags of sites stand

Each site is an element of the source, and what is known of elements is known of sites
(`exists_stands`): their tags are placed in the source, and what they show is what was read between
the tags. Of two sites the later one stands behind the other one or within it (`pairwise_span`).
-/

namespace Retouch

open Text Script

/-- Whether a site is an element of a source with some markup between its tags. -/
structure Site.Stands (source : Text) (children : List Markup) (site : Site) : Prop where
  known : Known source (site.tag, children)
  name : site.tag.name = some site.name
  text : site.text = Markup.textOf children
  isLeaf : site.isLeaf = !children.any Markup.isStructural

namespace Site

/-- Each site is one of the elements. -/
theorem exists_of_mem_ofElements {counter : Counter} {elements : List (Tag × List Markup)}
    {site : Site} (h : site ∈ ofElements counter elements) :
    ∃ children, (site.tag, children) ∈ elements ∧ site.tag.name = some site.name ∧
      site.text = Markup.textOf children ∧ site.isLeaf = !children.any Markup.isStructural := by
  induction elements generalizing counter with
  | nil => simp [ofElements] at h
  | cons element rest ih =>
    obtain ⟨tag, children⟩ := element
    have hlater : ∀ {counter}, site ∈ ofElements counter rest →
        ∃ inner, (site.tag, inner) ∈ (tag, children) :: rest ∧ site.tag.name = some site.name ∧
          site.text = Markup.textOf inner ∧ site.isLeaf = !inner.any Markup.isStructural := by
      intro counter hmem
      obtain ⟨inner, hinner, hrest⟩ := ih hmem
      exact ⟨inner, List.mem_cons_of_mem _ hinner, hrest⟩
    cases hname : tag.name with
    | none =>
      rw [ofElements_cons_none hname] at h
      exact hlater h
    | some name =>
      rw [ofElements_cons_some hname] at h
      rcases List.mem_cons.1 h with rfl | h
      · exact ⟨children, List.mem_cons_self, hname, rfl, rfl⟩
      · exact hlater h

/-- Sites stand in the order of the elements. -/
theorem sublist_tag (counter : Counter) (elements : List (Tag × List Markup)) :
    ((ofElements counter elements).map Site.tag).Sublist (elements.map Prod.fst) := by
  induction elements generalizing counter with
  | nil => exact .slnil
  | cons element rest ih =>
    obtain ⟨tag, children⟩ := element
    cases hname : tag.name with
    | none =>
      rw [ofElements_cons_none hname]
      exact (ih counter).cons _
    | some name =>
      rw [ofElements_cons_some hname]
      exact (ih _).cons_cons _

end Site

variable {dialect : Dialect} {source : Text} {found : List Site}

/-- The elements of a source that has sites are nested. -/
theorem exists_nested_of_sites (h : sites dialect source = .ok found) :
    ∃ markup, Nested (Known source) 0 (byteLength source) markup ∧
      found = Site.ofElements .empty (Markup.elementsOfAll markup) := by
  unfold sites at h
  split at h
  · rename_i markup hmarkup
    exact ⟨markup, nested_parse hmarkup, (Except.ok.inj h).symm⟩
  · cases h

/-- **A site is an element of its source.** -/
theorem exists_stands (h : sites dialect source = .ok found) {site : Site} (hsite : site ∈ found) :
    ∃ children, site.Stands source children := by
  obtain ⟨markup, hnested, rfl⟩ := exists_nested_of_sites h
  obtain ⟨children, helement, hname, htext, hleaf⟩ := Site.exists_of_mem_ofElements hsite
  exact ⟨children, hnested.good _ helement, hname, htext, hleaf⟩

/-- The tags of a site are placed. -/
theorem placed_of_sites (h : sites dialect source = .ok found) {site : Site} (hsite : site ∈ found) :
    site.tag.Placed source := by
  obtain ⟨children, hstands⟩ := exists_stands h hsite
  exact hstands.known.placed

/-- **Sites are nested.** Of two sites the later one stands behind the other one or within it. -/
theorem pairwise_span (h : sites dialect source = .ok found) :
    found.Pairwise fun site later =>
      site.tag.span.stop ≤ later.tag.span.start ∨ later.tag.span.stop ≤ site.tag.span.stop := by
  obtain ⟨markup, hnested, rfl⟩ := exists_nested_of_sites h
  have htags : ((Markup.elementsOfAll markup).map Prod.fst).Pairwise fun (tag later : Tag) =>
      tag.span.stop ≤ later.span.start ∨ later.span.stop ≤ tag.span.stop :=
    List.pairwise_map.2 hnested.nested
  exact List.pairwise_map.1 (htags.sublist (Site.sublist_tag .empty _))

/-- A site that begins behind another one stands behind it or within it. -/
theorem stop_le_of_lt (h : sites dialect source = .ok found) {site later : Site} (hsite : site ∈ found)
    (hlater : later ∈ found) (hlt : site.anchor < later.anchor) :
    site.tag.span.stop ≤ later.tag.span.start ∨ later.tag.span.stop ≤ site.tag.span.stop := by
  obtain ⟨i, hi, rfl⟩ := List.getElem_of_mem hsite
  obtain ⟨j, hj, rfl⟩ := List.getElem_of_mem hlater
  have horder := List.pairwise_iff_getElem.1 (List.pairwise_map.1 (pairwise_anchor h))
  have hnested := List.pairwise_iff_getElem.1 (pairwise_span h)
  rcases Nat.lt_trichotomy i j with hless | heq | hmore
  · exact hnested i j hi hj hless
  · subst heq
    exact absurd hlt (Nat.lt_irrefl _)
  · exact absurd hlt (Nat.lt_asymm (horder j i hj hi hmore))

end Retouch
