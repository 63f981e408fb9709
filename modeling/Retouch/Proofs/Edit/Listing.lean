import Mathlib.Data.List.Sort
import Retouch.Proofs.Edit.Element
import Retouch.Proofs.Patch.Splices

/-!
# The sites that patches leave

Patches of a source leave the sites whose first bytes they spare. Where these are still read under their
names, and nothing else is read, the sites of the new source are those that are left, in their order
(`OthersRead.listed`), and are addressed by their names. One of them may have another name than before:
it is the one that was edited.

* `sparedSites` - the sites that are left.
* `OthersRead` - what has to be known of the other ones.
* `namesWith` - the names of sites, one of which was given another name.
-/

namespace Retouch

/-- The sites whose first bytes the patches spare. -/
def sparedSites (patches : List Patch) (found : List Site) : List Site :=
  found.filter fun site => patches.all (Patch.spares site.anchor)

theorem sparedSites_subset (patches : List Patch) (found : List Site) :
    sparedSites patches found ⊆ found := List.filter_subset_self _

/-- Whether the sites that patches leave are read in the new source, and no others. The site that begins
at `anchor` may have another name there. -/
structure OthersRead (source : Text) (patches : List Patch) (found now : List Site) (anchor : Nat) :
    Prop where
  /-- Each of the others is read under its name where its first byte has been carried. -/
  read : ∀ other ∈ sparedSites patches found, other.anchor ≠ anchor → ∃ still ∈ now,
    Patch.image source patches other.anchor = some still.anchor ∧ still.name = other.name
  only : ∀ still ∈ now, ∃ other ∈ sparedSites patches found,
    Patch.image source patches other.anchor = some still.anchor

instance (source : Text) (patches : List Patch) (found now : List Site) (anchor : Nat) :
    Decidable (OthersRead source patches found now anchor) :=
  decidable_of_iff ((∀ other ∈ sparedSites patches found, other.anchor ≠ anchor → ∃ still ∈ now,
      Patch.image source patches other.anchor = some still.anchor ∧ still.name = other.name) ∧
    ∀ still ∈ now, ∃ other ∈ sparedSites patches found,
      Patch.image source patches other.anchor = some still.anchor)
    ⟨fun h => ⟨h.1, h.2⟩, fun h => ⟨h.read, h.only⟩⟩

/-- The names of some sites, with `name` for the site that begins at `anchor`. -/
def namesWith (anchor : Nat) (name : Text) (found : List Site) : List Text :=
  found.map fun site => if site.anchor = anchor then name else site.name

/-- Whether one entry of a list of places and names stands before another one. -/
def PrecedesEntry (entry later : Option Nat × Text) : Prop :=
  ∃ m n, entry.1 = some m ∧ later.1 = some n ∧ m < n

instance : Std.Irrefl PrecedesEntry where
  irrefl := by
    rintro ⟨place, name⟩ ⟨m, n, hm, hn, hlt⟩
    obtain rfl := Option.some.inj (hm.symm.trans hn)
    exact Nat.lt_irrefl m hlt

instance : Std.Antisymm PrecedesEntry where
  antisymm := by
    rintro ⟨place, name⟩ ⟨place', name'⟩ ⟨m, n, hm, hn, hlt⟩ ⟨n', m', hn', hm', hlt'⟩
    obtain rfl := Option.some.inj (hm.symm.trans hm')
    obtain rfl := Option.some.inj (hn.symm.trans hn')
    exact absurd hlt' (Nat.lt_asymm hlt)

section Listing

variable {dialect : Dialect} {source text : Text} {patches : List Patch} {found now : List Site}
  {site again : Site}

/-- An element that is edited begins where it did. -/
theorem image_anchor (h : sites dialect source = .ok found) (hsite : site ∈ found) {edit : PendingEdit}
    (hown : site.patches source edit = .ok patches) (htext : Patch.applyAll source patches = .ok text) :
    Patch.image source patches site.anchor = some site.anchor := by
  have hinside := inside_patches (placed_of_sites h hsite) (exists_append_anchor h hsite) hown
  exact Patch.image_of_lt_start htext (anchor_lt h hsite) hinside.lt_start

/-- **The sites that are left** are listed in their order, where they have been carried and under their
names; the edited one has the name that is read of it. -/
theorem OthersRead.listed (h : sites dialect source = .ok found) (hnow : sites dialect text = .ok now)
    (htext : Patch.applyAll source patches = .ok text) (hagain : again ∈ now)
    (himage : Patch.image source patches site.anchor = some again.anchor)
    (hothers : OthersRead source patches found now site.anchor) :
    (now.map fun still => (some still.anchor, still.name))
      = (sparedSites patches found).map fun other => (Patch.image source patches other.anchor,
          if other.anchor = site.anchor then again.name else other.name) := by
  -- What is read where a site has been carried has its name.
  have hentry : ∀ other ∈ sparedSites patches found, ∃ still ∈ now,
      Patch.image source patches other.anchor = some still.anchor ∧
        still.name = if other.anchor = site.anchor then again.name else other.name := by
    intro other hother
    by_cases hsame : other.anchor = site.anchor
    · exact ⟨again, hagain, hsame ▸ himage, (if_pos hsame).symm⟩
    · obtain ⟨still, hstill, hplace, hname⟩ := hothers.read other hother hsame
      exact ⟨still, hstill, hplace, hname.trans (if_neg hsame).symm⟩
  refine List.Pairwise.eq_of_mem_iff (r := PrecedesEntry) ?_ ?_ fun entry => ⟨?_, ?_⟩
  · refine List.pairwise_map.2 ((List.pairwise_map.1 (pairwise_anchor hnow)).imp ?_)
    exact fun hlt => ⟨_, _, rfl, rfl, hlt⟩
  · have horder := (List.pairwise_map.1 (pairwise_anchor h)).sublist
      (List.filter_sublist (p := fun site => patches.all (Patch.spares site.anchor)))
    refine List.pairwise_map.2 (horder.imp_of_mem ?_)
    intro other later hother hlater hlt
    obtain ⟨still, -, hplace, -⟩ := hentry other hother
    obtain ⟨still', -, hplace', -⟩ := hentry later hlater
    exact ⟨_, _, hplace, hplace', Patch.image_lt htext hplace hplace' hlt⟩
  · intro hmem
    obtain ⟨still, hstill, rfl⟩ := List.mem_map.1 hmem
    obtain ⟨other, hother, hplace⟩ := hothers.only still hstill
    obtain ⟨still', hstill', hplace', hname⟩ := hentry other hother
    obtain rfl := eq_of_anchor_eq hnow hstill hstill' (Option.some.inj (hplace.symm.trans hplace'))
    exact List.mem_map.2 ⟨other, hother, by rw [hplace, hname]⟩
  · intro hmem
    obtain ⟨other, hother, rfl⟩ := List.mem_map.1 hmem
    obtain ⟨still, hstill, hplace, hname⟩ := hentry other hother
    exact List.mem_map.2 ⟨still, hstill, by rw [hplace, hname]⟩

/-- So the names of the sites are those of the sites that are left. -/
theorem OthersRead.map_name_eq (h : sites dialect source = .ok found)
    (hnow : sites dialect text = .ok now) (htext : Patch.applyAll source patches = .ok text)
    (hagain : again ∈ now) (himage : Patch.image source patches site.anchor = some again.anchor)
    (hothers : OthersRead source patches found now site.anchor) :
    now.map Site.name = namesWith site.anchor again.name (sparedSites patches found) := by
  have hlisted := congrArg (List.map Prod.snd) (hothers.listed h hnow htext hagain himage)
  rw [List.map_map, List.map_map] at hlisted
  exact hlisted

theorem addresses_of_map_name (hnow : sites dialect text = .ok now) {names : List Text}
    (hnames : now.map Site.name = names) :
    addresses dialect text = .ok (RenderedNode.addressesOf .empty names) := by
  rw [addresses, hnow, ← hnames, ← map_address_of_sites hnow]
  rfl

/-- If the edited site keeps its name, all of them do. -/
theorem OthersRead.listed_of_name_eq (h : sites dialect source = .ok found)
    (hnow : sites dialect text = .ok now) (htext : Patch.applyAll source patches = .ok text)
    (hsite : site ∈ found) (hagain : again ∈ now)
    (himage : Patch.image source patches site.anchor = some again.anchor)
    (hname : again.name = site.name) (hothers : OthersRead source patches found now site.anchor) :
    (now.map fun still => (some still.anchor, still.name))
      = (sparedSites patches found).map fun other =>
          (Patch.image source patches other.anchor, other.name) := by
  rw [hothers.listed h hnow htext hagain himage]
  refine List.map_congr_left fun other hother => ?_
  split
  · next hsame => rw [hname, eq_of_anchor_eq h (sparedSites_subset _ _ hother) hsite hsame]
  · rfl

/-- The sites up to one are left if none of them begins in a patch. -/
theorem sparedSites_append_cons {left right : List Site}
    (hbefore : ∀ other ∈ left ++ [site], patches.all (Patch.spares other.anchor) = true) :
    sparedSites patches (left ++ site :: right) = left ++ site :: sparedSites patches right := by
  have hleft : sparedSites patches (left ++ [site]) = left ++ [site] := List.filter_eq_self.2 hbefore
  calc sparedSites patches (left ++ site :: right)
      = sparedSites patches (left ++ [site]) ++ sparedSites patches right := by
        rw [List.append_cons, sparedSites, List.filter_append]
        rfl
    _ = left ++ site :: sparedSites patches right := by rw [hleft, ← List.append_cons]

/-- The address of a site is told by the names of the sites before it. -/
theorem address_of_append {left right : List Site} (h : sites dialect source = .ok (left ++ site :: right)) :
    (RenderedNode.addressesOf .empty (left.map Site.name ++ [site.name]))[left.length]?
      = some site.address := by
  have hat := congrArg (fun all => all[left.length]?) (map_address_of_sites h)
  have hlength : (left.map Site.name).length = left.length := List.length_map _
  rw [List.map_append, List.map_cons, List.map_append, List.map_cons] at hat
  simp only [List.getElem?_append_right, List.length_map, Nat.le_refl, Nat.sub_self,
    List.getElem?_cons_zero] at hat
  rw [hat, ← hlength, ← RenderedNode.getElem?_addressesOf]

/-- **The edited site keeps its address** if it keeps its name and the sites before it are left. -/
theorem OthersRead.address_eq (h : sites dialect source = .ok found)
    (hnow : sites dialect text = .ok now) (htext : Patch.applyAll source patches = .ok text)
    (hsite : site ∈ found) (hagain : again ∈ now)
    (himage : Patch.image source patches site.anchor = some again.anchor)
    (hname : again.name = site.name) (hothers : OthersRead source patches found now site.anchor)
    (hbefore : ∀ other ∈ found, other.anchor ≤ site.anchor → patches.all (Patch.spares other.anchor)) :
    again.address = site.address := by
  have hlisted := hothers.listed_of_name_eq h hnow htext hsite hagain himage hname
  obtain ⟨left, right, rfl⟩ := List.append_of_mem hsite
  have horder := (List.pairwise_append.1 (List.pairwise_map.1 (pairwise_anchor h))).2.2
  rw [sparedSites_append_cons, List.map_append, List.map_cons] at hlisted
  · -- As many sites stand before it as before, with the same names.
    obtain ⟨left', rest, rfl, hleft, hrest⟩ := List.map_eq_append_iff.1 hlisted
    obtain ⟨still, right', rfl, hstill, -⟩ := List.map_eq_cons_iff.1 hrest
    have hanchor : still.anchor = again.anchor :=
      Option.some.inj ((Prod.mk.inj hstill).1.trans himage)
    obtain rfl := eq_of_anchor_eq hnow (by simp) hagain hanchor
    have hnames : left'.map Site.name = left.map Site.name := by
      have hsnd := congrArg (List.map Prod.snd) hleft
      rwa [List.map_map, List.map_map] at hsnd
    have hlength : left'.length = left.length := by simpa using congrArg List.length hnames
    have hat := address_of_append hnow
    rw [hnames, hlength, hname, address_of_append h] at hat
    exact (Option.some.inj hat).symm
  · intro other hother
    rcases List.mem_append.1 hother with hother | hother
    · exact hbefore other (List.mem_append_left _ hother)
        (Nat.le_of_lt (horder other hother site List.mem_cons_self))
    · obtain rfl := List.mem_singleton.1 hother
      exact hbefore other hsite (Nat.le_refl _)

end Listing

end Retouch
