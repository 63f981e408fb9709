import Retouch.Proofs.Preview.Agreement
import Retouch.Proofs.Preview.Instrument

/-!
# Leaves of a source and of its preview

The site of an element is a leaf if neither an element nor a fragment stands directly between its tags.
An element of the preview is editable if it holds no element, and fragments are not elements. So the
two differ on `<p><>a</></p>` (`exists_editable_no_leaf`).

The main statement is `leaves_of_renders`: they differ nowhere else. An element of the preview is
editable exactly if no element stands between the tags of the source, however deep in fragments, and
what is a leaf of the source is editable.
-/

namespace Retouch

open Text

/-- Whether fragments stand directly between two tags, and no element in or beside them. -/
def BareFragments (children : List Markup) : Prop :=
  (∃ inner, Markup.fragment inner ∈ children) ∧ Markup.elementsOfAll children = []

/-- What an element that has `children` between its tags, its site and the element that it is shown as
have to do with each other. -/
structure LeavesAlike (children : List Markup) (site : Site) (node : RenderedNode) : Prop where
  address : node.address = some site.address
  /-- A leaf of the source has only texts between its tags. -/
  leaf : site.isLeaf = true ↔ ∀ piece ∈ children, ∃ raw, piece = .text raw
  /-- An element can be edited if no element stands between the tags, in fragments or not. -/
  editable : node.editable = true ↔ Markup.elementsOfAll children = []
  /-- The two agree but for fragments that show no element. -/
  agree : site.isLeaf = node.editable ↔ ¬ BareFragments children

/-! ## What is shown of an element -/

/-- Each element is shown as one that holds what is shown of its children. -/
theorem forall₂_children_of_renders {pieces : List Markup} {nodes : List RenderedNode}
    (h : Renders pieces nodes) :
    List.Forall₂ (fun element node => Renders element.2 node.children)
      (Markup.elementsOfAll pieces) (RenderedNode.forestDescendants nodes) := by
  induction h with
  | nil => exact .nil
  | text _ ih => simpa [Markup.elementsOfAll, Markup.elements] using ih
  | fragment _ _ within rest =>
    rw [RenderedNode.forestDescendants_append, Markup.elementsOfAll, Markup.elements]
    exact List.rel_append within rest
  | element named spelt hwithin _ within rest =>
    rw [Markup.elementsOfAll, Markup.elements, Markup.elementsOfAll, List.nil_append,
      RenderedNode.forestDescendants, RenderedNode.withDescendants]
    exact .cons hwithin (List.rel_append within rest)

/-- Nothing is shown exactly if there is no element. -/
theorem isEmpty_of_renders {pieces : List Markup} {nodes : List RenderedNode}
    (h : Renders pieces nodes) : nodes.isEmpty = true ↔ Markup.elementsOfAll pieces = [] := by
  have hlength := (forall₂_of_renders h).length_eq
  rw [← List.length_eq_zero_iff, hlength, List.length_eq_zero_iff, List.isEmpty_iff]
  cases nodes with
  | nil => simp
  | cons n rest =>
    obtain ⟨⟩ := n
    simp

/-- Of static markup only texts are neither elements nor fragments. -/
theorem isStructural_of_renders {pieces : List Markup} {nodes : List RenderedNode}
    (h : Renders pieces nodes) :
    pieces.any Markup.isStructural = false ↔ ∀ piece ∈ pieces, ∃ raw, piece = .text raw := by
  induction h with
  | nil => simp
  | text _ ih => simpa [Markup.isStructural] using ih
  | fragment _ _ _ _ => simp [Markup.isStructural]
  | element _ _ _ _ _ _ => simp [Markup.isStructural]

/-- There are no elements in texts. -/
theorem elementsOfAll_of_texts {pieces : List Markup}
    (h : ∀ piece ∈ pieces, ∃ raw, piece = .text raw) : Markup.elementsOfAll pieces = [] := by
  induction pieces with
  | nil => rw [Markup.elementsOfAll]
  | cons piece rest ih =>
    obtain ⟨raw, rfl⟩ := h piece List.mem_cons_self
    rw [Markup.elementsOfAll, Markup.elements, ih fun p hp => h p (List.mem_cons_of_mem _ hp)]
    rfl

/-- Where no elements are, what is structural is a fragment. -/
theorem exists_fragment_iff {pieces : List Markup} (h : Markup.elementsOfAll pieces = []) :
    (∃ inner, Markup.fragment inner ∈ pieces) ↔ ¬ pieces.any Markup.isStructural = false := by
  rw [Bool.not_eq_false, List.any_eq_true]
  constructor
  · rintro ⟨inner, hmem⟩
    exact ⟨_, hmem, rfl⟩
  · rintro ⟨piece, hmem, hstructural⟩
    cases piece with
    | fragment inner => exact ⟨inner, hmem⟩
    | element tag inside children =>
      obtain ⟨before, behind, rfl⟩ := List.append_of_mem hmem
      simp [Markup.elementsOfAll_append, Markup.elementsOfAll, Markup.elements] at h
    | _ => cases hstructural

/-! ## One element after the other -/

/-- A member of the second list stands beside one of the first. -/
theorem exists_getElem?_of_forall₂ {α β : Type} {r : α → β → Prop} {as : List α} {bs : List β}
    (h : List.Forall₂ r as bs) {i : Nat} {b : β} (hb : bs[i]? = some b) :
    ∃ a, as[i]? = some a ∧ r a b := by
  obtain ⟨hlt, hget⟩ := List.getElem?_eq_some_iff.1 hb
  have hlt' : i < as.length := h.length_eq ▸ hlt
  subst hget
  exact ⟨as[i], List.getElem?_eq_getElem hlt', h.get hlt' hlt⟩

/-- Every element that is shown has a site, which is a leaf if nothing structural is in it. -/
theorem forall₂_ofElements {elements : List (Tag × List Markup)} {nodes : List RenderedNode}
    (h : List.Forall₂ SameName elements nodes) (counter : Counter) :
    List.Forall₂
      (fun element site => site.tag = element.1 ∧ site.isLeaf = !element.2.any Markup.isStructural)
      elements (Site.ofElements counter elements) := by
  induction h generalizing counter with
  | nil => exact .nil
  | @cons element node elements nodes hsame _ ih =>
    obtain ⟨tag, children⟩ := element
    obtain ⟨name, hname, -⟩ := hsame
    rw [Site.ofElements_cons_some hname]
    exact .cons ⟨rfl, rfl⟩ (ih _)

/-- Marking makes those elements editable that are leaves of the tree. -/
theorem RenderedNode.map_editable_markForest (nodes : List RenderedNode) (progress : Progress) :
    (forestDescendants (markForest progress nodes).1).map editable
      = (forestDescendants nodes).map isLeaf := by
  induction nodes using forest_induction generalizing progress with
  | nil => simp
  | cons tag text children address editable rest within behind =>
    rw [markForest_node]
    simp only [forestDescendants_node, List.map_cons, List.map_append, within, behind]
    rfl

/-! ## Leaves -/

/-- The flags of an element, given what it is shown as and how that is marked. -/
theorem leavesAlike_of_renders {children : List Markup} {site : Site} {shown node : RenderedNode}
    (h : Renders children shown.children) (haddress : node.address = some site.address)
    (hleaf : site.isLeaf = !children.any Markup.isStructural)
    (heditable : node.editable = shown.isLeaf) : LeavesAlike children site node := by
  have htexts := isStructural_of_renders h
  have hnone : node.editable = true ↔ Markup.elementsOfAll children = [] := by
    rw [heditable]
    exact isEmpty_of_renders h
  have hsite : site.isLeaf = true ↔ children.any Markup.isStructural = false := by
    rw [hleaf, Bool.not_eq_true']
  refine ⟨haddress, hsite.trans htexts, hnone, ?_⟩
  -- Something structural that is no element is a fragment, and an element is structural.
  have hbare : BareFragments children ↔ node.editable = true ∧ site.isLeaf ≠ true := by
    rw [hnone, Ne, hsite, and_comm, BareFragments]
    refine and_congr_left fun hempty => ?_
    exact exists_fragment_iff hempty
  have hedits : site.isLeaf = true → node.editable = true := fun hs =>
    hnone.2 (elementsOfAll_of_texts (htexts.1 (hsite.1 hs)))
  rw [hbare]
  cases hs : site.isLeaf <;> cases hn : node.editable <;> simp_all

/-- **Leaves of a source and of its preview.** If the markup of a source is static, it has as many
sites as elements that it is shown as, one for the other, and these agree on what is a leaf but where
an element holds fragments without any elements in it. -/
theorem leaves_of_renders {dialect : Dialect} {source : Text} {tree : Markup}
    {nodes : List RenderedNode} (hsource : Script.parse dialect.typed source = .ok [tree])
    (hshown : Renders [tree] nodes) (mount text : Text) (address : Option Address)
    (editable : Bool) :
    ∃ found, sites dialect source = .ok found ∧
      found.length
        = (RenderedNode.node mount text nodes address editable).instrument.1.descendants.length ∧
      ∀ (i : Nat) (site : Site) (node : RenderedNode), found[i]? = some site →
        (RenderedNode.node mount text nodes address editable).instrument.1.descendants[i]?
          = some node →
        ∃ children, (Markup.elementsOfAll [tree])[i]? = some (site.tag, children) ∧
          LeavesAlike children site node := by
  have hnames := forall₂_of_renders hshown
  have haddresses := map_address_ofElements hnames .empty
  have hmarked := RenderedNode.map_address_start nodes
  refine ⟨Site.ofElements .empty (Markup.elementsOfAll [tree]), by rw [sites, hsource], ?_, ?_⟩
  · have hlength := congrArg List.length haddresses
    have hlength' := congrArg List.length hmarked
    simp only [List.length_map] at hlength hlength'
    exact hlength.trans hlength'.symm
  intro i site node hsite hnode
  obtain ⟨⟨tag, children⟩, helement, rfl, hleaf⟩ :=
    exists_getElem?_of_forall₂ (forall₂_ofElements hnames .empty) hsite
  refine ⟨children, helement, ?_⟩
  have hmember : (RenderedNode.forestDescendants (RenderedNode.markForest .start nodes).1)[i]?
      = some node := hnode
  -- The element that is marked stands where the site stands and where it stood before.
  have heditable := congrArg (fun flags : List Bool => flags[i]?)
    (RenderedNode.map_editable_markForest nodes .start)
  have haddress := congrArg (fun addresses : List (Option Address) => addresses[i]?) hmarked
  have hsame := congrArg (fun addresses : List Address => addresses[i]?) haddresses
  simp only [List.getElem?_map, hmember, hsite, Option.map_some] at heditable haddress hsame
  obtain ⟨shown, hshownAt, hflag⟩ := Option.map_eq_some_iff.1 heditable.symm
  obtain ⟨element, helement', hchildren⟩ :=
    exists_getElem?_of_forall₂ (forall₂_children_of_renders hshown) hshownAt
  obtain rfl : element = (site.tag, children) := Option.some.inj (helement'.symm.trans helement)
  refine leavesAlike_of_renders hchildren ?_ hleaf hflag.symm
  rw [RenderedNode.tagsOf, ← hsame] at haddress
  exact Option.some.inj haddress

/-- Of two elements in one, the first holds a text in a fragment. -/
theorem leaves_of_renders_fragment :
    let shown : List RenderedNode :=
      [.element "DIV".toList [.leaf "p".toList "a".toList, .leaf "I".toList []]]
    let marked := (RenderedNode.element "main".toList shown).instrument.1
    ∃ tree, Script.parse true "<div><p><>a</></p><i/></div>".toList = .ok [tree] ∧
      Renders [tree] shown ∧
        ∃ found, sites .tsx "<div><p><>a</></p><i/></div>".toList = .ok found ∧
          found.length = marked.descendants.length ∧
          ∀ (i : Nat) (site : Site) (node : RenderedNode), found[i]? = some site →
            marked.descendants[i]? = some node →
            ∃ children, (Markup.elementsOfAll [tree])[i]? = some (site.tag, children) ∧
              LeavesAlike children site node := by
  intro shown marked
  have hparse : ∃ tree, Script.parse true "<div><p><>a</></p><i/></div>".toList = .ok [tree] ∧
      Renders [tree] shown := by
    refine ⟨_, rfl, ?_⟩
    refine .element rfl (by decide)
      (?_ : Renders _ [.leaf "p".toList "a".toList, .leaf "I".toList []]) .nil
    refine .element rfl (by decide) (.fragment (.text .nil) .nil) ?_
    exact .element rfl (by decide) .nil .nil
  obtain ⟨tree, htree, hshown⟩ := hparse
  refine ⟨tree, htree, hshown, ?_⟩
  exact leaves_of_renders (show Script.parse Dialect.tsx.typed _ = _ from htree) hshown _ _ _ _

/-- An element that holds nothing but a text in a fragment is editable, and no leaf of the source. -/
theorem exists_editable_no_leaf :
    let shown : List RenderedNode := [.leaf "p".toList "a".toList]
    (∃ tree, Script.parse true "<p><>a</></p>".toList = .ok [tree] ∧ Renders [tree] shown) ∧
      (sites .tsx "<p><>a</></p>".toList).map (fun found => found.map Site.isLeaf) = .ok [false] ∧
      (RenderedNode.element "main".toList shown).instrument.1.descendants.map RenderedNode.editable
        = [true] := by
  intro shown
  refine ⟨⟨_, rfl, ?_⟩, by decide +kernel, by decide⟩
  exact .element rfl (by decide) (.fragment (.text .nil) .nil) .nil

end Retouch
