import Mathlib.Data.List.Forall2
import Retouch.Preview.Rendered
import Retouch.Proofs.Site.Identity

/-!
# The source and the preview address the same elements

`Renders` says which elements a tree of markup is shown as: an element as one of its name in any
letter case, a fragment as what it holds, a text as no element. The main statement is
`addresses_of_renders`: the addresses of a source are those of the elements that it is shown as, one
by one and in order.

The two sides walk different trees and share only the counter. `forall₂_of_renders` lists both walks
element by element, without any counting, and `map_address_ofElements` counts along such a list.
-/

namespace Retouch

open Text

/-- How pieces of markup are shown below the element that they are mounted in. -/
inductive Renders : List Markup → List RenderedNode → Prop where
  | nil : Renders [] []
  /-- A text is no element. -/
  | text {raw : Text} {pieces : List Markup} {nodes : List RenderedNode}
      (rest : Renders pieces nodes) : Renders (.text raw :: pieces) nodes
  /-- A fragment is shown as what it holds. -/
  | fragment {children pieces : List Markup} {inner nodes : List RenderedNode}
      (within : Renders children inner) (rest : Renders pieces nodes) :
      Renders (.fragment children :: pieces) (inner ++ nodes)
  /-- An element with no markup in its attributes is shown under its name, the letters of that in
  either case. Whatever else the preview keeps of it does not matter. -/
  | element {tag : Tag} {name shown text : Text} {address : Option Address} {editable : Bool}
      {children pieces : List Markup} {inner nodes : List RenderedNode}
      (named : tag.name = some name) (spelt : equalIgnoringCase shown name = true)
      (within : Renders children inner) (rest : Renders pieces nodes) :
      Renders (.element tag [] children :: pieces) (.node shown text inner address editable :: nodes)

/-- Whether an element of a source and one of the preview have the same name. -/
def SameName (element : Tag × List Markup) (node : RenderedNode) : Prop :=
  ∃ name, element.1.name = some name ∧ normaliseTag node.tag = normaliseTag name

/-- Letter case does not matter to addresses. -/
theorem normaliseTag_eq_of_equalIgnoringCase {s t : Text} (h : equalIgnoringCase s t = true) :
    normaliseTag s = normaliseTag t := by
  have hlower : lower s = lower t := eq_of_beq h
  rw [normaliseTag, normaliseTag, ← trim_lower, ← trim_lower, hlower]

theorem RenderedNode.forestDescendants_append (left right : List RenderedNode) :
    forestDescendants (left ++ right) = forestDescendants left ++ forestDescendants right := by
  induction left with
  | nil => rfl
  | cons n left ih => simp [forestDescendants, ih]

/-- The walk over the source and the walk over the preview meet the same elements. -/
theorem forall₂_of_renders {pieces : List Markup} {nodes : List RenderedNode}
    (h : Renders pieces nodes) :
    List.Forall₂ SameName (Markup.elementsOfAll pieces) (RenderedNode.forestDescendants nodes) := by
  induction h with
  | nil => exact .nil
  | text _ ih => simpa [Markup.elementsOfAll, Markup.elements] using ih
  | fragment _ _ within rest =>
    rw [RenderedNode.forestDescendants_append, Markup.elementsOfAll, Markup.elements]
    exact List.rel_append within rest
  | element named spelt _ _ within rest =>
    rw [Markup.elementsOfAll, Markup.elements, Markup.elementsOfAll, List.nil_append,
      RenderedNode.forestDescendants, RenderedNode.withDescendants]
    refine .cons ⟨_, named, normaliseTag_eq_of_equalIgnoringCase spelt⟩ ?_
    exact List.rel_append within rest

/-- A counter only looks at the normal spelling of a name. -/
theorem Counter.next_congr (counter : Counter) {s t : Text} (h : normaliseTag s = normaliseTag t) :
    counter.next s = counter.next t := by
  rw [next, next, count, count, h]
  exact Prod.ext (Address.ext h rfl) rfl

/-- Elements with the same names get the same addresses, whatever was counted before. -/
theorem map_address_ofElements {elements : List (Tag × List Markup)} {nodes : List RenderedNode}
    (h : List.Forall₂ SameName elements nodes) (counter : Counter) :
    (Site.ofElements counter elements).map Site.address
      = RenderedNode.addressesOf counter (nodes.map RenderedNode.tag) := by
  induction h generalizing counter with
  | nil => simp [Site.ofElements, RenderedNode.addressesOf]
  | @cons element node elements nodes hsame _ ih =>
    obtain ⟨tag, children⟩ := element
    obtain ⟨name, hname, hspelt⟩ := hsame
    have hnext : counter.next node.tag = counter.next name := counter.next_congr hspelt
    rw [Site.ofElements_cons_some hname, List.map_cons, List.map_cons, RenderedNode.addressesOf,
      hnext, ih]
    rfl

/-- **Both sides address alike.** If the markup of a source is static, its addresses are those of the
elements that it is shown as, mounted in any element. -/
theorem addresses_of_renders {dialect : Dialect} {source : Text} {tree : Markup}
    {nodes : List RenderedNode} (hsource : Script.parse dialect.typed source = .ok [tree])
    (hshown : Renders [tree] nodes) (mount text : Text) (address : Option Address)
    (editable : Bool) :
    addresses dialect source
      = .ok (RenderedNode.addresses (.node mount text nodes address editable)) := by
  have hsites : sites dialect source
      = .ok (Site.ofElements .empty (Markup.elementsOfAll [tree])) := by
    rw [sites, hsource]
  rw [addresses, hsites]
  exact congrArg Except.ok (map_address_ofElements (forall₂_of_renders hshown) .empty)

/-- A fragment in a fragment, names of two parts, and a preview that spells them as it likes. -/
theorem addresses_of_renders_fragments :
    let shown : List RenderedNode :=
      [.leaf "P".toList "a".toList, .element "SVG:g".toList [.leaf "p".toList []]]
    ∃ tree, Script.parse true "x = <><p>a</p>\n<><svg:g k=\"1\"><p/></svg:g></></>".toList = .ok [tree] ∧
      Renders [tree] shown ∧
        addresses .tsx "x = <><p>a</p>\n<><svg:g k=\"1\"><p/></svg:g></></>".toList
          = .ok (RenderedNode.addresses (.element "main".toList shown)) := by
  intro shown
  have hparse : ∃ tree, Script.parse true
      "x = <><p>a</p>\n<><svg:g k=\"1\"><p/></svg:g></></>".toList = .ok [tree] ∧
      Renders [tree] shown := by
    refine ⟨_, rfl, ?_⟩
    refine .fragment (?_ : Renders _ shown) .nil
    refine .element rfl (by decide) (.text .nil) (.text ?_)
    refine .fragment (.element rfl (by decide) ?_ .nil) .nil
    exact .element rfl (by decide) .nil .nil
  obtain ⟨tree, htree, hshown⟩ := hparse
  refine ⟨tree, htree, hshown, ?_⟩
  exact addresses_of_renders (show Script.parse Dialect.tsx.typed _ = _ from htree) hshown _ _ _ _

end Retouch
