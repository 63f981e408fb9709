import Retouch.Proofs.Site.Ranks

/-!
# Marking a rendered tree

`instrument` goes through a tree and writes into it, `addresses` only lists, and `find?` searches.
The main statement is `marked_of_instrument`: they agree. The elements of a marked tree carry, one by
one, the addresses that the tree is listed under, each of which finds the element that carries it.

Forests are gone through by `forest_induction`: an element, those in it, and those beside it. What is
in a tree apart from its marks is what `bare` leaves of it. Marking leaves that alone
(`bareForest_markForest`) and reads nothing else (`markForest_bareForest`), so marking again changes
nothing.
-/

namespace Retouch

namespace RenderedNode

/-! ## Forests -/

/-- What holds of no elements, and of an element with others beside it if it holds of those in it and
of those beside it, holds of all forests. -/
@[elab_as_elim]
theorem forest_induction {motive : List RenderedNode → Prop} (nil : motive [])
    (cons : ∀ tag text children address editable rest, motive children → motive rest →
      motive (node tag text children address editable :: rest)) :
    (nodes : List RenderedNode) → motive nodes
  | [] => nil
  | node tag text children address editable :: rest =>
    cons tag text children address editable rest (forest_induction nil cons children)
      (forest_induction nil cons rest)

section

variable (tag text : Text) (children rest : List RenderedNode) (address : Option Address)
  (editable : Bool)

@[simp] theorem forestDescendants_nil : forestDescendants [] = [] := by rw [forestDescendants]

@[simp] theorem forestDescendants_node :
    forestDescendants (node tag text children address editable :: rest)
      = node tag text children address editable
          :: (forestDescendants children ++ forestDescendants rest) := by
  rw [forestDescendants, withDescendants, List.cons_append]

@[simp] theorem markForest_nil (progress : Progress) :
    markForest progress [] = ([], progress) := by rw [markForest]

theorem markForest_node (progress : Progress) :
    markForest progress (node tag text children address editable :: rest)
      = let inner := markForest ⟨(progress.counter.next tag).2, progress.marked + 1⟩ children
        let behind := markForest inner.2 rest
        (node tag text inner.1 (some (progress.counter.next tag).1) children.isEmpty :: behind.1,
          behind.2) := by
  rw [markForest, mark]

theorem findAmong?_node (sought : Address) :
    findAmong? (node tag text children address editable :: rest) sought
      = (if address = some sought then some (node tag text children address editable)
          else findAmong? children sought).or (findAmong? rest sought) := by
  rw [findAmong?, find?]
  rfl

end

/-! ## Traversals -/

/-- The counter behind the elements of some names. -/
def counterBehind (counter : Counter) (names : List Text) : Counter :=
  names.foldl (fun counter name => (counter.next name).2) counter

theorem addressesOf_append (counter : Counter) (left right : List Text) :
    addressesOf counter (left ++ right)
      = addressesOf counter left ++ addressesOf (counterBehind counter left) right := by
  induction left generalizing counter with
  | nil => rfl
  | cons name left ih => simp [addressesOf_cons, counterBehind, ih]

/-- The names of the elements of a forest, in document order. -/
def tagsOf (nodes : List RenderedNode) : List Text := (forestDescendants nodes).map tag

@[simp] theorem tagsOf_nil : tagsOf [] = [] := by simp [tagsOf]

@[simp] theorem tagsOf_node (tag text : Text) (children rest : List RenderedNode)
    (address : Option Address) (editable : Bool) :
    tagsOf (node tag text children address editable :: rest)
      = tag :: (tagsOf children ++ tagsOf rest) := by
  simp [tagsOf, RenderedNode.tag]

/-- The search takes the elements in document order. -/
theorem findAmong?_eq (nodes : List RenderedNode) (sought : Address) :
    findAmong? nodes sought = (forestDescendants nodes).find? fun n => n.address = some sought := by
  induction nodes using forest_induction with
  | nil => simp [findAmong?]
  | cons tag text children address editable rest within behind =>
    rw [findAmong?_node, forestDescendants_node, List.find?_cons, List.find?_append, within, behind]
    by_cases h : address = some sought <;> simp [RenderedNode.address, h]

/-- Marking counts every element once. -/
theorem progress_markForest (nodes : List RenderedNode) (progress : Progress) :
    (markForest progress nodes).2
      = ⟨counterBehind progress.counter (tagsOf nodes),
          progress.marked + (tagsOf nodes).length⟩ := by
  induction nodes using forest_induction generalizing progress with
  | nil => simp [counterBehind]
  | cons tag text children address editable rest within behind =>
    -- What is in the element is marked before what is beside it, so the counter behind the one is
    -- that before the other.
    rw [markForest_node, tagsOf_node]
    simp only [within, behind]
    simp only [counterBehind, List.foldl_cons, List.foldl_append, List.length_cons,
      List.length_append, Progress.mk.injEq, true_and]
    omega

/-- **Marking writes down what the listing of the forest gives.** -/
theorem map_address_markForest (nodes : List RenderedNode) (progress : Progress) :
    (forestDescendants (markForest progress nodes).1).map address
      = (addressesOf progress.counter (tagsOf nodes)).map some := by
  induction nodes using forest_induction generalizing progress with
  | nil => simp [addressesOf]
  | cons tag text children address editable rest within behind =>
    rw [markForest_node, tagsOf_node]
    simp only [forestDescendants_node, List.map_cons, List.map_append, within, behind,
      progress_markForest, addressesOf_cons, addressesOf_append]
    rfl

theorem isEmpty_markForest (nodes : List RenderedNode) (progress : Progress) :
    (markForest progress nodes).1.isEmpty = nodes.isEmpty := by
  cases nodes with
  | nil => simp
  | cons n rest =>
    obtain ⟨⟩ := n
    rw [markForest_node]
    rfl

/-- Marked elements are editable exactly if they are leaves. -/
theorem editable_markForest (nodes : List RenderedNode) (progress : Progress) :
    ∀ n ∈ forestDescendants (markForest progress nodes).1, n.editable = n.isLeaf := by
  induction nodes using forest_induction generalizing progress with
  | nil => simp
  | cons tag text children address editable rest within behind =>
    rw [markForest_node]
    intro n hn
    simp only [forestDescendants_node, List.mem_cons, List.mem_append] at hn
    rcases hn with rfl | hn | hn
    · exact (isEmpty_markForest children _).symm
    · exact within _ n hn
    · exact behind _ n hn

/-! ## What is not marks -/

mutual

/-- An element and all below it without their marks. -/
def bare : RenderedNode → RenderedNode
  | node tag text children _ _ => node tag text (bareForest children) none false

/-- The elements of a forest without their marks. -/
def bareForest : List RenderedNode → List RenderedNode
  | [] => []
  | n :: rest => bare n :: bareForest rest

end

@[simp] theorem bareForest_nil : bareForest [] = [] := by rw [bareForest]

@[simp] theorem bareForest_node (tag text : Text) (children rest : List RenderedNode)
    (address : Option Address) (editable : Bool) :
    bareForest (node tag text children address editable :: rest)
      = node tag text (bareForest children) none false :: bareForest rest := by
  rw [bareForest, bare]

/-- Marking leaves all but the marks alone. -/
theorem bareForest_markForest (nodes : List RenderedNode) (progress : Progress) :
    bareForest (markForest progress nodes).1 = bareForest nodes := by
  induction nodes using forest_induction generalizing progress with
  | nil => simp
  | cons tag text children address editable rest within behind =>
    simp [markForest_node, within, behind]

theorem isEmpty_bareForest (nodes : List RenderedNode) :
    (bareForest nodes).isEmpty = nodes.isEmpty := by
  cases nodes with
  | nil => simp
  | cons n rest => rfl

/-- Marking reads nothing of the marks. -/
theorem markForest_bareForest (nodes : List RenderedNode) (progress : Progress) :
    markForest progress (bareForest nodes) = markForest progress nodes := by
  induction nodes using forest_induction generalizing progress with
  | nil => simp
  | cons tag text children address editable rest within behind =>
    simp [markForest_node, within, behind, isEmpty_bareForest]

/-- Marking what is marked gives it again. -/
theorem markForest_markForest (nodes : List RenderedNode) (earlier progress : Progress) :
    markForest progress (markForest earlier nodes).1 = markForest progress nodes := by
  rw [← markForest_bareForest, bareForest_markForest, markForest_bareForest]

theorem tagsOf_bareForest (nodes : List RenderedNode) :
    tagsOf (bareForest nodes) = tagsOf nodes := by
  induction nodes using forest_induction with
  | nil => simp
  | cons tag text children address editable rest within behind => simp [within, behind]

theorem tagsOf_markForest (nodes : List RenderedNode) (progress : Progress) :
    tagsOf (markForest progress nodes).1 = tagsOf nodes := by
  rw [← tagsOf_bareForest, bareForest_markForest, tagsOf_bareForest]

/-! ## Trees -/

/-- What it means that `marked` is the tree `root` with the elements below it marked, `count` of
them. -/
structure Marked (root marked : RenderedNode) (count : Nat) : Prop where
  /-- The elements carry the addresses that the tree is listed under, in document order. -/
  carried : marked.descendants.map address = root.addresses.map some
  /-- The marked tree is listed under the same addresses. -/
  listed : marked.addresses = root.addresses
  counted : count = root.addresses.length
  /-- No rank reaches the number of elements. -/
  bounded : ∀ a ∈ root.addresses, a.index < count
  editable : ∀ n ∈ marked.descendants, n.editable = n.isLeaf
  /-- Each address leads to the element that stands where it is listed. -/
  found : ∀ i (hi : i < root.addresses.length), ∃ n,
    marked.descendants[i]? = some n ∧ marked.find? root.addresses[i] = some n
  /-- No other address leads anywhere. -/
  notFound : ∀ a, a ∉ root.addresses → marked.find? a = none
  /-- Names, texts and what is in what are as they were. -/
  content : marked.bare = root.bare
  /-- Of `root` itself nothing but what is in it has changed. -/
  kept : marked = node root.tag root.text marked.children root.address root.editable
  /-- Marking again changes nothing. -/
  again : marked.instrument = (marked, count)

section

variable (nodes : List RenderedNode)

/-- What is marked from the start, and how it is listed. -/
theorem map_address_start :
    (forestDescendants (markForest .start nodes).1).map address
      = (addressesOf .empty (tagsOf nodes)).map some := map_address_markForest nodes .start

/-- A listed address leads to the element that stands where it is listed. -/
theorem exists_findAmong? {i : Nat} (hi : i < (addressesOf .empty (tagsOf nodes)).length) :
    ∃ n, (forestDescendants (markForest .start nodes).1)[i]? = some n ∧
      findAmong? (markForest .start nodes).1 (addressesOf .empty (tagsOf nodes))[i] = some n := by
  have hmap := map_address_start nodes
  have hlength := congrArg List.length hmap
  rw [List.length_map, List.length_map] at hlength
  have hin : i < (forestDescendants (markForest .start nodes).1).length := by omega
  have haddress : (forestDescendants (markForest .start nodes).1)[i].address
      = some (addressesOf .empty (tagsOf nodes))[i] := by
    have hget := congrArg (fun addresses : List (Option Address) => addresses[i]?) hmap
    simpa only [List.getElem?_map, List.getElem?_eq_getElem hin, List.getElem?_eq_getElem hi,
      Option.map_some, Option.some.injEq] using hget
  have hnodup : ((forestDescendants (markForest .start nodes).1).map address).Nodup := by
    rw [hmap]
    exact (nodup_addressesOf _ _).map fun _ _ => Option.some.inj
  -- The search takes the first element with the address, and there is only one.
  refine ⟨_, List.getElem?_eq_getElem hin, ?_⟩
  rw [findAmong?_eq, ← haddress]
  exact find?_eq_some_of_nodup hnodup (List.getElem_mem hin)

/-- No other address leads anywhere. -/
theorem findAmong?_eq_none {a : Address} (h : a ∉ addressesOf .empty (tagsOf nodes)) :
    findAmong? (markForest .start nodes).1 a = none := by
  rw [findAmong?_eq, List.find?_eq_none]
  intro n hn hsame
  have hmem := List.mem_map_of_mem (f := address) hn
  rw [map_address_start] at hmem
  obtain ⟨b, hb, hbn⟩ := List.mem_map.1 hmem
  have heq : b = a := Option.some.inj (hbn.trans (by simpa using hsame))
  exact h (heq ▸ hb)

end

/-- **Marking, listing and searching agree.** -/
theorem marked_of_instrument (root : RenderedNode) :
    Marked root root.instrument.1 root.instrument.2 := by
  obtain ⟨tag, text, children, address, editable⟩ := root
  have hcount : (markForest .start children).2.marked
      = (addressesOf .empty (tagsOf children)).length := by
    rw [progress_markForest, length_addressesOf]
    exact Nat.zero_add _
  exact {
    carried := map_address_start children
    listed := congrArg (addressesOf .empty) (tagsOf_markForest children .start)
    counted := hcount
    bounded := by
      intro a ha
      have hlt : a.index < (tagsOf children).length := index_lt_length ha
      rw [← length_addressesOf .empty, ← hcount] at hlt
      exact hlt
    editable := editable_markForest children .start
    found := fun i hi => exists_findAmong? children hi
    notFound := fun a ha => findAmong?_eq_none children ha
    content := congrArg (node tag text · none false) (bareForest_markForest children .start)
    kept := rfl
    again := by
      show ((node tag text _ address editable, _) : RenderedNode × Nat) = _
      rw [markForest_markForest]
      rfl }

/-- What an element was marked with before is forgotten. -/
example :
    let root := element ['m'] [node ['P'] [] [leaf ['p'] []] (some (.of ['x'] 7)) true]
    root.instrument.1.descendants.map address = [some (.of ['p'] 0), some (.of ['p'] 1)] ∧
      (root.find? (.of ['x'] 7)).isSome = true ∧
      (root.instrument.1.find? (.of ['x'] 7)).isNone = true := by decide

end RenderedNode

end Retouch
