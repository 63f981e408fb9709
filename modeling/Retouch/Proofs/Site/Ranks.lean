import Mathlib.Data.List.Nodup
import Retouch.Preview.Rendered
import Retouch.Site

/-!
# Ranks

A traversal gives the elements of each name the ranks that follow those which the name had before,
without a gap: `ranks_addressesOf` is the one induction along a traversal. From it, an address is
handed out exactly if its rank is in that range (`mem_addressesOf_iff`), and no address is handed out
twice (`nodup_addressesOf`). Both traversals are such lists of addresses, that of a rendered tree by
definition and that of a source by `Site.map_address_eq`.
-/

namespace Retouch

/-- What tells the members of a list apart finds each of them. -/
theorem find?_eq_some_of_nodup {α β : Type} [DecidableEq β] {key : α → β} {l : List α} {x : α}
    (h : (l.map key).Nodup) (hx : x ∈ l) : l.find? (fun y => key y = key x) = some x := by
  obtain ⟨first, hfirst⟩ : ∃ first, l.find? (fun y => key y = key x) = some first :=
    Option.isSome_iff_exists.1 (List.find?_isSome.2 ⟨x, hx, by simp⟩)
  have hsame : key first = key x := by simpa using List.find?_some hfirst
  rw [hfirst, List.inj_on_of_nodup_map h (List.mem_of_find?_eq_some hfirst) hx hsame]

/-- How many of some names are spellings of `tag`. -/
def occurrences (tag : Text) (names : List Text) : Nat :=
  names.countP fun name => normaliseTag name = normaliseTag tag

@[simp] theorem occurrences_nil (tag : Text) : occurrences tag [] = 0 := rfl

theorem occurrences_cons (tag name : Text) (names : List Text) :
    occurrences tag (name :: names)
      = occurrences tag names + if normaliseTag name = normaliseTag tag then 1 else 0 := by
  simp [occurrences, List.countP_cons]

theorem occurrences_append (tag : Text) (left right : List Text) :
    occurrences tag (left ++ right) = occurrences tag left + occurrences tag right :=
  List.countP_append

/-- Names are told apart by their normal spelling. -/
theorem occurrences_normaliseTag (tag : Text) (names : List Text) :
    occurrences (normaliseTag tag) names = occurrences tag names := by
  simp [occurrences, normaliseTag_normaliseTag]

theorem occurrences_le_length (tag : Text) (names : List Text) :
    occurrences tag names ≤ names.length := List.countP_le_length

/-- Names are counted by their normal spelling. -/
theorem Counter.count_normaliseTag (counter : Counter) (tag : Text) :
    counter.count (normaliseTag tag) = counter.count tag := by
  rw [count, count, normaliseTag_normaliseTag]

namespace RenderedNode

theorem addressesOf_cons (counter : Counter) (name : Text) (names : List Text) :
    addressesOf counter (name :: names)
      = .of name (counter.count name) :: addressesOf (counter.next name).2 names := rfl

@[simp] theorem length_addressesOf (counter : Counter) (names : List Text) :
    (addressesOf counter names).length = names.length := by
  induction names generalizing counter with
  | nil => rfl
  | cons name names ih => simp [addressesOf_cons, ih]

/-- The address of an element is told by the names before it. -/
theorem getElem?_addressesOf (counter : Counter) (left : List Text) (name : Text) (right : List Text) :
    (addressesOf counter (left ++ name :: right))[left.length]?
      = (addressesOf counter (left ++ [name]))[left.length]? := by
  induction left generalizing counter with
  | nil => rfl
  | cons first left ih =>
    simp only [List.cons_append, addressesOf_cons, List.length_cons, List.getElem?_cons_succ]
    exact ih (counter.next first).2

/-- **Ranks have no gap.** The elements of a name get the ranks from the one that it had reached. -/
theorem ranks_addressesOf (counter : Counter) (tag : Text) (names : List Text) :
    ((addressesOf counter names).filter fun a => a.tag = normaliseTag tag).map Address.index
      = List.range' (counter.count tag) (occurrences tag names) := by
  induction names generalizing counter with
  | nil => simp [addressesOf]
  | cons name names ih =>
    rw [addressesOf_cons, occurrences_cons]
    by_cases h : normaliseTag name = normaliseTag tag
    · have hcount : counter.count name = counter.count tag := by
        rw [← counter.count_normaliseTag name, h, counter.count_normaliseTag]
      rw [List.filter_cons_of_pos (by simp [h]), List.map_cons, ih, Counter.count_next,
        if_pos h.symm, if_pos h, Address.of_index, hcount, List.range'_succ]
    · rw [List.filter_cons_of_neg (by simp [h]), ih, Counter.count_next,
        if_neg (Ne.symm h), if_neg h, Nat.add_zero, Nat.add_zero]

/-- An address is handed out if its rank is one of those that its name gets. -/
theorem mem_addressesOf_iff {counter : Counter} {names : List Text} {a : Address} :
    a ∈ addressesOf counter names
      ↔ counter.count a.tag ≤ a.index ∧ a.index < counter.count a.tag + occurrences a.tag names := by
  have hranks := ranks_addressesOf counter a.tag names
  rw [a.normal] at hranks
  rw [← List.mem_range'_1, ← hranks]
  constructor
  · intro ha
    exact List.mem_map_of_mem (List.mem_filter.2 ⟨ha, by simp⟩)
  · intro hindex
    obtain ⟨b, hb, hsame⟩ := List.mem_map.1 hindex
    obtain ⟨hb, htag⟩ := List.mem_filter.1 hb
    have heq : b = a := Address.ext (by simpa using htag) hsame
    exact heq ▸ hb

/-- **No address is handed out twice.** -/
theorem nodup_addressesOf (counter : Counter) (names : List Text) :
    (addressesOf counter names).Nodup := by
  rw [List.nodup_iff_count_le_one]
  intro a
  have hranks := ranks_addressesOf counter a.tag names
  rw [a.normal] at hranks
  calc (addressesOf counter names).count a
      = ((addressesOf counter names).filter fun b => b.tag = a.tag).count a :=
        (List.count_filter (by simp)).symm
    _ ≤ (((addressesOf counter names).filter fun b => b.tag = a.tag).map Address.index).count
          a.index := List.count_le_count_map
    _ ≤ 1 := by
        rw [hranks]
        exact List.nodup_iff_count_le_one.1 List.nodup_range' a.index

/-- Ranks stay below the number of elements. -/
theorem index_lt_length {names : List Text} {a : Address} (h : a ∈ addressesOf .empty names) :
    a.index < names.length := by
  have hrank := (mem_addressesOf_iff.1 h).2
  have hle := occurrences_le_length a.tag names
  rw [Counter.count_empty] at hrank
  omega

end RenderedNode

namespace Site

/-- A component has no site. -/
theorem ofElements_cons_none {counter : Counter} {tag : Tag} {children : List Markup}
    {rest : List (Tag × List Markup)} (h : tag.name = none) :
    ofElements counter ((tag, children) :: rest) = ofElements counter rest := by
  simp [ofElements, h]

/-- The site of an element that is rendered as itself, and the sites behind it. -/
theorem ofElements_cons_some {counter : Counter} {tag : Tag} {children : List Markup}
    {rest : List (Tag × List Markup)} {name : Text} (h : tag.name = some name) :
    ofElements counter ((tag, children) :: rest)
      = (ofElement counter name tag children).1 :: ofElements (counter.next name).2 rest := by
  rw [ofElements, h]
  rfl

/-- The sites of elements are addressed by the names that are rendered as themselves. -/
theorem map_address_eq (counter : Counter) (elements : List (Tag × List Markup)) :
    (ofElements counter elements).map address
      = RenderedNode.addressesOf counter (elements.filterMap fun element => element.1.name) := by
  induction elements generalizing counter with
  | nil => simp [ofElements, RenderedNode.addressesOf]
  | cons element rest ih =>
    obtain ⟨tag, children⟩ := element
    cases hname : tag.name with
    | none => simp [ofElements_cons_none hname, hname, ih]
    | some name =>
      have haddress : (ofElement counter name tag children).1.address
          = .of name (counter.count name) := rfl
      simp [ofElements_cons_some hname, hname, ih, haddress, RenderedNode.addressesOf_cons]

/-- The names that are rendered as themselves are those of the sites. -/
theorem map_name_eq (counter : Counter) (elements : List (Tag × List Markup)) :
    (ofElements counter elements).map name = elements.filterMap fun element => element.1.name := by
  induction elements generalizing counter with
  | nil => rfl
  | cons element rest ih =>
    obtain ⟨tag, children⟩ := element
    cases hname : tag.name with
    | none => simp [ofElements_cons_none hname, hname, ih]
    | some spelt =>
      have hsite : (ofElement counter spelt tag children).1.name = spelt := rfl
      simp [ofElements_cons_some hname, hname, ih, hsite]

end Site

/-- The sites of a source are addressed by their names. -/
theorem map_address_of_sites {dialect : Dialect} {source : Text} {found : List Site}
    (h : sites dialect source = .ok found) :
    found.map Site.address = RenderedNode.addressesOf .empty (found.map Site.name) := by
  unfold sites at h
  split at h
  · obtain rfl := Except.ok.inj h
    rw [Site.map_address_eq, Site.map_name_eq]
  · cases h

end Retouch
