import Retouch.Proofs.Site.Identity

/-!
# The addresses of a source have no gap

`Markup.population` says how many elements of a tree of markup are rendered under a name, however
they spell it: a sum over the tree that knows nothing of addresses or of the order in which elements
are met. The main statement is `ranked_of_parse`: the sites of a source that can be read have
different addresses, those of one name have the ranks from 0 up to its population, each address
leads back to its site, and no address with another rank leads anywhere.
-/

namespace Retouch

namespace Markup

mutual

/-- How many elements of a piece are rendered under a name, however they spell it: the piece itself,
those in its attributes and those between its tags. -/
def population (name : Text) : Markup → Nat
  | element tag inside children =>
    (if tag.name.map normaliseTag = some (normaliseTag name) then 1 else 0)
      + populationOfAll name inside + populationOfAll name children
  | fragment children => populationOfAll name children
  | code inside => populationOfAll name inside
  | text _ => 0
  | literal _ => 0

/-- How many elements of a forest are rendered under a name. -/
def populationOfAll (name : Text) : List Markup → Nat
  | [] => 0
  | m :: rest => population name m + populationOfAll name rest

end

/-- The names under which elements are rendered. Components have none. -/
def namesOf (elements : List (Tag × List Markup)) : List Text :=
  elements.filterMap fun element => element.1.name

theorem occurrences_namesOf_append (name : Text) (left right : List (Tag × List Markup)) :
    occurrences name (namesOf (left ++ right))
      = occurrences name (namesOf left) + occurrences name (namesOf right) := by
  rw [namesOf, List.filterMap_append, occurrences_append]
  rfl

theorem occurrences_namesOf_cons (name : Text) (tag : Tag) (children : List Markup)
    (rest : List (Tag × List Markup)) :
    occurrences name (namesOf ((tag, children) :: rest))
      = (if tag.name.map normaliseTag = some (normaliseTag name) then 1 else 0)
        + occurrences name (namesOf rest) := by
  cases htag : tag.name with
  | none => simp [namesOf, htag]
  | some own => simp [namesOf, htag, occurrences_cons, Nat.add_comm]

mutual

/-- The walk over a piece meets each of its elements once. -/
theorem occurrences_elements (name : Text) :
    (piece : Markup) → occurrences name (namesOf (elements piece)) = population name piece
  | element tag inside children => by
    rw [elements, occurrences_namesOf_cons, occurrences_namesOf_append,
      occurrences_elementsOfAll name inside, occurrences_elementsOfAll name children, population,
      Nat.add_assoc]
  | fragment children => by
    rw [elements, occurrences_elementsOfAll name children, population]
  | code inside => by
    rw [elements, occurrences_elementsOfAll name inside, population]
  | text _ => by simp [elements, population, namesOf]
  | literal _ => by simp [elements, population, namesOf]

/-- The walk over a forest meets each of its elements once. -/
theorem occurrences_elementsOfAll (name : Text) :
    (pieces : List Markup) →
      occurrences name (namesOf (elementsOfAll pieces)) = populationOfAll name pieces
  | [] => by simp [elementsOfAll, populationOfAll, namesOf]
  | m :: rest => by
    rw [elementsOfAll, occurrences_namesOf_append, occurrences_elements name m,
      occurrences_elementsOfAll name rest, populationOfAll]

end

end Markup

namespace Site

/-- The address of a site carries the normal spelling of its name. -/
theorem tag_of_mem_ofElements {counter : Counter} {elements : List (Tag × List Markup)}
    {site : Site} (h : site ∈ ofElements counter elements) :
    site.address.tag = normaliseTag site.name := by
  induction elements generalizing counter with
  | nil => simp [ofElements] at h
  | cons element rest ih =>
    obtain ⟨tag, children⟩ := element
    cases hname : tag.name with
    | none =>
      rw [ofElements_cons_none hname] at h
      exact ih h
    | some name =>
      rw [ofElements_cons_some hname] at h
      rcases List.mem_cons.1 h with rfl | h
      · rfl
      · exact ih h

variable {pieces : List Markup}

/-- The sites of one name have the ranks from 0 up to its population. -/
theorem ranks_ofElements (name : Text) (pieces : List Markup) :
    ((ofElements .empty (Markup.elementsOfAll pieces)).filter
        fun site => site.address.tag = normaliseTag name).map (fun site => site.address.index)
      = List.range (Markup.populationOfAll name pieces) := by
  have hranks := RenderedNode.ranks_addressesOf .empty name
    (Markup.namesOf (Markup.elementsOfAll pieces))
  rw [Markup.occurrences_elementsOfAll, Counter.count_empty, ← List.range_eq_range',
    Markup.namesOf, ← map_address_eq, List.filter_map, List.map_map] at hranks
  exact hranks

/-- Some site has an address if its rank is below the population of its name. -/
theorem mem_map_address_iff {address : Address} :
    address ∈ (ofElements .empty (Markup.elementsOfAll pieces)).map Site.address
      ↔ address.index < Markup.populationOfAll address.tag pieces := by
  rw [map_address_eq, RenderedNode.mem_addressesOf_iff, Counter.count_empty,
    ← Markup.occurrences_elementsOfAll, Markup.namesOf]
  simp

/-- Ranks stay below the number of sites. -/
theorem index_lt_length {site : Site}
    (h : site ∈ ofElements .empty (Markup.elementsOfAll pieces)) :
    site.address.index < (ofElements .empty (Markup.elementsOfAll pieces)).length := by
  have hmem := List.mem_map_of_mem (f := address) h
  rw [map_address_eq] at hmem
  have hlength := congrArg List.length (map_address_eq .empty (Markup.elementsOfAll pieces))
  rw [List.length_map, RenderedNode.length_addressesOf] at hlength
  rw [hlength]
  exact RenderedNode.index_lt_length hmem

end Site

/-- No site is found for an address if none carries it. -/
theorem findSite_eq_none_iff {found : List Site} {address : Address} :
    findSite found address = none ↔ address ∉ found.map Site.address := by
  simp [findSite, List.find?_eq_none]

variable {dialect : Dialect} {source : Text} {markup : List Markup}

/-- **Addresses are unique and have no gap.** The sites of a source that can be read are told apart by
their addresses, and those of each name have the ranks 0, 1, 2 and so on in document order, as many
as elements are rendered under it. An address leads back to the site that carries it, and to none
exactly if its rank is not below that number. Ranks stay below the number of sites. -/
theorem ranked_of_parse (h : Script.parse dialect.typed source = .ok markup) :
    ∃ found, sites dialect source = .ok found ∧
      (found.map Site.address).Nodup ∧
      (∀ name, (found.filter fun site => site.address.tag = normaliseTag name).map
          (fun site => site.address.index) = List.range (Markup.populationOfAll name markup)) ∧
      (∀ i (hi : i < found.length), findSite found found[i].address = some found[i]) ∧
      (∀ name rank, findSite found (.of name rank) = none
        ↔ Markup.populationOfAll name markup ≤ rank) ∧
      ∀ site ∈ found, site.address.tag = normaliseTag site.name ∧
        site.address.index < found.length := by
  have hfound : sites dialect source
      = .ok (Site.ofElements .empty (Markup.elementsOfAll markup)) := by rw [sites, h]
  refine ⟨_, hfound, nodup_address hfound, fun name => Site.ranks_ofElements name markup, ?_, ?_, ?_⟩
  · intro i hi
    exact findSite_address hfound (List.getElem_mem hi)
  · intro name rank
    rw [findSite_eq_none_iff, Site.mem_map_address_iff, Address.of_tag, Address.of_index, Nat.not_lt,
      ← Markup.occurrences_elementsOfAll, occurrences_normaliseTag, Markup.occurrences_elementsOfAll]
  · intro site hsite
    exact ⟨Site.tag_of_mem_ofElements hsite, Site.index_lt_length hsite⟩

/-- Names that differ in letter case share their ranks, names of two parts have ranks of their own,
and components have none. -/
theorem ranked_of_parse_spellings :
    ∃ markup, Script.parse Dialect.tsx.typed "<p:q><P:Q/><C k=<p/>><p-x/><p/></C></p:q>".toList
        = .ok markup ∧
      ∃ found, sites .tsx "<p:q><P:Q/><C k=<p/>><p-x/><p/></C></p:q>".toList = .ok found ∧
        (found.filter fun site => site.address.tag = normaliseTag "P:q".toList).map
          (fun site => site.address.index) = List.range 2 ∧
        findSite found (.of "P".toList 1) ≠ none ∧ findSite found (.of "P".toList 2) = none ∧
        findSite found (.of "C".toList 0) = none := by
  have hpopulation : (Script.parse Dialect.tsx.typed
      "<p:q><P:Q/><C k=<p/>><p-x/><p/></C></p:q>".toList).toOption.map (fun markup =>
        ["P:q", "P", "C"].map fun name => Markup.populationOfAll name.toList markup)
      = some [2, 2, 0] := by decide +kernel
  cases hparse : Script.parse Dialect.tsx.typed
      "<p:q><P:Q/><C k=<p/>><p-x/><p/></C></p:q>".toList with
  | error faults =>
    rw [hparse] at hpopulation
    cases hpopulation
  | ok markup =>
    rw [hparse] at hpopulation
    simp only [Except.toOption, Option.map_some, Option.some.injEq, List.map_cons, List.map_nil,
      List.cons.injEq] at hpopulation
    obtain ⟨hspelt, hplain, hcomponent, -⟩ := hpopulation
    obtain ⟨found, hfound, -, hranks, -, hnone, -⟩ := ranked_of_parse hparse
    refine ⟨markup, rfl, found, hfound, hspelt ▸ hranks _, ?_, (hnone _ _).2 (Nat.le_of_eq hplain),
      (hnone _ _).2 (Nat.le_of_eq hcomponent)⟩
    rw [Ne, hnone, hplain]
    decide

end Retouch
