import Retouch.Preview.Page
import Retouch.Proofs.Text.Filling

/-!
# What the sandbox page holds

The page is its template with the places filled one after the other, and a later place is filled also in
what was put into an earlier one. So the page is the template with all places filled at once, but not
with the options as they are: each is filled itself by the places behind its own (`settled`). That makes
no difference as long as no name of a place is put into another one: `PageOptions.page_eq_fillAtOnce`.
-/

namespace Retouch

open Text

/-! ## Places filled one after the other -/

/-- Places with what the places behind each of them make of what is put into it. -/
def settled : List (Text × Text) → List (Text × Text)
  | [] => []
  | (name, value) :: rest => (name, fillPlaces value rest) :: settled rest

section Places

variable {names : List Text} {places : List (Text × Text)} {t : Text}

/-- A text in which no name occurs stays as it is. -/
theorem fillPlaces_eq_self (h : ∀ place ∈ places, ¬ place.1 <:+: t) : fillPlaces t places = t := by
  induction places with
  | nil => rfl
  | cons place rest ih =>
    obtain ⟨hplace, hrest⟩ := List.forall_mem_cons.1 h
    have hfirst : replaceAll place.1 place.2 t = t := by
      rw [replaceAll_eq]
      exact fillAtOnce_eq_self (List.forall_mem_singleton.2 hplace)
    show fillPlaces (replaceAll place.1 place.2 t) rest = t
    rw [hfirst]
    exact ih hrest

/-- Nothing changes if no name of a later place is put into an earlier one. -/
theorem settled_eq_self (h : places.Pairwise fun earlier later => ¬ later.1 <:+: earlier.2) :
    settled places = places := by
  induction h with
  | nil => rfl
  | cons hfirst _ ih => rw [settled, fillPlaces_eq_self hfirst, ih]

/-- Places that are filled one after the other go into what others were filled with, too. -/
theorem fillPlaces_fillAtOnce (hnil : ∀ name ∈ names, name ≠ []) (hlaid : Laid names t)
    {filled : List (Text × Text)} (hfilled : ∀ place ∈ filled, place.1 ∈ names)
    (hplaces : ∀ place ∈ places, place.1 ∈ names) :
    fillPlaces (fillAtOnce filled t) places
      = fillAtOnce ((filled.map fun place => (place.1, fillPlaces place.2 places)) ++ settled places)
          t := by
  induction places generalizing filled with
  | nil => simp [fillPlaces, settled]
  | cons place rest ih =>
    obtain ⟨hname, hrest⟩ := List.forall_mem_cons.1 hplaces
    have hplace : ∀ only ∈ [place], only.1 ∈ names := List.forall_mem_singleton.2 hname
    show fillPlaces (replaceAll place.1 place.2 (fillAtOnce filled t)) rest = _
    rw [replaceAll_eq, fillAtOnce_fillAtOnce hnil hfilled hplace hlaid,
      ih (names_andThen hfilled hplace) hrest]
    simp [andThen, settled, fillPlaces, replaceAll_eq, Function.comp_def]

/-- **Places that are filled one after the other** are filled at once, if each value is filled by the
places behind its own. -/
theorem fillPlaces_eq_fillAtOnce (hnil : ∀ name ∈ names, name ≠ []) (hlaid : Laid names t)
    (hplaces : ∀ place ∈ places, place.1 ∈ names) :
    fillPlaces t places = fillAtOnce (settled places) t := by
  have hnone : ∀ place ∈ ([] : List (Text × Text)), place.1 ∈ names :=
    fun _ h => absurd h List.not_mem_nil
  have hstart : fillAtOnce [] t = t := fillAtOnce_eq_self fun _ h => absurd h List.not_mem_nil
  have h := fillPlaces_fillAtOnce hnil hlaid hnone hplaces
  rwa [hstart] at h

end Places

/-! ## The template -/

/-- The names of the places in the template. -/
def placeNames : List Text :=
  ["__REACT_SRC__".toList, "__REACT_DOM_SRC__".toList, "__BABEL_SRC__".toList,
    "__MOUNT_ID_JSON__".toList, "__MOUNT_ID__".toList]

/-- All names have two underscores side by side. -/
theorem laid_of_not_infix {t : Text} (h : ¬ ['_', '_'] <:+: t) : Laid placeNames t := by
  have hnames : ∀ name ∈ placeNames, ['_', '_'] <+: name := by decide +kernel
  exact .word fun name hname => .inr fun hoccurs => h ((hnames name hname).isInfix.trans hoccurs)

theorem laid_lines_cons {line : Text} {lines : List String}
    (h : ¬ ['_', '_'] <:+: line ∨ isLaidFrom placeNames [] line = true)
    (hlines : ∀ other ∈ lines, Laid placeNames other.toList) :
    ∀ other ∈ String.ofList line :: lines, Laid placeNames other.toList := by
  refine List.forall_mem_cons.2 ⟨?_, hlines⟩
  rw [String.toList_ofList]
  exact h.elim laid_of_not_infix (laid_of_isLaidFrom [])

/-- Each name in a line of the template is a word of its own. -/
theorem laid_pageLines : ∀ line ∈ pageLines, Laid placeNames line.toList := by
  -- The characters of a line are read off its literal by unification: the kernel takes long to decode
  -- them.
  unfold pageLines
  repeat refine laid_lines_cons (by decide +kernel) ?_
  exact fun _ h => absurd h List.not_mem_nil

/-- Each name in the template is a word of its own. -/
theorem laid_pageTemplate : Laid placeNames pageTemplate := by
  have hbreak : ∀ name ∈ placeNames, '\n' ∉ name := by decide +kernel
  have hlines : ∀ lines : List String, (∀ line ∈ lines, Laid placeNames line.toList) →
      Laid placeNames (lines.flatMap fun line => line.toList ++ ['\n']) := by
    intro lines h
    induction lines with
    | nil => exact laid_of_not_infix (by decide)
    | cons line lines ih =>
      obtain ⟨hline, hrest⟩ := List.forall_mem_cons.1 h
      rw [List.flatMap_cons, List.append_assoc]
      exact hline.append_cons hbreak (ih hrest)
  exact hlines pageLines laid_pageLines

namespace PageOptions

/-- **The page** is the template with all of its places filled at once, each with what the places behind
it make of its own value. If no name of a later place is put into an earlier one, it is filled with the
values themselves. -/
theorem page_eq_fillAtOnce (o : PageOptions) :
    o.page = fillAtOnce (settled o.places) pageTemplate ∧
      ((o.places.Pairwise fun earlier later => ¬ later.1 <:+: earlier.2) →
        o.page = fillAtOnce o.places pageTemplate) := by
  have hnil : ∀ name ∈ placeNames, name ≠ [] := by decide +kernel
  have hplaces : ∀ place ∈ o.places, place.1 ∈ placeNames :=
    fun _ hplace => List.mem_map_of_mem (f := Prod.fst) hplace
  have hpage : o.page = fillAtOnce (settled o.places) pageTemplate :=
    fillPlaces_eq_fillAtOnce hnil laid_pageTemplate hplaces
  refine ⟨hpage, fun hvalues => ?_⟩
  rw [hpage, settled_eq_self hvalues]

/-- A mount point with a quote and the end of a script. -/
theorem page_eq_fillAtOnce_quoted :
    let o : PageOptions := { standard with mountId := "app\"</script>".toList }
    (o.places.Pairwise fun earlier later => ¬ later.1 <:+: earlier.2) ∧
      o.page = fillAtOnce o.places pageTemplate := by
  intro o
  have hvalues : o.places.Pairwise fun earlier later => ¬ later.1 <:+: earlier.2 := by
    decide +kernel
  exact ⟨hvalues, (page_eq_fillAtOnce o).2 hvalues⟩

/-- The name of the place for the mount point is filled in an address as well, with the quotes of a
script, which end the attribute: the page is not the template with its places filled at once. -/
theorem exists_value_filled :
    ∃ o : PageOptions, "<script src=\"\"root\"\"></script>".toList <:+: o.page ∧
      o.page ≠ fillAtOnce o.places pageTemplate := by
  refine ⟨{ standard with reactSource := "__MOUNT_ID_JSON__".toList }, by decide +kernel, fun h => ?_⟩
  -- The pages differ in the first line that has a place.
  exact absurd (congrArg (List.take 118) h) (by decide +kernel)

end PageOptions

end Retouch
