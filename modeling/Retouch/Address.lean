import Retouch.Text.Case

/-!
# Element addresses

An element is addressed by its tag name and its rank among the elements of that name, counted in
document order. Tag names are compared without regard to ASCII letter case and to blanks around
them: `normaliseTag` gives the one spelling that an address carries (`normaliseTag_normaliseTag`).

`Counter` hands out addresses in traversal order: the source walk and the walk over a rendered tree
share it, so both rank elements by the same rule.
-/

namespace Retouch

open Text

/-- The spelling of a tag name that addresses carry. -/
def normaliseTag (tag : Text) : Text := lower (trim tag)

/-- Normalising twice changes nothing. -/
theorem normaliseTag_normaliseTag (tag : Text) : normaliseTag (normaliseTag tag) = normaliseTag tag := by
  rw [normaliseTag, normaliseTag, trim_lower, trim_trim, lower_lower]

/-- One element instance within a traversal. -/
structure Address where
  /-- The tag name, in normal spelling. -/
  tag : Text
  /-- The rank among the elements of that name, from 0. -/
  index : Nat
  normal : normaliseTag tag = tag
deriving DecidableEq

namespace Address

/-- The address of the element of rank `index` among those named `tag`, however that is spelt. -/
def of (tag : Text) (index : Nat) : Address :=
  ⟨normaliseTag tag, index, normaliseTag_normaliseTag tag⟩

@[simp] theorem of_tag (tag : Text) (index : Nat) : (of tag index).tag = normaliseTag tag := rfl

@[simp] theorem of_index (tag : Text) (index : Nat) : (of tag index).index = index := rfl

/-- Two addresses are equal if their names and ranks are. -/
@[ext] theorem ext {a b : Address} (htag : a.tag = b.tag) (hindex : a.index = b.index) : a = b := by
  cases a; cases b; simp_all

/-- Whether the address names elements called `name`. -/
def matchesTag (a : Address) (name : Text) : Bool := equalIgnoringCase a.tag (trim name)

/-- The address as shown to a user: `p[0]`. -/
def display (a : Address) : Text := a.tag ++ '[' :: Nat.toDigits 10 a.index ++ [']']

end Address

/-- The order of texts by code points, the shorter first where one begins the other. -/
def compareTexts : Text → Text → Ordering
  | [], [] => .eq
  | [], _ :: _ => .lt
  | _ :: _, [] => .gt
  | c :: s, d :: t => (compare c.toNat d.toNat).then (compareTexts s t)

/-- The order of addresses: by name, then by rank. -/
def Address.compare (a b : Address) : Ordering :=
  (compareTexts a.tag b.tag).then (Ord.compare a.index b.index)

/-! ## Counting -/

/-- How many elements of each name a traversal has met so far. -/
structure Counter where
  /-- Each name met, with the number of elements that had it. -/
  tallies : List (Text × Nat)
deriving DecidableEq, Inhabited

namespace Counter

/-- Nothing met yet. -/
def empty : Counter := ⟨[]⟩

/-- The tally kept for the name `tag`, which is in normal spelling. -/
def tallyOf (tag : Text) : List (Text × Nat) → Nat
  | [] => 0
  | (name, n) :: rest => if name = tag then n else tallyOf tag rest

/-- The tallies with one more element of the name `tag`. -/
def raise (tag : Text) : List (Text × Nat) → List (Text × Nat)
  | [] => [(tag, 1)]
  | (name, n) :: rest => if name = tag then (name, n + 1) :: rest else (name, n) :: raise tag rest

/-- The elements met so far that are named `tag`. -/
def count (counter : Counter) (tag : Text) : Nat := tallyOf (normaliseTag tag) counter.tallies

/-- The address of the next element named `tag` in traversal order. -/
def next (counter : Counter) (tag : Text) : Address × Counter :=
  (.of tag (counter.count tag), ⟨raise (normaliseTag tag) counter.tallies⟩)

theorem tallyOf_raise (tag other : Text) (tallies : List (Text × Nat)) :
    tallyOf other (raise tag tallies) = tallyOf other tallies + if other = tag then 1 else 0 := by
  induction tallies with
  | nil => by_cases h : other = tag <;> simp [raise, tallyOf, h, @eq_comm _ tag other]
  | cons entry rest ih =>
    obtain ⟨name, n⟩ := entry
    by_cases hname : name = tag
    · subst hname
      by_cases h : other = name
      · subst h; simp [raise, tallyOf]
      · simp [raise, tallyOf, h, Ne.symm h]
    · by_cases h : name = other
      · subst h; simp [raise, tallyOf, hname]
      · simp [raise, tallyOf, hname, h, ih]

@[simp] theorem count_empty (tag : Text) : empty.count tag = 0 := rfl

/-- Meeting an element raises the count of its own name by one and no other. -/
theorem count_next (counter : Counter) (tag other : Text) :
    (counter.next tag).2.count other
      = counter.count other + if normaliseTag other = normaliseTag tag then 1 else 0 :=
  tallyOf_raise _ _ _

end Counter

/-! ## Names of intrinsic elements -/

/-- Whether `part` is a small letter followed by letters, digits, hyphens and underscores of
ASCII. -/
def isNamePart : Text → Bool
  | [] => false
  | c :: rest => isSmall c && rest.all fun d => d.isAlphanum || d == '-' || d == '_'

/-- Whether `name` can be the new name of an intrinsic element: one name part, or two around a
colon. -/
def isIntrinsicTagName (name : Text) : Bool :=
  match name.splitOn ':' with
  | [part] => isNamePart part
  | [space, part] => isNamePart space && isNamePart part
  | _ => false

end Retouch
