import Retouch.Edit.Json
import Retouch.Proofs.Json.Records
import Retouch.Proofs.Json.RoundTrip

/-!
# Equal addresses match

An address compares its tag name with another spelling in one way, and two addresses are compared in
another: the first takes the blanks off the spelling and does not look at the letter case, the second
compares normal spellings. Both come to the same (`matchesTag_iff`), so that matching is an equivalence
of spellings and addresses are equal exactly if they match and have the same rank. An address in JSON is
that of the fields it has there, however its tag name is spelt (`ofJson?_eq_some_iff`). All of it together
is `of_eq_of_iff_matchesTag`.
-/

namespace Retouch

open Text

namespace Address

open Json (required record? valuesOf nat? max32 text?_eq_some_iff nat?_eq_some_iff nat?_ofNat
  record?_pair_eq_some_iff)

/-! ## Matching -/

/-- A tag name in normal spelling has no capitals. -/
theorem lower_tag (a : Address) : lower a.tag = a.tag := by
  rw [← a.normal, normaliseTag, lower_lower]

/-- An address matches the spellings of its tag name and no others. -/
theorem matchesTag_iff {a : Address} {name : Text} :
    a.matchesTag name = true ↔ a.tag = normaliseTag name := by
  rw [matchesTag, equalIgnoringCase, beq_iff_eq, lower_tag, normaliseTag]

/-- Matching is an equivalence of spellings. -/
theorem equivalence_matchesTag (index : Nat) :
    Equivalence fun a b => (of a index).matchesTag b = true := by
  have hiff : ∀ a b, (of a index).matchesTag b = true ↔ normaliseTag a = normaliseTag b :=
    fun a b => matchesTag_iff
  constructor
  · intro a
    exact (hiff a a).2 rfl
  · intro a b h
    exact (hiff b a).2 ((hiff a b).1 h).symm
  · intro a b c hab hbc
    exact (hiff a c).2 (((hiff a b).1 hab).trans ((hiff b c).1 hbc))

/-! ## Addresses in JSON -/

/-- Whether a value has the fields of an address: an object with each of them once, whatever else it has,
or an array of the two. -/
inductive Fields (tag : Text) (index : Nat) : Json → Prop
  | object {fields : List (Text × Json)} {literal : Decimal.Literal}
      (name : valuesOf "tag".toList fields = [.string tag])
      (rank : valuesOf "index".toList fields = [.number literal])
      (fits : literal.toNat? max32 = some index) : Fields tag index (.object fields)
  | array {literal : Decimal.Literal} (fits : literal.toNat? max32 = some index) :
      Fields tag index (.array [.string tag, .number literal])

/-- An address is read from a value with its fields, and from no other value. It is that of the fields. -/
theorem ofJson?_eq_some_iff {v : Json} {a : Address} :
    ofJson? v = some a ↔ ∃ tag index, Fields tag index v ∧ a = of tag index := by
  unfold ofJson?
  constructor
  · intro h
    obtain ⟨parts, hparts, hread⟩ := Option.bind_eq_some_iff.1 h
    obtain ⟨x, y, rfl, hshape⟩ := record?_pair_eq_some_iff.1 hparts
    obtain ⟨tag, htag, hrest⟩ := Option.bind_eq_some_iff.1 hread
    obtain ⟨index, hindex, hgiven⟩ := Option.bind_eq_some_iff.1 hrest
    refine ⟨tag, index, ?_, (Option.some.inj hgiven).symm⟩
    obtain rfl := text?_eq_some_iff.1 htag
    obtain ⟨literal, rfl, hfits⟩ := nat?_eq_some_iff.1 hindex
    rcases hshape with ⟨fields, rfl, hname, hrank⟩ | rfl
    · exact .object hname hrank hfits
    · exact .array hfits
  · rintro ⟨tag, index, hfields, rfl⟩
    obtain ⟨literal, hparts, hfits⟩ : ∃ literal, record? [required "tag", required "index"] v
        = some [some (.string tag), some (.number literal)] ∧ literal.toNat? max32 = some index := by
      cases hfields with
      | object name rank fits =>
        exact ⟨_, record?_pair_eq_some_iff.2 ⟨_, _, rfl, .inl ⟨_, rfl, name, rank⟩⟩, fits⟩
      | array fits => exact ⟨_, rfl, fits⟩
    refine Option.bind_eq_some_iff.2 ⟨_, hparts, Option.bind_eq_some_iff.2 ⟨tag, rfl, ?_⟩⟩
    exact Option.bind_eq_some_iff.2 ⟨index, nat?_eq_some_iff.2 ⟨literal, rfl, hfits⟩, rfl⟩

/-- An object with a tag name in any spelling and a rank is read as the address of both, if the rank has
32 bits. -/
theorem ofJson?_object (tag : Text) (index : Nat) :
    ofJson? (.object [("tag".toList, .string tag), ("index".toList, .ofNat index)])
      = if index ≤ max32 then some (of tag index) else none := by
  have hrecord : record? [required "tag", required "index"]
      (.object [("tag".toList, .string tag), ("index".toList, .ofNat index)])
        = some [some (.string tag), some (.ofNat index)] := rfl
  unfold ofJson?
  rw [hrecord]
  show (nat? max32 (.ofNat index)).bind (fun index => some (of tag index)) = _
  rw [nat?_ofNat]
  split <;> rfl

/-- So is the text of that object. -/
theorem ofJson?_write (tag : Text) (index : Nat) :
    (Json.parse? (Json.object [("tag".toList, .string tag), ("index".toList, .ofNat index)]).write).bind
        ofJson?
      = if index ≤ max32 then some (of tag index) else none := by
  have hspelt : (Json.object [("tag".toList, .string tag), ("index".toList, .ofNat index)]).Spelt :=
    ⟨trivial, Decimal.Literal.spelt_ofNat index, trivial⟩
  rw [Json.parse?_write hspelt, Option.bind_some, ofJson?_object]

/-! ## Equality -/

/-- **Addresses are equal if they match.** Normal spellings are normal, addresses are equal exactly if
their ranks are and the one matches the tag name of the other, and spellings match if they differ at
most in blanks at their ends and in the case of ASCII letters, which makes matching an equivalence. What
is read from JSON is the address of the fields that are there. -/
theorem of_eq_of_iff_matchesTag :
    (∀ tag, normaliseTag (normaliseTag tag) = normaliseTag tag) ∧
      (∀ a b i j, of a i = of b j ↔ i = j ∧ (of a i).matchesTag b = true) ∧
      (∀ a b index, (of a index).matchesTag b = true
        ↔ equalIgnoringCase (trim a) (trim b) = true) ∧
      (∀ index, Equivalence fun a b => (of a index).matchesTag b = true) ∧
      (∀ v a, ofJson? v = some a ↔ ∃ tag index, Fields tag index v ∧ a = of tag index) ∧
      ∀ tag index,
        (Json.parse?
          (Json.object [("tag".toList, .string tag), ("index".toList, .ofNat index)]).write).bind ofJson?
          = if index ≤ max32 then some (of tag index) else none := by
  refine ⟨normaliseTag_normaliseTag, fun a b i j => ?_, fun a b index => ?_, equivalence_matchesTag,
    fun v a => ofJson?_eq_some_iff, ofJson?_write⟩
  · rw [matchesTag_iff, Address.ext_iff, of_tag, of_tag, of_index, of_index, and_comm]
  · rw [matchesTag_iff, equalIgnoringCase, beq_iff_eq, of_tag, normaliseTag, normaliseTag]

-- Wide blanks are taken off, and letters outside ASCII are kept: the second name is the Kelvin sign.
example : (of "\u3000H1".toList 0).matchesTag "h1 ".toList = true ∧
    (of "\u212a".toList 0).matchesTag "k".toList = false := by decide +kernel

end Address

end Retouch
