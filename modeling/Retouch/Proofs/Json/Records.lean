import Retouch.Json.Record
import Retouch.Proofs.Decimal.Digits

/-!
# What it takes to read a record

Readers of texts, of whole numbers and of records are told by the values that they read. A record of two
parts that must be given is an object that has each of them once, whatever else it has, or an array of
both (`record?_pair_eq_some_iff`). An object is read by its tag if no other field has the tag's name
and all of them are readable (`tagged?_object_eq`).
-/

namespace Retouch.Json

/-! ## Texts and numbers -/

theorem text?_eq_some_iff {v : Json} {t : Text} : text? v = some t ↔ v = .string t := by
  cases v <;> simp [text?]

theorem nat?_eq_some_iff {v : Json} {limit n : Nat} :
    nat? limit v = some n ↔ ∃ literal, v = .number literal ∧ literal.toNat? limit = some n := by
  cases v <;> simp [nat?]

theorem readable_ofNat (n : Nat) : readable (.ofNat n) = true := by
  show ((Decimal.Literal.ofNat n).toInt?.isSome || (Decimal.Literal.ofNat n).toFloat?.isSome) = true
  rw [Decimal.toInt?_ofNat]
  rfl

/-- A whole number is read as itself if it is not too great. -/
theorem nat?_ofNat (limit n : Nat) : nat? limit (.ofNat n) = if n ≤ limit then some n else none :=
  Decimal.toNat?_ofNat n limit

/-! ## Parts -/

/-- A part that must be given is one that is given once. -/
theorem partOf?_required_eq_some_iff {fields : List (Text × Json)} {name : String}
    {part : Option Json} :
    partOf? fields (required name) = some part
      ↔ ∃ v, part = some v ∧ valuesOf name.toList fields = [v] := by
  unfold partOf?
  constructor
  · intro h
    split at h
    · cases h
    · next v hvalues => exact ⟨v, (Option.some.inj h).symm, hvalues⟩
    · cases h
  · rintro ⟨v, rfl, hvalues⟩
    rw [show (required name).name = name.toList from rfl, hvalues]

/-- A record of two parts that must be given is an object with each of them once, or an array of both. -/
theorem record?_pair_eq_some_iff {v : Json} {first second : String} {parts : List (Option Json)} :
    record? [required first, required second] v = some parts
      ↔ ∃ x y, parts = [some x, some y] ∧
        ((∃ fields, v = .object fields ∧ valuesOf first.toList fields = [x] ∧
          valuesOf second.toList fields = [y]) ∨ v = .array [x, y]) := by
  constructor
  · intro h
    cases v with
    | object fields =>
      simp only [record?, List.mapM_cons, List.mapM_nil] at h
      obtain ⟨part, hfirst, h⟩ := Option.bind_eq_some_iff.1 h
      obtain ⟨rest, hrest, h⟩ := Option.bind_eq_some_iff.1 h
      obtain ⟨other, hsecond, hrest⟩ := Option.bind_eq_some_iff.1 hrest
      obtain ⟨x, rfl, hx⟩ := partOf?_required_eq_some_iff.1 hfirst
      obtain ⟨y, rfl, hy⟩ := partOf?_required_eq_some_iff.1 hsecond
      cases hrest
      cases h
      exact ⟨x, y, rfl, .inl ⟨fields, rfl, hx, hy⟩⟩
    | array items =>
      rcases items with _ | ⟨x, _ | ⟨y, _ | ⟨z, rest⟩⟩⟩
      · cases h
      · cases h
      · exact ⟨x, y, (Option.some.inj h).symm, .inr rfl⟩
      · cases h
    | _ => cases h
  · rintro ⟨x, y, rfl, ⟨fields, rfl, hx, hy⟩ | rfl⟩
    · have hfirst := partOf?_required_eq_some_iff.2 ⟨x, rfl, hx⟩
      have hsecond := partOf?_required_eq_some_iff.2 ⟨y, rfl, hy⟩
      simp [record?, hfirst, hsecond]
    · rfl

/-! ## Tags -/

/-- The tag of an object is read if no other field has its name, and if all the others are readable. What
is left are the others. -/
theorem tagged?_object_eq {tag choice : Text} {fields : List (Text × Json)}
    (hnames : (fields.map Prod.fst).all (· != tag) = true) (hdepth : depthFields fields < maxDepth) :
    tagged? tag (.object ((tag, .string choice) :: fields))
      = if readableFields fields then some (choice, .object fields) else none := by
  have hother : ∀ field ∈ fields, (field.1 != tag) = true := by
    intro field hfield
    exact List.all_eq_true.1 hnames field.1 (List.mem_map_of_mem hfield)
  have hvalues : valuesOf tag ((tag, .string choice) :: fields) = [.string choice] := by
    have hnone : fields.filter (fun field => field.1 == tag) = [] := by
      refine List.filter_eq_nil_iff.2 fun field hfield => ?_
      simpa using hother field hfield
    rw [valuesOf, List.filter_cons_of_pos (by simp), hnone]
    rfl
  have hrest : ((tag, Json.string choice) :: fields).filter (fun field => field.1 != tag) = fields := by
    rw [List.filter_cons_of_neg (by simp), List.filter_eq_self.2 hother]
  have hread : (object ((tag, .string choice) :: fields)).readable = readableFields fields := by
    simp [readable, readableFields]
  have hnested : (object ((tag, .string choice) :: fields)).depth ≤ maxDepth := by
    simpa [depth, depthFields] using Nat.succ_le_of_lt hdepth
  rw [tagged?, hread, decide_eq_true hnested]
  simp only [Bool.true_and, hvalues, hrest]

theorem tagged?_object {tag choice : Text} {fields : List (Text × Json)}
    (hnames : (fields.map Prod.fst).all (· != tag) = true) (hreadable : readableFields fields = true)
    (hdepth : depthFields fields < maxDepth) :
    tagged? tag (.object ((tag, .string choice) :: fields)) = some (choice, .object fields) := by
  rw [tagged?_object_eq hnames hdepth, if_pos hreadable]

end Retouch.Json
