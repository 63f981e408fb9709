import Retouch.Preview.Bridge
import Retouch.Proofs.Preview.Frames

/-!
# Messages on the wire

A message of the sandbox is read from its JSON as itself, with the revision that it has or without one
(`Bridge.message?_toJson`), as long as its numbers are of the size that they have on the wire: a message
that does not fit is none.
-/

namespace Retouch

open Json (Spelt SpeltFields)

namespace InboundMessage

/-! ## Messages as tagged records -/

/-- The word for what a message is. -/
def kind : InboundMessage → Text
  | textEdit .. => "TEXT_EDIT".toList
  | rendered _ => "RENDERED".toList
  | failed .. => "ERROR".toList

/-- The fields of a message behind its tag. -/
def fields : InboundMessage → List (Text × Json)
  | textEdit tag index text =>
    [("tag".toList, .string tag), ("index".toList, .ofNat index), ("text".toList, .string text)]
  | rendered revision => revisionField revision
  | failed error revision =>
    ("phase".toList, .string error.phase.word) :: ("message".toList, .string error.message)
      :: revisionField revision

theorem toJson_eq (m : InboundMessage) :
    m.toJson = .object ((messageTag, .string m.kind) :: m.fields) := by
  cases m <;> rfl

/-- The JSON of a message can be spelt. -/
theorem spelt_toJson (m : InboundMessage) : m.toJson.Spelt := by
  have hrevision : ∀ revision : Option Nat, SpeltFields (revisionField revision) := by
    intro revision
    cases revision with
    | none => trivial
    | some n => exact ⟨Decimal.Literal.spelt_ofNat n, trivial⟩
  rw [toJson_eq]
  refine ⟨trivial, ?_⟩
  cases m with
  | textEdit tag index text => exact ⟨trivial, Decimal.Literal.spelt_ofNat index, trivial, trivial⟩
  | rendered revision => exact hrevision revision
  | failed error revision => exact ⟨trivial, trivial, hrevision revision⟩

theorem tagged?_toJson (m : InboundMessage) :
    Json.tagged? messageTag m.toJson = some (m.kind, .object m.fields) := by
  rw [toJson_eq]
  refine Json.tagged?_object ?_ ?_ ?_
  · cases m with
    | textEdit tag index text => rfl
    | rendered revision => cases revision <;> rfl
    | failed error revision => cases revision <;> rfl
  · rcases m with _ | (_ | _) | ⟨_, _ | _⟩ <;>
      simp [fields, revisionField, Json.readableFields, Json.readable_ofNat, Json.readable]
  · rcases m with _ | (_ | _) | ⟨_, _ | _⟩ <;>
      simp [fields, revisionField, Json.depthFields, Json.depth, Json.ofNat, Json.maxDepth]

/-! ## Messages that fit the wire -/

/-- Whether a revision, if there is one, is a number of 64 bits. -/
def RevisionFits (revision : Option Nat) : Prop := ∀ n ∈ revision, n ≤ Json.max64

/-- Whether the numbers of a message have the size of those on the wire. -/
def Fits : InboundMessage → Prop
  | textEdit _ index _ => index ≤ Json.max32
  | rendered revision => RevisionFits revision
  | failed _ revision => RevisionFits revision

/-- A revision is read as itself, and a missing one stays missing. -/
theorem revision?_revisionField {revision : Option Nat} (h : RevisionFits revision) :
    Json.optional? (Json.nat? Json.max64) (revision.map Json.ofNat) = some revision := by
  cases revision with
  | none => rfl
  | some n =>
    show (Json.nat? Json.max64 (.ofNat n)).map some = some (some n)
    rw [Json.nat?_ofNat, if_pos (h n rfl)]
    rfl

/-- **A message is read as itself.** -/
theorem ofJson?_toJson {m : InboundMessage} (h : m.Fits) : ofJson? m.toJson = some m := by
  have hword : ∀ t : Text, (t == t) = true := beq_self_eq_true
  unfold ofJson?
  refine Option.bind_eq_some_iff.2 ⟨_, tagged?_toJson m, ?_⟩
  cases m with
  | textEdit tag index text =>
    have hfits : index ≤ Json.max32 := h
    have hrecord : Json.record? [Json.required "tag", Json.required "index", Json.required "text"]
        (.object (textEdit tag index text).fields)
          = some [some (.string tag), some (.ofNat index), some (.string text)] := rfl
    have hindex : Json.nat? Json.max32 (.ofNat index) = some index := by
      rw [Json.nat?_ofNat, if_pos hfits]
    refine (if_pos (hword _)).trans (Option.bind_eq_some_iff.2 ⟨_, hrecord, ?_⟩)
    exact Option.bind_eq_some_iff.2 ⟨tag, rfl, Option.bind_eq_some_iff.2 ⟨index, hindex, rfl⟩⟩
  | rendered revision =>
    have hrecord : Json.record? [Json.optional "revision"] (.object (rendered revision).fields)
        = some [revision.map Json.ofNat] := by cases revision <;> rfl
    have hedit : ¬ ("RENDERED".toList == "TEXT_EDIT".toList) = true := by decide +kernel
    refine (if_neg hedit).trans ((if_pos (hword _)).trans ?_)
    refine Option.bind_eq_some_iff.2 ⟨_, hrecord, ?_⟩
    exact Option.bind_eq_some_iff.2 ⟨revision, revision?_revisionField h, rfl⟩
  | failed error revision =>
    have hrecord : Json.record?
        [Json.required "phase", Json.required "message", Json.optional "revision"]
        (.object (failed error revision).fields)
          = some [some (.string error.phase.word), some (.string error.message),
              revision.map Json.ofNat] := by cases revision <;> rfl
    have hedit : ¬ ("ERROR".toList == "TEXT_EDIT".toList) = true := by decide +kernel
    have hrendered : ¬ ("ERROR".toList == "RENDERED".toList) = true := by decide +kernel
    have hphase : (Json.taggedChoice? (.string error.phase.word)).bind Phase.ofWord?
        = some error.phase := Phase.ofWord?_word error.phase
    refine (if_neg hedit).trans ((if_neg hrendered).trans ((if_pos (hword _)).trans ?_))
    refine Option.bind_eq_some_iff.2 ⟨_, hrecord, Option.bind_eq_some_iff.2 ⟨_, hphase, ?_⟩⟩
    refine Option.bind_eq_some_iff.2 ⟨error.message, rfl, ?_⟩
    exact Option.bind_eq_some_iff.2 ⟨revision, revision?_revisionField h, rfl⟩

end InboundMessage

/-- **Messages arrive as they were posted.** -/
theorem Bridge.message?_toJson {m : InboundMessage} (h : m.Fits) :
    Bridge.message? m.toJson.write = some m := by
  rw [Bridge.message?, Json.parse?_write (InboundMessage.spelt_toJson m)]
  exact InboundMessage.ofJson?_toJson h

end Retouch
