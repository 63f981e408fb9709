import Retouch.Preview.Channel
import Retouch.Proofs.Json.Records
import Retouch.Proofs.Json.RoundTrip

/-!
# Frames on the wire

A document that is pushed is the document that the sandbox takes, as long as its revision is a number
of 64 bits (`frame?_push`).
-/

namespace Retouch

/-! ## Pushes -/

/-- The JSON of a push can be spelt. -/
theorem OutboundMessage.spelt_toJson (message : OutboundMessage) : message.toJson.Spelt := by
  obtain ⟨frame⟩ := message
  exact ⟨trivial, Decimal.Literal.spelt_ofNat frame.revision, trivial, trivial⟩

/-- The fields of a push behind its tag. -/
def OutboundMessage.pushFields (frame : Document) : List (Text × Json) :=
  [("revision".toList, .ofNat frame.revision), ("source".toList, .string frame.text)]

theorem OutboundMessage.tagged?_toJson (frame : Document) :
    Json.tagged? messageTag (OutboundMessage.push frame).toJson
      = some ("PUSH".toList, .object (pushFields frame)) := by
  refine Json.tagged?_object rfl ?_ ?_
  · simp [Json.readableFields, Json.readable_ofNat, Json.readable]
  · simp [Json.depthFields, Json.depth, Json.ofNat, Json.maxDepth]

/-- A push is read as the document that it pushes. -/
theorem OutboundMessage.ofJson?_toJson (frame : Document) :
    OutboundMessage.ofJson? (OutboundMessage.push frame).toJson
      = if frame.revision ≤ Json.max64 then some (.push frame) else none := by
  have hrecord : Json.record? [Json.required "revision", Json.required "source"]
      (.object (pushFields frame))
        = some [some (.ofNat frame.revision), some (.string frame.text)] := rfl
  rw [ofJson?, tagged?_toJson]
  simp only [Option.bind_eq_bind, Option.bind_some, beq_self_eq_true, if_true, hrecord,
    Json.nat?_ofNat]
  split
  · rfl
  · rfl

/-- **Frames arrive as they were pushed.** -/
theorem Channel.frame?_push (frame : Document) :
    Channel.frame? (OutboundMessage.push frame).toJson.write
      = if frame.revision ≤ Json.max64 then some frame else none := by
  rw [frame?, Json.parse?_write (OutboundMessage.spelt_toJson _), Option.bind_eq_bind,
    Option.bind_some, OutboundMessage.ofJson?_toJson]
  split
  · rfl
  · rfl

end Retouch
