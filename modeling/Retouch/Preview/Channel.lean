import Retouch.Preview.Message

/-!
# Channels

The connection between the editor and the sandbox: two wires that carry texts in order, one in each
direction. A text that was sent is still delivered after its sender is gone; what is sent after the
receiver is gone is lost, and the sender is told so.
-/

namespace Retouch

/-- What a receiver finds. -/
inductive Received (α : Type) where
  | message (a : α)
  /-- Nothing now, but more may come. -/
  | nothing
  /-- Nothing, and nothing will come. -/
  | closed

/-- One direction of a connection. -/
structure Wire where
  /-- What was sent and not yet received, the oldest first. -/
  queue : List Text
  hasSender : Bool
  hasReceiver : Bool

namespace Wire

/-- A wire with both its ends. -/
def new : Wire := ⟨[], true, true⟩

/-- Send a text. The result tells whether it can still be received. -/
def send (w : Wire) (payload : Text) : Wire × Bool :=
  if w.hasReceiver then ({ w with queue := w.queue ++ [payload] }, true) else (w, false)

/-- Take the oldest text. -/
def receive (w : Wire) : Wire × Received Text :=
  match w.queue with
  | payload :: rest => ({ w with queue := rest }, .message payload)
  | [] => (w, if w.hasSender then .nothing else .closed)

/-- The wire without its sender. -/
def dropSender (w : Wire) : Wire := { w with hasSender := false }

/-- The wire without its receiver. Nothing on it can be received any more. -/
def dropReceiver (w : Wire) : Wire := { w with queue := [], hasReceiver := false }

/-- What is sent goes behind all that was sent before, if anyone can receive it. -/
theorem queue_send (w : Wire) (payload : Text) :
    (w.send payload).1.queue = if w.hasReceiver then w.queue ++ [payload] else w.queue := by
  unfold send
  split <;> rfl

end Wire

/-- The two directions of a connection. -/
structure Channel where
  /-- What the editor pushes. -/
  frames : Wire
  /-- What the sandbox posts. -/
  messages : Wire

namespace Channel

/-- A connection without anything sent. -/
def new : Channel := ⟨.new, .new⟩

/-- The sandbox is gone. -/
def dropSandbox (c : Channel) : Channel :=
  { frames := c.frames.dropReceiver, messages := c.messages.dropSender }

/-- The editor is gone. -/
def dropEditor (c : Channel) : Channel :=
  { frames := c.frames.dropSender, messages := c.messages.dropReceiver }

/-- The document that a payload pushes. -/
def frame? (payload : Text) : Option Document := do
  match ← OutboundMessage.ofJson? (← Json.parse? payload) with
  | .push frame => return frame

/-- The first document among payloads, and the payloads behind it. -/
def firstFrame? : List Text → Option (Document × List Text)
  | [] => none
  | payload :: rest =>
    match frame? payload with
    | some frame => some (frame, rest)
    | none => firstFrame? rest

/-- The sandbox takes the next document. Payloads before it that push none are dropped. -/
def nextFrame (c : Channel) : Channel × Received Document :=
  match firstFrame? c.frames.queue with
  | some (frame, rest) => ({ c with frames := { c.frames with queue := rest } }, .message frame)
  | none =>
    ({ c with frames := { c.frames with queue := [] } },
      if c.frames.hasSender then .nothing else .closed)

/-- The sandbox posts a payload. -/
def postRaw (c : Channel) (payload : Text) : Channel × Bool :=
  let (wire, sent) := c.messages.send payload
  ({ c with messages := wire }, sent)

/-- The sandbox posts a message. -/
def post (c : Channel) (message : InboundMessage) : Channel × Bool :=
  c.postRaw message.toJson.write

/-- The editor sends a payload. -/
def sendRaw (c : Channel) (payload : Text) : Channel × Bool :=
  let (wire, sent) := c.frames.send payload
  ({ c with frames := wire }, sent)

/-- The editor takes the next payload. -/
def receive (c : Channel) : Channel × Received Text :=
  let (wire, received) := c.messages.receive
  ({ c with messages := wire }, received)

end Channel

end Retouch
