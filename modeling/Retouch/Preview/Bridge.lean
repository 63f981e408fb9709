import Retouch.Edit.Buffer
import Retouch.Preview.Channel

/-!
# The bridge

The editor's end of the connection. It pushes documents, records the edits that the sandbox
reports, and keeps what the sandbox says of the latest push. Messages wait on the wire until the
bridge is pumped.
-/

namespace Retouch

/-- What is known of the latest push. -/
inductive PreviewStatus where
  /-- No answer yet. -/
  | waiting
  | rendered
  | failed (error : PreviewError)
deriving DecidableEq

/-- What a message did. -/
inductive Handled where
  | editRecorded
  | rendered
  | failed
  /-- Nothing: it was about an earlier push. -/
  | stale
deriving DecidableEq

/-- How many messages of each kind were taken in. -/
structure PumpStats where
  edits : Nat
  statuses : Nat
  dropped : Nat
deriving DecidableEq

namespace PumpStats

/-- None taken in. -/
def zero : PumpStats := ⟨0, 0, 0⟩

/-- One more payload; none stands for one that is no message. -/
def add (stats : PumpStats) : Option Handled → PumpStats
  | some .editRecorded => { stats with edits := stats.edits + 1 }
  | some .rendered | some .failed => { stats with statuses := stats.statuses + 1 }
  | some .stale | none => { stats with dropped := stats.dropped + 1 }

end PumpStats

/-- The editor's end of a connection. -/
structure Bridge where
  channel : Channel
  /-- The revision of the latest push. -/
  lastPushed : Option Nat
  status : PreviewStatus

namespace Bridge

/-- A bridge over a new connection. -/
def connect : Bridge := ⟨.new, none, .waiting⟩

/-- The message of a connection that is closed. -/
def closedMessage : Text := "Preview channel closed".toList

/-- Push a document. If it cannot be sent, that is what is known of it. -/
def push (b : Bridge) (frame : Document) : Bridge :=
  let (channel, sent) := b.channel.sendRaw (OutboundMessage.push frame).toJson.write
  { channel := channel
    lastPushed := some frame.revision
    status := if sent then .waiting else .failed ⟨.transport, closedMessage⟩ }

/-- The failure of the latest push. -/
def error? (b : Bridge) : Option PreviewError :=
  match b.status with
  | .failed error => some error
  | _ => none

/-- Whether a message is about an earlier push than the latest. -/
def isStale (b : Bridge) (message : InboundMessage) : Bool :=
  match message.revision, b.lastPushed with
  | some revision, some latest => revision < latest
  | _, _ => false

/-- Take in a message; edits go into `buffer`. -/
def handle (b : Bridge) (buffer : EditBuffer) (message : InboundMessage) :
    Bridge × EditBuffer × Handled :=
  if b.isStale message then (b, buffer, .stale)
  else
    match message with
    | .textEdit tag index text =>
      (b, buffer.record (.text ⟨.of tag index, text⟩), .editRecorded)
    | .rendered _ => ({ b with status := .rendered }, buffer, .rendered)
    | .failed error _ => ({ b with status := .failed error }, buffer, .failed)

/-- The message that a payload holds. -/
def message? (payload : Text) : Option InboundMessage :=
  (Json.parse? payload).bind InboundMessage.ofJson?

/-- Take in a payload. One that is no message changes nothing. -/
def receiveRaw (b : Bridge) (buffer : EditBuffer) (payload : Text) :
    Bridge × EditBuffer × Option Handled :=
  match message? payload with
  | none => (b, buffer, none)
  | some message =>
    let (b, buffer, handled) := b.handle buffer message
    (b, buffer, some handled)

/-- Take in payloads one after the other. -/
def receiveAll : Bridge → EditBuffer → PumpStats → List Text → Bridge × EditBuffer × PumpStats
  | b, buffer, stats, [] => (b, buffer, stats)
  | b, buffer, stats, payload :: rest =>
    let (b, buffer, handled) := b.receiveRaw buffer payload
    receiveAll b buffer (stats.add handled) rest

/-- Take in everything that waits on the wire. -/
def pump (b : Bridge) (buffer : EditBuffer) : Bridge × EditBuffer × PumpStats :=
  let channel := { b.channel with messages := { b.channel.messages with queue := [] } }
  receiveAll { b with channel := channel } buffer .zero b.channel.messages.queue

/-- Take in the oldest payload that waits on the wire. -/
def receiveNext (b : Bridge) (buffer : EditBuffer) :
    Bridge × EditBuffer × Received (Option Handled) :=
  let (channel, received) := b.channel.receive
  let b := { b with channel := channel }
  match received with
  | .message payload =>
    let (b, buffer, handled) := b.receiveRaw buffer payload
    (b, buffer, .message handled)
  | .nothing => (b, buffer, .nothing)
  | .closed => (b, buffer, .closed)

end Bridge

end Retouch
