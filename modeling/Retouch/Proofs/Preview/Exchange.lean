import Mathlib.Data.List.Basic
import Retouch.Proofs.Live.Run
import Retouch.Proofs.Preview.Messages

/-!
# Faithful wires

A bridge and its sandbox, both connected: the bridge pushes documents, the sandbox takes them and posts
messages, the bridge takes those in, all at once or one by one. An `Exchange` keeps what each side has
received. The texts on the two wires always stand for the documents and messages that were sent and not
yet received (`Carries`): one lemma for each thing that happens, and `carries_run` for all of them. The
main statement is `faithful_of_run`.
-/

namespace Retouch

/-! ## What happens on a connection -/

/-- What a receiver has got, if anything. -/
def Received.toList {α : Type} : Received α → List α
  | message a => [a]
  | nothing | closed => []

/-- What a receiver finds if some things are on the way. -/
def Received.first {α : Type} : List α → Received α
  | [] => nothing
  | a :: _ => message a

/-- A bridge with its buffer, and what was received over its connection. -/
structure Exchange where
  bridge : Bridge
  buffer : EditBuffer
  /-- The documents that the sandbox has taken, the first one first. -/
  taken : List Document
  /-- The messages that the bridge has handled, the first one first. -/
  handled : List InboundMessage

namespace Exchange

/-- One thing that happens on a connection. -/
inductive Action where
  /-- The bridge pushes a document. -/
  | push (frame : Document)
  /-- The sandbox takes the next document, if there is one. -/
  | take
  /-- The sandbox posts a message. -/
  | post (message : InboundMessage)
  /-- The bridge takes in all that waits. -/
  | pump
  /-- The bridge takes in the next message, if there is one. -/
  | receive

namespace Action

/-- The document that is pushed. -/
def pushed? : Action → Option Document
  | push frame => some frame
  | _ => none

/-- The message that is posted. -/
def posted? : Action → Option InboundMessage
  | post message => some message
  | _ => none

/-- Whether the numbers in what is sent have the size of those on the wire. -/
def Fits : Action → Prop
  | push frame => frame.revision ≤ Json.max64
  | post message => message.Fits
  | _ => True

end Action

/-- A connection at its start. -/
def start : Exchange := ⟨.connect, .empty, [], []⟩

/-- The two wires. -/
def channel (x : Exchange) : Channel := x.bridge.channel

/-- What a thing that happens makes of an exchange. -/
def step (x : Exchange) : Action → Exchange
  | .push frame => { x with bridge := x.bridge.push frame }
  | .take =>
    let (channel, received) := x.channel.nextFrame
    { x with bridge := { x.bridge with channel := channel }, taken := x.taken ++ received.toList }
  | .post message => { x with bridge := { x.bridge with channel := (x.channel.post message).1 } }
  | .pump =>
    let (bridge, buffer, _) := x.bridge.pump x.buffer
    { x with
      bridge := bridge
      buffer := buffer
      handled := x.handled ++ x.channel.messages.queue.filterMap Bridge.message? }
  | .receive =>
    let (bridge, buffer, _) := x.bridge.receiveNext x.buffer
    { x with
      bridge := bridge
      buffer := buffer
      handled := x.handled ++ x.channel.receive.2.toList.filterMap Bridge.message? }

/-- What a run makes of an exchange. -/
def run (x : Exchange) (actions : List Action) : Exchange := actions.foldl step x

/-! ## What the wires carry -/

/-- The payload that pushes a document. -/
def framePayload (frame : Document) : Text := (OutboundMessage.push frame).toJson.write

/-- The payload that posts a message. -/
def messagePayload (message : InboundMessage) : Text := message.toJson.write

/-- Whether both ends of a connection are there and its wires carry some documents and some messages. -/
structure Carries (c : Channel) (frames : List Document) (messages : List InboundMessage) : Prop where
  frameWire : c.frames = ⟨frames.map framePayload, true, true⟩
  messageWire : c.messages = ⟨messages.map messagePayload, true, true⟩
  framesFit : ∀ frame ∈ frames, frame.revision ≤ Json.max64
  messagesFit : ∀ message ∈ messages, message.Fits

section Carries

variable {c : Channel} {frames : List Document} {messages : List InboundMessage}

theorem carries_start : Carries start.channel [] [] := by
  refine ⟨rfl, rfl, ?_, ?_⟩
  · exact fun _ h => absurd h List.not_mem_nil
  · exact fun _ h => absurd h List.not_mem_nil

/-- A pushed document goes behind those that are on the way. -/
theorem Carries.push {b : Bridge} (h : Carries b.channel frames messages) {frame : Document}
    (hfits : frame.revision ≤ Json.max64) :
    Carries (b.push frame).channel (frames ++ [frame]) messages := by
  obtain ⟨hframes, hmessages, hframesFit, hmessagesFit⟩ := h
  refine ⟨?_, hmessages, ?_, hmessagesFit⟩
  · show (b.channel.frames.send (framePayload frame)).1 = _
    rw [hframes, List.map_append]
    rfl
  · exact List.forall_mem_append.2 ⟨hframesFit, List.forall_mem_singleton.2 hfits⟩

/-- A posted message can be sent, and goes behind those that are on the way. -/
theorem Carries.post (h : Carries c frames messages) {message : InboundMessage}
    (hfits : message.Fits) : Carries (c.post message).1 frames (messages ++ [message]) := by
  obtain ⟨hframes, hmessages, hframesFit, hmessagesFit⟩ := h
  refine ⟨hframes, ?_, hframesFit, ?_⟩
  · show (c.messages.send (messagePayload message)).1 = _
    rw [hmessages, List.map_append]
    rfl
  · exact List.forall_mem_append.2 ⟨hmessagesFit, List.forall_mem_singleton.2 hfits⟩

/-- The sandbox takes the document that was pushed first, or waits if none is on the way. -/
theorem Carries.nextFrame (h : Carries c frames messages) :
    c.nextFrame.2 = .first frames ∧ Carries c.nextFrame.1 frames.tail messages := by
  obtain ⟨hframes, hmessages, hframesFit, hmessagesFit⟩ := h
  obtain ⟨frameWire, messageWire⟩ := c
  obtain rfl := hframes
  cases frames with
  | nil => exact ⟨rfl, rfl, hmessages, hframesFit, hmessagesFit⟩
  | cons frame rest =>
    obtain ⟨hfits, hrestFit⟩ := List.forall_mem_cons.1 hframesFit
    have hframe : Channel.frame? (framePayload frame) = some frame := by
      rw [framePayload, Channel.frame?_push, if_pos hfits]
    unfold Channel.nextFrame
    rw [List.map_cons, Channel.firstFrame?, hframe]
    exact ⟨rfl, rfl, hmessages, hrestFit, hmessagesFit⟩

/-- What is on the way to the bridge are the posted messages. -/
theorem Carries.filterMap_queue (h : Carries c frames messages) :
    c.messages.queue.filterMap Bridge.message? = messages := by
  have hmessages : ∀ message ∈ messages,
      Bridge.message? (messagePayload message) = some message :=
    fun message hmessage => Bridge.message?_toJson (h.messagesFit message hmessage)
  rw [h.messageWire, List.filterMap_map]
  exact (List.filterMap_congr hmessages).trans List.filterMap_some

/-- Nothing is on the way to a bridge that has taken in all that waited. -/
theorem Carries.pump {b : Bridge} (h : Carries b.channel frames messages) (buffer : EditBuffer) :
    Carries (b.pump buffer).1.channel frames [] := by
  rw [Live.channel_pump]
  refine ⟨h.frameWire, ?_, h.framesFit, fun _ hm => absurd hm List.not_mem_nil⟩
  show { b.channel.messages with queue := [] } = _
  rw [h.messageWire]
  rfl

/-- The bridge receives the message that was posted first, or waits if none is on the way. -/
theorem Carries.receive (h : Carries c frames messages) :
    c.receive.2 = .first (messages.map messagePayload) ∧
      Carries c.receive.1 frames messages.tail := by
  obtain ⟨hframes, hmessages, hframesFit, hmessagesFit⟩ := h
  obtain ⟨frameWire, messageWire⟩ := c
  obtain rfl := hmessages
  cases messages with
  | nil => exact ⟨rfl, hframes, rfl, hframesFit, hmessagesFit⟩
  | cons message rest =>
    exact ⟨rfl, hframes, rfl, hframesFit, (List.forall_mem_cons.1 hmessagesFit).2⟩

end Carries

end Exchange

/-! ## What the bridge does with messages -/

namespace Bridge

/-- Handle messages one after the other, and count them. -/
def handleAll : Bridge → EditBuffer → PumpStats → List InboundMessage →
    Bridge × EditBuffer × PumpStats
  | b, buffer, stats, [] => (b, buffer, stats)
  | b, buffer, stats, message :: rest =>
    let (b, buffer, handled) := b.handle buffer message
    handleAll b buffer (stats.add (some handled)) rest

/-- Handle the first of some messages that are on the way, if there is one. -/
def handleNext (b : Bridge) (buffer : EditBuffer) :
    List InboundMessage → Bridge × EditBuffer × Received (Option Handled)
  | [] => (b, buffer, .nothing)
  | message :: _ =>
    let (b, buffer, handled) := { b with channel := b.channel.receive.1 }.handle buffer message
    (b, buffer, .message (some handled))

/-- A bridge for which nothing waits any more. -/
def emptied (b : Bridge) : Bridge :=
  { b with channel := { b.channel with messages := { b.channel.messages with queue := [] } } }

/-- The payload of a message is handled as that message. -/
theorem receiveRaw_messagePayload (b : Bridge) (buffer : EditBuffer) {message : InboundMessage}
    (h : message.Fits) : b.receiveRaw buffer (Exchange.messagePayload message)
      = ((b.handle buffer message).1, (b.handle buffer message).2.1,
          some (b.handle buffer message).2.2) := by
  rw [receiveRaw, Exchange.messagePayload, message?_toJson h]

theorem receiveAll_messagePayload (b : Bridge) (buffer : EditBuffer) (stats : PumpStats)
    {messages : List InboundMessage} (h : ∀ message ∈ messages, message.Fits) :
    b.receiveAll buffer stats (messages.map Exchange.messagePayload)
      = b.handleAll buffer stats messages := by
  induction messages generalizing b buffer stats with
  | nil => rfl
  | cons message rest ih =>
    obtain ⟨hfits, hrest⟩ := List.forall_mem_cons.1 h
    rw [List.map_cons, receiveAll, receiveRaw_messagePayload b buffer hfits]
    exact ih _ _ _ hrest

end Bridge

namespace Exchange

section Carries

variable {b : Bridge} {frames : List Document} {messages : List InboundMessage}

/-- A bridge that takes in all that waits handles the messages that are on the way. -/
theorem Carries.pump_eq (h : Carries b.channel frames messages) (buffer : EditBuffer) :
    b.pump buffer = b.emptied.handleAll buffer .zero messages := by
  have hqueue : b.channel.messages.queue = messages.map messagePayload := by rw [h.messageWire]
  show b.emptied.receiveAll buffer .zero b.channel.messages.queue = _
  rw [hqueue]
  exact Bridge.receiveAll_messagePayload _ _ _ h.messagesFit

/-- A bridge that takes in the next payload handles the first message that is on the way. -/
theorem Carries.receiveNext_eq (h : Carries b.channel frames messages) (buffer : EditBuffer) :
    b.receiveNext buffer = b.handleNext buffer messages := by
  have hfits := h.messagesFit
  obtain ⟨⟨frameWire, messageWire⟩, lastPushed, status⟩ := b
  obtain rfl := h.messageWire
  cases messages with
  | nil => rfl
  | cons message rest =>
    have hraw := Bridge.receiveRaw_messagePayload
      ⟨⟨frameWire, ⟨rest.map messagePayload, true, true⟩⟩, lastPushed, status⟩ buffer
      (hfits message List.mem_cons_self)
    exact congrArg (fun handled => (handled.1, handled.2.1, Received.message handled.2.2)) hraw

/-- Taking in a payload does no more to the connection than to take the payload off it. -/
theorem channel_receiveNext (b : Bridge) (buffer : EditBuffer) :
    (b.receiveNext buffer).1.channel = b.channel.receive.1 := by
  unfold Bridge.receiveNext
  dsimp only
  split
  · exact Live.channel_receiveRaw _ _ _
  · rfl
  · rfl

end Carries

/-! ## Runs -/

/-- Whether what was sent is what was received and what is still on the way. -/
def Faithful (x : Exchange) (pushed : List Document) (posted : List InboundMessage) : Prop :=
  ∃ frames messages, Carries x.channel frames messages ∧
    pushed = x.taken ++ frames ∧ posted = x.handled ++ messages

/-- **One step** loses nothing, adds nothing and keeps the order. -/
theorem faithful_step {x : Exchange} {pushed : List Document} {posted : List InboundMessage}
    (h : x.Faithful pushed posted) {action : Action} (hfits : action.Fits) :
    (x.step action).Faithful (pushed ++ action.pushed?.toList) (posted ++ action.posted?.toList) := by
  obtain ⟨frames, messages, hcarries, rfl, rfl⟩ := h
  cases action with
  | push frame =>
    refine ⟨frames ++ [frame], messages, hcarries.push hfits, ?_, ?_⟩
    · exact List.append_assoc _ _ _
    · exact List.append_nil _
  | take =>
    obtain ⟨hreceived, hrest⟩ := hcarries.nextFrame
    refine ⟨frames.tail, messages, hrest, ?_, List.append_nil _⟩
    show x.taken ++ frames ++ [] = x.taken ++ x.channel.nextFrame.2.toList ++ frames.tail
    rw [hreceived]
    cases frames <;> simp [Received.first, Received.toList]
  | post message =>
    refine ⟨frames, messages ++ [message], hcarries.post hfits, List.append_nil _, ?_⟩
    exact List.append_assoc _ _ _
  | pump =>
    refine ⟨frames, [], hcarries.pump x.buffer, List.append_nil _, ?_⟩
    show x.handled ++ messages ++ [] = x.handled ++ x.channel.messages.queue.filterMap _ ++ []
    rw [hcarries.filterMap_queue]
  | receive =>
    obtain ⟨hreceived, hrest⟩ := hcarries.receive
    have hchannel : (x.step .receive).channel = x.channel.receive.1 :=
      channel_receiveNext x.bridge x.buffer
    refine ⟨frames, messages.tail, hchannel ▸ hrest, List.append_nil _, ?_⟩
    show x.handled ++ messages ++ [] = x.handled
      ++ x.channel.receive.2.toList.filterMap Bridge.message? ++ messages.tail
    rw [hreceived]
    cases messages with
    | nil => rfl
    | cons message rest =>
      have hmessage : Bridge.message? (messagePayload message) = some message :=
        Bridge.message?_toJson (hcarries.messagesFit message List.mem_cons_self)
      simp [Received.first, Received.toList, hmessage]

/-- **A run** loses nothing, adds nothing and keeps the order. -/
theorem faithful_run {x : Exchange} {pushed : List Document} {posted : List InboundMessage}
    (h : x.Faithful pushed posted) {actions : List Action} (hfits : ∀ action ∈ actions, action.Fits) :
    (x.run actions).Faithful (pushed ++ actions.filterMap Action.pushed?)
      (posted ++ actions.filterMap Action.posted?) := by
  induction actions generalizing x pushed posted with
  | nil => simpa [run] using h
  | cons action rest ih =>
    obtain ⟨hfirstFits, hrestFit⟩ := List.forall_mem_cons.1 hfits
    have hrest := ih (faithful_step h hfirstFits) hrestFit
    rw [List.append_assoc, List.append_assoc] at hrest
    cases action <;> exact hrest

/-- **The wires are faithful and in order.** In every run of a connection, with all numbers of the size
that they have on the wire: what the sandbox has taken are the documents that were pushed, from the
first on and in their order, and what the bridge has handled are the messages that were posted; what is
missing is on the way. The sandbox takes the first document on the way next, if there is one. The
bridge handles the first message on the way next, or all of them in their order.

Each message is read from its JSON as itself; one without a revision is read without one. -/
theorem faithful_of_run {actions : List Action} (h : ∀ action ∈ actions, action.Fits) :
    let x := start.run actions
    (∃ frames messages,
      actions.filterMap Action.pushed? = x.taken ++ frames ∧
      actions.filterMap Action.posted? = x.handled ++ messages ∧
      x.channel.frames.queue = frames.map framePayload ∧
      x.channel.messages.queue = messages.map messagePayload ∧
      x.channel.nextFrame.2 = .first frames ∧
      x.bridge.receiveNext x.buffer = x.bridge.handleNext x.buffer messages ∧
      x.bridge.pump x.buffer = x.bridge.emptied.handleAll x.buffer .zero messages) ∧
    ∀ message : InboundMessage, message.Fits →
      Bridge.message? message.toJson.write = some message := by
  intro x
  have hstart : start.Faithful [] [] := ⟨[], [], carries_start, rfl, rfl⟩
  obtain ⟨frames, messages, hcarries, hpushed, hposted⟩ := faithful_run hstart h
  refine ⟨⟨frames, messages, hpushed, hposted, ?_, ?_, hcarries.nextFrame.1,
    hcarries.receiveNext_eq x.buffer, hcarries.pump_eq x.buffer⟩, fun _ => Bridge.message?_toJson⟩
  · rw [hcarries.frameWire]
  · rw [hcarries.messageWire]

/-- Texts with a quote, a line break, a backslash, a control character and one of four bytes, the
greatest revision, and a message without a revision. One document and one message are still on the way. -/
theorem faithful_of_run_escaped :
    let large : Document := ⟨"<p title=\"a\">\n\\ 😀</p>".toList, Json.max64⟩
    let small : Document := ⟨"\x01".toList, 0⟩
    let edit : InboundMessage := .textEdit "p".toList Json.max32 "\t\"é😀".toList
    let failure : InboundMessage := .failed ⟨.runtime, "\r\n/".toList⟩ (some Json.max64)
    let actions : List Action :=
      [.push large, .post edit, .push small, .take, .post (.rendered none), .receive, .pump, .receive,
        .post failure]
    let x := start.run actions
    (∀ action ∈ actions, action.Fits) ∧
      (∃ frames messages, [large, small] = x.taken ++ frames ∧
        [edit, .rendered none, failure] = x.handled ++ messages) ∧
      x.taken = [large] ∧ x.handled = [edit, .rendered none] := by
  intro large small edit failure actions x
  have hfits : ∀ action ∈ actions, action.Fits := by
    simp [actions, Action.Fits, InboundMessage.Fits, InboundMessage.RevisionFits, large, small, edit,
      failure, Json.max32, Json.max64]
  obtain ⟨⟨frames, messages, hpushed, hposted, -⟩, -⟩ := faithful_of_run hfits
  refine ⟨hfits, ⟨frames, messages, hpushed, hposted⟩, ?_, ?_⟩
  · decide +kernel
  · decide +kernel

end Exchange

end Retouch
