import Retouch.Preview.Live

/-!
# Runs of a live session

What can happen while a live session and its sandbox run side by side. The host uses the session;
the sandbox takes frames, posts payloads and may be gone at any time. All of it happens in any order:
`Reachable` holds of the worlds that some order of it leads to.

A world keeps, besides the session, what the two sides have seen of each other: the frames that the
sandbox has taken and the pushes that the session has made.
-/

namespace Retouch.Live

/-- One thing that happens. -/
inductive Action where
  -- the host uses the session
  | setSource (text : Text)
  | updatePreview
  | pump
  | sync
  | discard
  | select (address : Address)
  | applyStyle
  | applyHeading (heading : Heading)
  -- the sandbox
  /-- The sandbox takes the next frame. -/
  | take
  /-- The sandbox posts a payload. -/
  | post (payload : Text)
  /-- The sandbox is gone. -/
  | leave

/-- A document that was pushed, and whether it could be sent. -/
structure Push where
  document : Document
  sent : Bool

/-- A live session, and what it and its sandbox have seen of each other. -/
structure World where
  live : LiveSession
  /-- The frames that the sandbox has taken, the latest first. -/
  taken : List Document
  /-- The pushes that the session has made, the latest first. -/
  pushes : List Push

namespace World

/-- A session at its start, and a sandbox that has seen nothing. -/
def start (config : Config) : World := ⟨.connect config, [], []⟩

/-- The document as it is now. -/
def document (w : World) : Document := w.live.session.document

/-- The connection. -/
def channel (w : World) : Channel := w.live.bridge.channel

/-- Whether the sandbox is there. -/
def hasSandbox (w : World) : Bool := w.channel.messages.hasSender

/-- The world in which the connection is another. -/
def withChannel (w : World) (channel : Channel) : World :=
  { w with live := { w.live with bridge := { w.live.bridge with channel := channel } } }

/-- The world with the session after something that pushes a document, or none. Whether the push can
be sent is up to the connection before it. -/
def after (w : World) (live : LiveSession) (pushed : Option Document) : World :=
  { w with
    live := live
    pushes := match pushed with
      | some document => ⟨document, w.channel.frames.hasReceiver⟩ :: w.pushes
      | none => w.pushes }

/-- The document that a sync pushes. -/
def pushedBySync (w : World) : Option Document :=
  match w.live.sync.2 with
  | .ok report => report.pushed
  | .error _ => none

/-- What a thing that happens makes of the world. A sandbox that is gone does nothing. -/
def step (w : World) : Action → World
  | .setSource text => w.after (w.live.setSource text) none
  | .updatePreview => w.after w.live.updatePreview (some w.document)
  | .pump => w.after w.live.pump.1 none
  | .sync => w.after w.live.sync.1 w.pushedBySync
  | .discard => w.after w.live.discard.1 none
  | .select address => w.after (w.live.select address).1 none
  | .applyStyle => w.after w.live.applyStyle.1 none
  | .applyHeading heading => w.after (w.live.applyHeading heading).1 none
  | .take =>
    if w.hasSandbox then
      match w.channel.nextFrame with
      | (channel, .message frame) => { w.withChannel channel with taken := frame :: w.taken }
      | (channel, _) => w.withChannel channel
    else w
  | .post payload => if w.hasSandbox then w.withChannel (w.channel.postRaw payload).1 else w
  | .leave => w.withChannel w.channel.dropSandbox

/-- What a run of things that happen makes of the world. -/
def run (w : World) (actions : List Action) : World := actions.foldl step w

end World

/-! ## What taking in does -/

/-- The edit that a payload reports. -/
def reportedEdit? (payload : Text) : Option PendingEdit :=
  (Bridge.message? payload).bind InboundMessage.edit?

section Pump

variable (b : Bridge) (buffer : EditBuffer)

theorem channel_receiveRaw (payload : Text) : (b.receiveRaw buffer payload).1.channel = b.channel := by
  unfold Bridge.receiveRaw
  split
  · rfl
  · dsimp only
    unfold Bridge.handle
    split
    · rfl
    · split
      · rfl
      · rfl
      · rfl

theorem channel_receiveAll (stats : PumpStats) (payloads : List Text) :
    (b.receiveAll buffer stats payloads).1.channel = b.channel := by
  induction payloads generalizing b buffer stats with
  | nil => rfl
  | cons payload rest ih => exact (ih _ _ _).trans (channel_receiveRaw b buffer payload)

/-- Nothing waits for the bridge after it has taken in all that waits. The rest of the connection is
as it was. -/
theorem channel_pump : (b.pump buffer).1.channel
    = { b.channel with messages := { b.channel.messages with queue := [] } } :=
  channel_receiveAll _ buffer .zero b.channel.messages.queue

/-- An edit is recorded, whichever push its element was rendered from. Nothing else is. -/
theorem buffer_receiveRaw (payload : Text) : (b.receiveRaw buffer payload).2.1
    = (reportedEdit? payload).elim buffer buffer.record := by
  unfold Bridge.receiveRaw reportedEdit?
  cases Bridge.message? payload with
  | none => rfl
  | some message =>
    dsimp only
    unfold Bridge.handle
    cases message with
    | textEdit tag index text => rfl
    | rendered revision =>
      split
      · rfl
      · rfl
    | failed error revision =>
      split
      · rfl
      · rfl

theorem buffer_receiveAll (stats : PumpStats) (payloads : List Text) :
    (b.receiveAll buffer stats payloads).2.1
      = (payloads.filterMap reportedEdit?).foldl EditBuffer.record buffer := by
  induction payloads generalizing b buffer stats with
  | nil => rfl
  | cons payload rest ih =>
    have hfirst := buffer_receiveRaw b buffer payload
    rw [Bridge.receiveAll]
    dsimp only
    rw [ih, hfirst]
    cases hedit : reportedEdit? payload with
    | none =>
      rw [List.filterMap_cons_none hedit]
      rfl
    | some edit =>
      rw [List.filterMap_cons_some hedit]
      rfl

/-- **All edits that wait for the bridge are recorded, in the order in which they were posted.** -/
theorem buffer_pump : (b.pump buffer).2.1
    = (b.channel.messages.queue.filterMap reportedEdit?).foldl EditBuffer.record buffer :=
  buffer_receiveAll _ buffer .zero b.channel.messages.queue

end Pump

/-! ## What a sync does -/

section Sync

variable {l : LiveSession} {session : Session}

/-- A sync that fails has taken in what waits. -/
theorem sync_of_error {error : SessionError} (h : l.pump.1.session.sync = (session, .error error)) :
    l.sync = (⟨session, l.pump.1.bridge⟩, .error error) := by
  unfold LiveSession.sync
  dsimp only
  rw [h]

/-- A sync that succeeds may push what it has written. -/
theorem sync_of_ok {report : SyncReport} (h : l.pump.1.session.sync = (session, .ok report)) :
    l.sync = (⟨session, match report.pushed with
      | some frame => l.pump.1.bridge.push frame
      | none => l.pump.1.bridge⟩, .ok report) := by
  obtain ⟨revision, applied, skipped, pushed⟩ := report
  unfold LiveSession.sync
  dsimp only
  rw [h]
  cases pushed with
  | some frame => rfl
  | none => rfl

end Sync

/-! ## Reachable worlds -/

/-- The worlds that a run from the start leads to, if only things happen that are allowed where they
happen. -/
inductive Reachable (allowed : World → Action → Prop) (config : Config) : World → Prop where
  | start : Reachable allowed config (.start config)
  | step {w : World} {action : Action} (reached : Reachable allowed config w)
      (happens : allowed w action) : Reachable allowed config (w.step action)

end Retouch.Live
