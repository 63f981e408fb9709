import Retouch.Proofs.Live.Delivery

/-!
# The status is about the latest push

The sandbox answers pushes, and its answers wait on the wire while the session goes on pushing. The
main statement is `status_of_reachable`: whatever the order of things, a status that says that
something was rendered, compiled or run says so of the text that was pushed last, and one that says
that a push was lost says so of the latest push.

The invariant is `Answered`. Revisions only grow, and a revision has one text (`Delivered`); so an
answer that is not stale, which is one to the latest revision, is one to the latest text
(`Answered.showsLatest`).
-/

namespace Retouch.Live

/-! ## What the sandbox may post -/

/-- Whether a payload is honest: if it says how a push went it carries the revision of a frame that
was taken, and it does not claim that the push was lost. All else may be posted at any time. -/
def Honest (taken : List Document) (payload : Text) : Prop :=
  match Bridge.message? payload with
  | none => True
  | some (.textEdit ..) => True
  | some (.rendered revision) => ∃ frame ∈ taken, revision = some frame.revision
  | some (.failed error revision) =>
    error.phase ≠ .transport ∧ ∃ frame ∈ taken, revision = some frame.revision

/-- The sandbox posts honest payloads only. Everything else may happen. -/
def HonestPost (w : World) (action : Action) : Prop :=
  ∀ payload, action = .post payload → Honest w.taken payload

/-- A payload stays honest when more frames are taken. -/
theorem Honest.mono {taken more : List Document} {payload : Text} (h : Honest taken payload)
    (hsub : ∀ frame ∈ taken, frame ∈ more) : Honest more payload := by
  unfold Honest at h ⊢
  split
  · trivial
  · trivial
  · next hmessage =>
    rw [hmessage] at h
    obtain ⟨frame, hframe, hrevision⟩ := h
    exact ⟨frame, hsub frame hframe, hrevision⟩
  · next hmessage =>
    rw [hmessage] at h
    obtain ⟨hphase, frame, hframe, hrevision⟩ := h
    exact ⟨hphase, frame, hsub frame hframe, hrevision⟩

/-! ## What a status says -/

/-- The sandbox has taken a frame with the text that was pushed last. -/
def ShowsLatest (taken : List Document) (pushes : List Push) : Prop :=
  ∃ push, pushes.head? = some push ∧ ∃ frame ∈ taken, frame.text = push.document.text

/-- The latest push could not be sent. -/
def LostLatest (pushes : List Push) : Prop :=
  ∃ push, pushes.head? = some push ∧ push.sent = false

/-- Whether a status is right about the latest push. -/
def IsRight (taken : List Document) (pushes : List Push) : PreviewStatus → Prop
  | .waiting => True
  | .rendered => ShowsLatest taken pushes
  | .failed error => if error.phase = .transport then LostLatest pushes else ShowsLatest taken pushes

theorem IsRight.mono {taken more : List Document} {pushes : List Push} {status : PreviewStatus}
    (h : IsRight taken pushes status) (hsub : ∀ frame ∈ taken, frame ∈ more) :
    IsRight more pushes status := by
  have hshows : ShowsLatest taken pushes → ShowsLatest more pushes := by
    rintro ⟨push, hpush, frame, hframe, htext⟩
    exact ⟨push, hpush, frame, hsub frame hframe, htext⟩
  cases status with
  | waiting => trivial
  | rendered => exact hshows h
  | failed error =>
    by_cases hphase : error.phase = .transport
    · rw [IsRight, if_pos hphase] at h ⊢
      exact h
    · rw [IsRight, if_neg hphase] at h ⊢
      exact hshows h

/-! ## The invariant -/

/-- What holds of the bridge and what the two sides have seen of each other while posts are honest. -/
structure Answered (bridge : Bridge) (taken : List Document) (pushes : List Push) : Prop where
  /-- The bridge knows the revision of the latest push. -/
  latest : bridge.lastPushed = pushes.head?.map fun push => push.document.revision
  /-- What waits for the bridge is honest. -/
  honest : ∀ payload ∈ bridge.channel.messages.queue, Honest taken payload
  right : IsRight taken pushes bridge.status

namespace Answered

variable {document : Document} {bridge : Bridge} {frames : List Text} {taken : List Document}
  {pushes : List Push}

/-- **Answers that are not stale are to the latest text.** -/
theorem showsLatest (h : Answered bridge taken pushes) (hd : Delivered document frames taken pushes)
    {frame : Document} (hframe : frame ∈ taken)
    (hfresh : ∀ latest, bridge.lastPushed = some latest → ¬ frame.revision < latest) :
    ShowsLatest taken pushes := by
  obtain ⟨push, hpush, rfl⟩ := hd.pushed frame hframe
  have hordered := (List.pairwise_cons.1 hd.ordered).2
  have hlatest := h.latest
  cases pushes with
  | nil => cases hpush
  | cons head rest =>
    have hge := hfresh head.document.revision hlatest
    refine ⟨head, rfl, push.document, hframe, ?_⟩
    rcases List.mem_cons.1 hpush with rfl | hrest
    · rfl
    · have hsucceeds : head.document.Succeeds push.document :=
        (List.pairwise_cons.1 hordered).1 push.document (List.mem_map_of_mem hrest)
      have hle := hsucceeds.le
      exact hsucceeds.same (by omega)

/-- A message that is not stale answers no push before the latest. -/
theorem not_lt_of_fresh {message : InboundMessage} {revision latest : Nat}
    (h : bridge.isStale message = false) (hrevision : message.revision = some revision)
    (hlatest : bridge.lastPushed = some latest) : ¬ revision < latest := by
  unfold Bridge.isStale at h
  rw [hrevision, hlatest] at h
  simpa using h

/-- The bridge takes in an honest payload. -/
theorem receiveRaw (h : Answered bridge taken pushes) (hd : Delivered document frames taken pushes)
    (buffer : EditBuffer) {payload : Text} (hpayload : Honest taken payload) :
    Answered (bridge.receiveRaw buffer payload).1 taken pushes := by
  unfold Honest at hpayload
  unfold Bridge.receiveRaw
  cases hmessage : Bridge.message? payload with
  | none => exact h
  | some message =>
    rw [hmessage] at hpayload
    dsimp only
    unfold Bridge.handle
    cases hstale : bridge.isStale message with
    | true => exact h
    | false =>
      cases message with
      | textEdit tag index text => exact h
      | rendered revision =>
        obtain ⟨frame, hframe, hrevision⟩ := hpayload
        have hshows := h.showsLatest hd hframe fun _ => not_lt_of_fresh hstale hrevision
        exact ⟨h.latest, h.honest, hshows⟩
      | failed error revision =>
        obtain ⟨hphase, frame, hframe, hrevision⟩ := hpayload
        have hshows := h.showsLatest hd hframe fun _ => not_lt_of_fresh hstale hrevision
        refine ⟨h.latest, h.honest, ?_⟩
        show IsRight taken pushes (.failed error)
        rw [IsRight, if_neg hphase]
        exact hshows

theorem receiveAll (h : Answered bridge taken pushes) (hd : Delivered document frames taken pushes)
    (buffer : EditBuffer) (stats : PumpStats) {payloads : List Text}
    (hpayloads : ∀ payload ∈ payloads, Honest taken payload) :
    Answered (bridge.receiveAll buffer stats payloads).1 taken pushes := by
  induction payloads generalizing bridge buffer stats with
  | nil => exact h
  | cons payload rest ih =>
    have hfirst := h.receiveRaw hd buffer (hpayloads payload List.mem_cons_self)
    exact ih hfirst _ _ fun p hp => hpayloads p (List.mem_cons_of_mem _ hp)

/-- The bridge takes in all that waits. -/
theorem pump (h : Answered bridge taken pushes) (hd : Delivered document frames taken pushes)
    (buffer : EditBuffer) : Answered (bridge.pump buffer).1 taken pushes := by
  refine receiveAll ?_ hd buffer .zero h.honest
  exact ⟨h.latest, fun _ hp => (List.not_mem_nil hp).elim, h.right⟩

/-- A document is pushed. Nothing is known of it yet unless it could not be sent. -/
theorem push (h : Answered bridge taken pushes) (document : Document) :
    Answered (bridge.push document) taken
      (⟨document, bridge.channel.frames.hasReceiver⟩ :: pushes) := by
  unfold Bridge.push Channel.sendRaw Wire.send
  cases bridge.channel.frames.hasReceiver with
  | true => exact ⟨rfl, h.honest, trivial⟩
  | false => exact ⟨rfl, h.honest, _, rfl, rfl⟩

/-- The connection is another, on which all that waits for the bridge is honest. -/
theorem withChannel (h : Answered bridge taken pushes) {channel : Channel}
    (hmessages : ∀ payload ∈ channel.messages.queue, Honest taken payload) :
    Answered { bridge with channel := channel } taken pushes :=
  ⟨h.latest, hmessages, h.right⟩

/-- The sandbox has taken more. -/
theorem mono (h : Answered bridge taken pushes) {more : List Document}
    (hsub : ∀ frame ∈ taken, frame ∈ more) : Answered bridge more pushes :=
  ⟨h.latest, fun payload hp => (h.honest payload hp).mono hsub, h.right.mono hsub⟩

end Answered

/-! ## Runs -/

/-- What holds of a world that honest posts lead to. -/
def World.Answered (w : World) : Prop := Live.Answered w.live.bridge w.taken w.pushes

theorem answered_start (config : Config) : (World.start config).Answered := by
  refine ⟨rfl, ?_, trivial⟩
  exact fun _ hp => (List.not_mem_nil hp).elim

variable {w : World}

/-- A sync takes in what waits, may write a batch, and pushes what it has written if it should. -/
theorem World.Answered.sync (h : w.Answered) (hd : w.Delivered) : (w.step .sync).Answered := by
  have hpump : Live.Answered w.live.pump.1.bridge w.taken w.pushes :=
    h.pump hd w.live.session.buffer
  show Live.Answered w.live.sync.1.bridge w.taken (w.after w.live.sync.1 w.pushedBySync).pushes
  unfold World.after World.pushedBySync
  rcases Session.sync_cases w.live.pump.1.session with ⟨-, hsync⟩ | ⟨cause, -, hsync⟩ |
    ⟨outcome, -, hsync⟩
  · rw [sync_of_error hsync]
    exact hpump
  · rw [sync_of_error hsync]
    exact hpump
  · rw [sync_of_ok hsync]
    have hpush := hpump.push (w.live.pump.1.session.written outcome).document
    have hframes : w.live.pump.1.bridge.channel.frames = w.channel.frames :=
      frames_pump w.live.bridge w.live.session.buffer
    rw [hframes] at hpush
    unfold Session.reportOf
    cases w.live.pump.1.session.config.pushOnSync with
    | true => exact hpush
    | false => exact hpump

/-- The sandbox posts an honest payload. -/
theorem World.Answered.post (h : w.Answered) {payload : Text} (hpayload : Honest w.taken payload) :
    (w.step (.post payload)).Answered := by
  unfold World.step
  dsimp only
  split
  · apply h.withChannel
    intro other hother
    have hqueue : (w.channel.postRaw payload).1.messages.queue
        = if w.channel.messages.hasReceiver then w.channel.messages.queue ++ [payload]
          else w.channel.messages.queue := Wire.queue_send _ payload
    rw [hqueue] at hother
    split at hother
    · rcases List.mem_append.1 hother with hother | hother
      · exact h.honest other hother
      · exact List.mem_singleton.1 hother ▸ hpayload
    · exact h.honest other hother
  · exact h

/-- **One step.** -/
theorem answered_step (h : w.Answered) (hd : w.Delivered) {action : Action}
    (hpost : HonestPost w action) : (w.step action).Answered := by
  cases action with
  | setSource text => exact h
  | updatePreview => exact h.push w.document
  | pump => exact h.pump hd w.live.session.buffer
  | sync => exact h.sync hd
  | discard => exact h.pump hd w.live.session.buffer
  | select address => exact h
  | applyStyle => exact h
  | applyHeading heading => exact h
  | take =>
    rcases step_take_cases w with hstep | ⟨channel, -, hmessages, -, hstep⟩ |
      ⟨channel, frame, -, -, hmessages, -, hstep⟩
    · rw [hstep]
      exact h
    · rw [hstep]
      exact h.withChannel fun payload hp => h.honest payload (hmessages ▸ hp)
    · rw [hstep]
      have hchannel := h.withChannel fun payload hp => h.honest payload (hmessages ▸ hp)
      exact hchannel.mono fun _ => List.mem_cons_of_mem _
  | post payload => exact h.post (hpost payload rfl)
  | leave => exact h.withChannel h.honest

theorem answered_of_reachable {config : Config} (h : Reachable HonestPost config w) :
    w.Answered := by
  induction h with
  | start => exact answered_start config
  | step reached happens ih => exact answered_step ih (delivered_of_reachable reached) happens

/-- **The status is about the latest push.** Wherever honest posts lead to, the sandbox has taken a
frame with the text that was pushed last if the status is that something was rendered or has failed
to compile or run, and the latest push could not be sent if the status is that it was lost. -/
theorem status_of_reachable {config : Config} (h : Reachable HonestPost config w) :
    (w.live.bridge.status = .rendered → ShowsLatest w.taken w.pushes) ∧
      ∀ error, w.live.bridge.status = .failed error →
        (error.phase = .compile ∨ error.phase = .runtime → ShowsLatest w.taken w.pushes) ∧
          (error.phase = .transport → LostLatest w.pushes) := by
  have hright := (answered_of_reachable h).right
  constructor
  · intro hstatus
    rw [hstatus] at hright
    exact hright
  · intro error hstatus
    rw [hstatus] at hright
    constructor
    · intro hphase
      have hother : error.phase ≠ .transport := by
        rcases hphase with hphase | hphase
        · simp [hphase]
        · simp [hphase]
      rw [IsRight, if_neg hother] at hright
      exact hright
    · intro hphase
      rw [IsRight, if_pos hphase] at hright
      exact hright

/-- The sandbox takes the first frame and says that it was rendered. -/
theorem status_of_reachable_rendered :
    ∃ w, Reachable HonestPost ⟨.tsx, "<p>a</p>".toList, true⟩ w ∧
      w.live.bridge.status = .rendered ∧ ShowsLatest w.taken w.pushes := by
  let w := ((World.start ⟨.tsx, "<p>a</p>".toList, true⟩).step .updatePreview).step .take
  let answer := (InboundMessage.rendered (some 0)).toJson.write
  have htaken : w.taken = [⟨"<p>a</p>".toList, 0⟩] := by decide +kernel
  have hanswer : Bridge.message? answer = some (.rendered (some 0)) := by decide +kernel
  have hhonest : HonestPost w (.post answer) := by
    intro payload hpost
    obtain rfl := Action.post.inj hpost
    unfold Honest
    rw [hanswer, htaken]
    exact ⟨_, List.mem_singleton_self _, rfl⟩
  have hfirst : Reachable HonestPost ⟨.tsx, "<p>a</p>".toList, true⟩ w :=
    .step (.step .start fun _ hpost => nomatch hpost) fun _ hpost => nomatch hpost
  have hlast : Reachable HonestPost ⟨.tsx, "<p>a</p>".toList, true⟩ ((w.step (.post answer)).step .pump) :=
    .step (.step hfirst hhonest) fun _ hpost => nomatch hpost
  have hstatus : ((w.step (.post answer)).step .pump).live.bridge.status = .rendered := by
    decide +kernel
  exact ⟨_, hlast, hstatus, (status_of_reachable hlast).1 hstatus⟩

end Retouch.Live
