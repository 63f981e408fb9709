import Retouch.Proofs.Live.Run
import Retouch.Proofs.Preview.Frames
import Retouch.Proofs.Session.Revisions

/-!
# Frames come from pushes

Whatever happens, the sandbox takes only documents that were pushed, and documents are pushed in the
order in which they come: revisions only grow, and a revision has one text (`Document.Succeeds`). The
main statement is `delivered_step`, from which `succeeds_of_taken` says that the document of the
session comes after every frame that the sandbox has taken.
-/

namespace Retouch

namespace Live

/-! ## The invariant -/

/-- The payload that pushes a document. -/
def payloadOf (document : Document) : Text := (OutboundMessage.push document).toJson.write

/-- What holds of the document, what waits for the sandbox, what that has taken and what was
pushed. -/
structure Delivered (document : Document) (frames : List Text) (taken : List Document)
    (pushes : List Push) : Prop where
  /-- Documents are pushed in the order in which they come. -/
  ordered : (document :: pushes.map Push.document).Pairwise Document.Succeeds
  /-- What waits for the sandbox was pushed. -/
  waiting : ∀ payload ∈ frames, ∃ push ∈ pushes, payload = payloadOf push.document
  /-- What the sandbox has taken was pushed. -/
  pushed : ∀ frame ∈ taken, ∃ push ∈ pushes, push.document = frame

namespace Delivered

variable {document : Document} {frames : List Text} {taken : List Document} {pushes : List Push}

/-- Less may wait for the sandbox. -/
theorem mono (h : Delivered document frames taken pushes) {fewer : List Text}
    (hsub : ∀ payload ∈ fewer, payload ∈ frames) : Delivered document fewer taken pushes :=
  ⟨h.ordered, fun payload hp => h.waiting payload (hsub payload hp), h.pushed⟩

/-- The document gets another text. -/
theorem replace (h : Delivered document frames taken pushes) (text : Text) :
    Delivered (document.replace text) frames taken pushes := by
  obtain ⟨hlater, hordered⟩ := List.pairwise_cons.1 h.ordered
  refine ⟨List.pairwise_cons.2 ⟨?_, hordered⟩, h.waiting, h.pushed⟩
  intro older holder
  exact (hlater older holder).replace text

/-- The document is pushed. It waits for the sandbox if it could be sent. -/
theorem push (h : Delivered document frames taken pushes) (sent : Bool) {more : List Text}
    (hmore : ∀ payload ∈ more, payload ∈ frames ∨ payload = payloadOf document) :
    Delivered document more taken (⟨document, sent⟩ :: pushes) := by
  have hlater := (List.pairwise_cons.1 h.ordered).1
  constructor
  · refine List.pairwise_cons.2 ⟨?_, h.ordered⟩
    intro older holder
    rcases List.mem_cons.1 holder with rfl | holder
    · exact .refl older
    · exact hlater older holder
  · intro payload hpayload
    rcases hmore payload hpayload with hwaiting | rfl
    · obtain ⟨push, hpush, heq⟩ := h.waiting payload hwaiting
      exact ⟨push, List.mem_cons_of_mem _ hpush, heq⟩
    · exact ⟨_, List.mem_cons_self, rfl⟩
  · intro frame hframe
    obtain ⟨push, hpush, hdocument⟩ := h.pushed frame hframe
    exact ⟨push, List.mem_cons_of_mem _ hpush, hdocument⟩

/-- What waits for the sandbox pushes a document that was pushed. -/
theorem exists_push_of_frame? (h : Delivered document frames taken pushes) {payload : Text}
    {frame : Document} (hpayload : payload ∈ frames) (hframe : Channel.frame? payload = some frame) :
    ∃ push ∈ pushes, push.document = frame := by
  obtain ⟨push, hpush, rfl⟩ := h.waiting payload hpayload
  rw [payloadOf, Channel.frame?_push] at hframe
  split at hframe
  · exact ⟨push, hpush, Option.some.inj hframe⟩
  · cases hframe

/-- The sandbox takes a document that was pushed. -/
theorem take (h : Delivered document frames taken pushes) {frame : Document}
    (hframe : ∃ push ∈ pushes, push.document = frame) :
    Delivered document frames (frame :: taken) pushes := by
  refine ⟨h.ordered, h.waiting, ?_⟩
  intro other hother
  rcases List.mem_cons.1 hother with rfl | hother
  · exact hframe
  · exact h.pushed other hother

/-- The document comes after all that the sandbox has taken. -/
theorem succeeds (h : Delivered document frames taken pushes) {frame : Document}
    (hframe : frame ∈ taken) : document.Succeeds frame := by
  obtain ⟨push, hpush, rfl⟩ := h.pushed frame hframe
  exact (List.pairwise_cons.1 h.ordered).1 _ (List.mem_map_of_mem hpush)

end Delivered

/-! ## What each side does to what waits -/

/-- What is taken from the wire is the document of some payload on it. -/
theorem firstFrame?_eq_some {payloads rest : List Text} {frame : Document}
    (h : Channel.firstFrame? payloads = some (frame, rest)) :
    (∃ payload ∈ payloads, Channel.frame? payload = some frame) ∧
      ∀ payload ∈ rest, payload ∈ payloads := by
  induction payloads with
  | nil => cases h
  | cons payload payloads ih =>
    unfold Channel.firstFrame? at h
    split at h
    · next hframe =>
      obtain ⟨rfl, rfl⟩ := Prod.mk.inj (Option.some.inj h)
      exact ⟨⟨payload, List.mem_cons_self, hframe⟩, fun _ => List.mem_cons_of_mem _⟩
    · obtain ⟨⟨other, hother, hframe⟩, hrest⟩ := ih h
      exact ⟨⟨other, List.mem_cons_of_mem _ hother, hframe⟩,
        fun p hp => List.mem_cons_of_mem _ (hrest p hp)⟩

/-- The three ends of an attempt of the sandbox to take a frame. -/
theorem step_take_cases (w : World) :
    w.step .take = w ∨
    (∃ channel, channel.frames.queue = [] ∧ channel.messages = w.channel.messages ∧
      channel.frames.hasReceiver = w.channel.frames.hasReceiver ∧
        w.step .take = w.withChannel channel) ∨
    ∃ channel frame, (∃ payload ∈ w.channel.frames.queue, Channel.frame? payload = some frame) ∧
      (∀ payload ∈ channel.frames.queue, payload ∈ w.channel.frames.queue) ∧
        channel.messages = w.channel.messages ∧
          channel.frames.hasReceiver = w.channel.frames.hasReceiver ∧
            w.step .take = { w.withChannel channel with taken := frame :: w.taken } := by
  unfold World.step Channel.nextFrame
  dsimp only
  split
  · right
    cases hfirst : Channel.firstFrame? w.channel.frames.queue with
    | none =>
      left
      refine ⟨{ w.channel with frames := { w.channel.frames with queue := [] } }, rfl, rfl, rfl, ?_⟩
      dsimp only
      by_cases hsender : w.channel.frames.hasSender = true
      · rw [if_pos hsender]
      · rw [if_neg hsender]
    | some first =>
      right
      obtain ⟨frame, rest⟩ := first
      obtain ⟨hframe, hrest⟩ := firstFrame?_eq_some hfirst
      exact ⟨{ w.channel with frames := { w.channel.frames with queue := rest } }, frame, hframe, hrest,
        rfl, rfl, rfl⟩
  · left
    rfl

/-- What waits for the sandbox after a push waited before or is what was pushed. -/
theorem mem_frames_push (b : Bridge) (document : Document) {payload : Text}
    (h : payload ∈ (b.push document).channel.frames.queue) :
    payload ∈ b.channel.frames.queue ∨ payload = payloadOf document := by
  have hqueue : (b.push document).channel.frames.queue
      = if b.channel.frames.hasReceiver then b.channel.frames.queue ++ [payloadOf document]
        else b.channel.frames.queue := Wire.queue_send _ _
  rw [hqueue] at h
  split at h
  · rcases List.mem_append.1 h with h | h
    · exact .inl h
    · exact .inr (List.mem_singleton.1 h)
  · exact .inl h

theorem frames_pump (b : Bridge) (buffer : EditBuffer) :
    (b.pump buffer).1.channel.frames = b.channel.frames := by
  rw [channel_pump]

/-! ## Runs -/

/-- What holds of every world that can be reached. -/
def World.Delivered (w : World) : Prop :=
  Live.Delivered w.document w.channel.frames.queue w.taken w.pushes

theorem delivered_start (config : Config) : (World.start config).Delivered := by
  refine ⟨List.pairwise_singleton _ _, ?_, ?_⟩
  · exact fun _ hp => (List.not_mem_nil hp).elim
  · exact fun _ hp => (List.not_mem_nil hp).elim

variable {w : World}

/-- The session takes in what waits for it. -/
theorem World.Delivered.pump (h : w.Delivered) :
    Live.Delivered w.document w.live.pump.1.bridge.channel.frames.queue w.taken w.pushes := by
  have hframes := frames_pump w.live.bridge w.live.session.buffer
  exact h.mono fun payload hp => hframes ▸ hp

/-- A sync may write a batch, and pushes what it has written if it should. -/
theorem World.Delivered.sync (h : w.Delivered) : (w.step .sync).Delivered := by
  show Live.Delivered w.live.sync.1.session.document w.live.sync.1.bridge.channel.frames.queue
    w.taken (w.after w.live.sync.1 w.pushedBySync).pushes
  unfold World.after World.pushedBySync
  rcases Session.sync_cases w.live.pump.1.session with ⟨-, hsync⟩ | ⟨cause, -, hsync⟩ |
    ⟨outcome, -, hsync⟩
  · rw [sync_of_error hsync]
    exact h.pump
  · rw [sync_of_error hsync]
    exact h.pump
  · rw [sync_of_ok hsync]
    have hwritten := h.pump.replace outcome.source
    unfold Session.reportOf
    cases w.live.pump.1.session.config.pushOnSync with
    | true => exact hwritten.push _ fun payload hp => mem_frames_push _ _ hp
    | false => exact hwritten

/-- **One step.** -/
theorem delivered_step (h : w.Delivered) (action : Action) : (w.step action).Delivered := by
  have hsession : ∀ {session : Session}, session.document = w.document →
      Live.Delivered session.document w.channel.frames.queue w.taken w.pushes :=
    fun hdocument => hdocument ▸ h
  cases action with
  | setSource text => exact h.replace text
  | updatePreview => exact h.push _ fun payload hp => mem_frames_push _ _ hp
  | pump => exact h.pump
  | sync => exact h.sync
  | discard => exact h.pump
  | select address => exact hsession (Session.document_select _ address)
  | applyStyle => exact hsession (Session.document_applyStyle _)
  | applyHeading heading => exact hsession (Session.document_applyHeading _ heading)
  | take =>
    rcases step_take_cases w with hstep | ⟨channel, hqueue, -, -, hstep⟩ |
      ⟨channel, frame, ⟨payload, hpayload, hframe⟩, hqueue, -, -, hstep⟩
    · rw [hstep]
      exact h
    · rw [hstep]
      exact h.mono fun payload hp => absurd (hqueue ▸ hp) List.not_mem_nil
    · rw [hstep]
      exact (h.mono hqueue).take (h.exists_push_of_frame? hpayload hframe)
  | post payload =>
    unfold World.step
    dsimp only
    split
    · exact h
    · exact h
  | leave => exact h.mono fun _ hp => (List.not_mem_nil hp).elim

theorem delivered_of_reachable {allowed : World → Action → Prop} {config : Config}
    (h : Reachable allowed config w) : w.Delivered := by
  induction h with
  | start => exact delivered_start config
  | step _ _ ih => exact delivered_step ih _

end Live

end Retouch
