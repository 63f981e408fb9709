import Retouch.Proofs.Live.Delivery

/-!
# No edit is lost

An edit is posted by the sandbox or recorded by the style controls, and ends in the report of a sync,
unless a later edit of the same element takes its place or it is discarded. A `Ledger` follows each
edit through a run by a ticket of its own. The main statement is `accounted_of_run`: at any time every
ticket is in exactly one place, the tickets that are queued or pending are of the edits that the
session and its connection hold, and a sync that succeeds reports each pending edit once.

The invariant is `Balanced`. What is taken in is dealt with one ticket at a time (`Held.take`); a sync
that fails gives back what it took (`Session.restored_eq`), so only those that succeed count.
-/

namespace Retouch.Live

open scoped List

/-! ## Tickets -/

/-- An edit on its way. The serial number tells apart edits that are the same. -/
structure Ticket where
  serial : Nat
  edit : PendingEdit
  /-- The frame that the sandbox had taken last when it posted the edit. -/
  shown : Option Document

namespace Ticket

/-- Tickets with one more, which goes where `EditBuffer.put` puts its edit. -/
def put (ticket : Ticket) : List Ticket → List Ticket
  | [] => [ticket]
  | old :: rest =>
    if old.edit.address = ticket.edit.address then ticket :: rest else old :: put ticket rest

/-- The ticket whose place another one takes. -/
def displaced? (ticket : Ticket) (tickets : List Ticket) : Option Ticket :=
  tickets.find? fun old => old.edit.address = ticket.edit.address

theorem map_edit_put (ticket : Ticket) (tickets : List Ticket) :
    (put ticket tickets).map edit = EditBuffer.put ticket.edit (tickets.map edit) := by
  induction tickets with
  | nil => rfl
  | cons old rest ih =>
    by_cases hsame : old.edit.address = ticket.edit.address
    · rw [put, if_pos hsame, List.map_cons, List.map_cons, EditBuffer.put, if_pos hsame]
    · rw [put, if_neg hsame, List.map_cons, List.map_cons, EditBuffer.put, if_neg hsame, ih]

/-- Only the ticket whose place is taken goes. -/
theorem perm_put (ticket : Ticket) (tickets : List Ticket) :
    put ticket tickets ++ (displaced? ticket tickets).toList ~ ticket :: tickets := by
  induction tickets with
  | nil => exact .refl _
  | cons old rest ih =>
    unfold displaced? at ih ⊢
    by_cases hsame : old.edit.address = ticket.edit.address
    · rw [put, if_pos hsame, List.find?_cons_of_pos (by simpa using hsame)]
      exact (List.perm_append_singleton old rest).cons ticket
    · rw [put, if_neg hsame, List.find?_cons_of_neg (by simpa using hsame)]
      exact (ih.cons old).trans (.swap ticket old rest)

/-- The ticket whose place is taken is of the same element. -/
theorem displaced?_eq_some {ticket old : Ticket} {tickets : List Ticket}
    (h : displaced? ticket tickets = some old) :
    old ∈ tickets ∧ old.edit.address = ticket.edit.address :=
  ⟨List.mem_of_find?_eq_some h, by simpa using List.find?_some h⟩

end Ticket

/-! ## The ledger -/

/-- A ticket, and the one that has taken its place. -/
structure Replacement where
  old : Ticket
  new : Ticket

/-- A sync that has succeeded. -/
structure Entry where
  /-- What was pending. -/
  tickets : List Ticket
  /-- The session into whose source the batch was written. -/
  session : Session
  report : SyncReport

/-- Whether an entry is right: the sync had this report, and the tickets are of the edits that it
found. -/
def Entry.Right (entry : Entry) : Prop :=
  entry.session.sync.2 = .ok entry.report ∧
    entry.tickets.map Ticket.edit = entry.session.buffer.pending

/-- The sync has reported the edit of each ticket once. -/
theorem Entry.Right.perm {entry : Entry} (h : entry.Right) :
    entry.report.applied ++ entry.report.skipped.map SkippedEdit.edit
      ~ entry.tickets.map Ticket.edit := by
  obtain ⟨hsync, htickets⟩ := h
  rw [htickets]
  exact (Session.perm_of_sync hsync).1

/-- What has become of every edit. -/
structure Ledger where
  /-- How many tickets there are. -/
  issued : Nat
  /-- Posted, and not yet taken in. -/
  queued : List Ticket
  /-- Taken in, in this order. -/
  takenIn : List Ticket
  /-- Those taken in since the last sync that has succeeded or the last discard. -/
  intake : List Ticket
  pending : List Ticket
  replaced : List Replacement
  reported : List Entry
  discarded : List Ticket

namespace Ledger

/-- No tickets. -/
def empty : Ledger := ⟨0, [], [], [], [], [], [], []⟩

/-- The tickets that were taken in, each in the place where it is now. -/
def places (b : Ledger) : List Ticket :=
  b.pending ++ (b.replaced.map Replacement.old ++
    (b.reported.flatMap Entry.tickets ++ b.discarded))

/-- What is pending can be listed behind what was reported. -/
theorem perm_places (b : Ledger) : b.places ~ b.replaced.map Replacement.old ++
    (b.reported.flatMap Entry.tickets ++ (b.pending ++ b.discarded)) :=
  (List.perm_append_comm_assoc ..).trans ((List.perm_append_comm_assoc ..).append_left _)

/-- A ticket is taken in. -/
def take (b : Ledger) (ticket : Ticket) : Ledger :=
  { b with
    takenIn := b.takenIn ++ [ticket]
    intake := b.intake ++ [ticket]
    pending := ticket.put b.pending
    replaced := b.replaced
      ++ ((ticket.displaced? b.pending).map fun old => ⟨old, ticket⟩).toList }

/-- All that is queued is taken in. -/
def takeQueued (b : Ledger) : Ledger := { b.queued.foldl take b with queued := [] }

/-- What is taken in goes behind all that was taken in before. -/
theorem takenIn_foldl_take (b : Ledger) (tickets : List Ticket) :
    (tickets.foldl take b).takenIn = b.takenIn ++ tickets := by
  induction tickets generalizing b with
  | nil => exact (List.append_nil _).symm
  | cons ticket rest ih =>
    refine (ih (b.take ticket)).trans ?_
    show b.takenIn ++ [ticket] ++ rest = b.takenIn ++ ticket :: rest
    rw [List.append_assoc, List.singleton_append]

/-- What is taken in is neither issued nor reported by that. -/
theorem foldl_take (b : Ledger) (tickets : List Ticket) :
    (tickets.foldl take b).issued = b.issued ∧ (tickets.foldl take b).reported = b.reported := by
  induction tickets generalizing b with
  | nil => exact ⟨rfl, rfl⟩
  | cons ticket rest ih => exact ih (b.take ticket)

theorem takenIn_takeQueued (b : Ledger) : b.takeQueued.takenIn = b.takenIn ++ b.queued :=
  b.takenIn_foldl_take b.queued

/-- The sandbox posts a payload while it shows a frame. -/
def post (b : Ledger) (payload : Text) (shown : Option Document) : Ledger :=
  match reportedEdit? payload with
  | some edit => { b with issued := b.issued + 1, queued := b.queued ++ [⟨b.issued, edit, shown⟩] }
  | none => b

/-- The style controls may have recorded an edit. -/
def control (b : Ledger) : Except SessionError StyleEdit → Ledger
  | .ok edit => { b with issued := b.issued + 1 }.take ⟨b.issued, .style edit, none⟩
  | .error _ => b

/-- A session may have written what was pending. -/
def sync (b : Ledger) (session : Session) : Except SessionError SyncReport → Ledger
  | .ok report =>
    { b with intake := [], pending := [], reported := b.reported ++ [⟨b.pending, session, report⟩] }
  | .error _ => b

/-- What was pending is discarded. -/
def discard (b : Ledger) : Ledger :=
  { b with intake := [], pending := [], discarded := b.discarded ++ b.pending }

/-- The ledger after something happens in a world. -/
def step (b : Ledger) (w : World) : Action → Ledger
  | .pump => b.takeQueued
  | .sync => b.takeQueued.sync w.live.pump.1.session w.live.sync.2
  | .discard => b.takeQueued.discard
  | .applyStyle => b.control w.live.applyStyle.2
  | .applyHeading heading => b.control (w.live.applyHeading heading).2
  | .post payload => if w.hasSandbox then b.post payload w.taken.head? else b
  | _ => b

/-- The ledger after a run. -/
def run (b : Ledger) (w : World) : List Action → Ledger
  | [] => b
  | action :: rest => (b.step w action).run (w.step action) rest

end Ledger

/-! ## What was taken in -/

/-- What holds of the edits that wait in a session and the tickets that were taken in. -/
structure Held (buffer : EditBuffer) (b : Ledger) : Prop where
  /-- The edits that wait are built from those taken in since the last sync that has succeeded or the
  last discard. -/
  built : buffer = (b.intake.map Ticket.edit).foldl EditBuffer.record .empty
  pending : b.pending.map Ticket.edit = buffer.pending
  /-- What takes the place of a ticket is of the same element, and was taken in later. -/
  replaced : ∀ r ∈ b.replaced, r.old.edit.address = r.new.edit.address ∧
    [r.old, r.new].Sublist b.takenIn
  reported : ∀ entry ∈ b.reported, entry.Right
  /-- Each ticket that was taken in is in one place. -/
  places : b.takenIn ~ b.places

namespace Held

variable {buffer : EditBuffer} {b : Ledger}

/-- How many tickets there are and which are queued says nothing of those that were taken in. -/
theorem congr (h : Held buffer b) (issued : Nat) (queued : List Ticket) :
    Held buffer { b with issued := issued, queued := queued } :=
  ⟨h.built, h.pending, h.replaced, h.reported, h.places⟩

theorem distinct (h : Held buffer b) : EditBuffer.Distinct buffer.pending :=
  h.built ▸ EditBuffer.distinct_foldl_record _ _ EditBuffer.distinct_nil

/-- A ticket that is pending was taken in. -/
theorem mem_takenIn (h : Held buffer b) {ticket : Ticket} (hticket : ticket ∈ b.pending) :
    ticket ∈ b.takenIn :=
  h.places.mem_iff.2 (List.mem_append_left _ hticket)

/-- **One ticket more is in one place.** -/
theorem places_take (h : Held buffer b) (ticket : Ticket) :
    (b.take ticket).takenIn ~ (b.take ticket).places := by
  let replaced := b.replaced.map Replacement.old
  let done := b.reported.flatMap Entry.tickets ++ b.discarded
  let displaced := (ticket.displaced? b.pending).toList
  have hplaces : (b.take ticket).places = ticket.put b.pending ++ (replaced ++ (displaced ++ done)) := by
    have hold : ((ticket.displaced? b.pending).map fun old => (⟨old, ticket⟩ : Replacement)).toList.map
        Replacement.old = displaced := by
      show _ = (ticket.displaced? b.pending).toList
      cases ticket.displaced? b.pending with
      | none => rfl
      | some old => rfl
    show ticket.put b.pending ++ ((b.replaced ++ _).map Replacement.old ++ done) = _
    rw [List.map_append, hold, List.append_assoc]
  have hput := ticket.perm_put b.pending
  calc b.takenIn ++ [ticket]
      ~ ticket :: b.takenIn := List.perm_append_singleton _ _
    _ ~ ticket :: b.places := h.places.cons ticket
    _ ~ ticket.put b.pending ++ displaced ++ (replaced ++ done) := hput.symm.append_right _
    _ ~ ticket.put b.pending ++ (displaced ++ (replaced ++ done)) := .of_eq (List.append_assoc ..)
    _ ~ ticket.put b.pending ++ (replaced ++ (displaced ++ done)) :=
      (List.perm_append_comm_assoc ..).append_left _
    _ ~ (b.take ticket).places := .of_eq hplaces.symm

/-- A ticket is taken in. -/
theorem take (h : Held buffer b) (ticket : Ticket) :
    Held (buffer.record ticket.edit) (b.take ticket) where
  built := by
    show _ = ((b.intake ++ [ticket]).map Ticket.edit).foldl EditBuffer.record .empty
    rw [List.map_append, List.foldl_append, ← h.built]
    rfl
  pending := by
    show (ticket.put b.pending).map Ticket.edit = EditBuffer.put ticket.edit buffer.pending
    rw [Ticket.map_edit_put, h.pending]
  replaced := by
    intro r hr
    rcases List.mem_append.1 hr with hr | hr
    · obtain ⟨haddress, hlater⟩ := h.replaced r hr
      exact ⟨haddress, hlater.trans (List.sublist_append_left _ _)⟩
    · obtain ⟨old, hold, rfl⟩ := Option.map_eq_some_iff.1 (Option.mem_toList.1 hr)
      obtain ⟨hpending, haddress⟩ := Ticket.displaced?_eq_some hold
      refine ⟨haddress, ?_⟩
      exact (List.singleton_sublist.2 (h.mem_takenIn hpending)).append (.refl [ticket])
  reported := h.reported
  places := h.places_take ticket

/-- Tickets are taken in, one after the other. -/
theorem takeAll (h : Held buffer b) (tickets : List Ticket) :
    Held ((tickets.map Ticket.edit).foldl EditBuffer.record buffer) (tickets.foldl Ledger.take b) := by
  induction tickets generalizing buffer b with
  | nil => exact h
  | cons ticket rest ih => exact ih (h.take ticket)

/-- What is pending is put into an entry. -/
theorem sync (h : Held buffer b) {session : Session} {report : SyncReport}
    (hbuffer : session.buffer = buffer) (hsync : session.sync.2 = .ok report) :
    Held .empty (b.sync session (.ok report)) where
  built := rfl
  pending := rfl
  replaced := h.replaced
  reported := by
    intro entry hentry
    rcases List.mem_append.1 hentry with hentry | hentry
    · exact h.reported entry hentry
    · obtain rfl := List.mem_singleton.1 hentry
      exact ⟨hsync, hbuffer ▸ h.pending⟩
  places := by
    refine h.places.trans (b.perm_places.trans ?_)
    show _ ~ [] ++ (b.replaced.map Replacement.old ++
      ((b.reported ++ [(⟨b.pending, session, report⟩ : Entry)]).flatMap Entry.tickets ++ b.discarded))
    rw [List.flatMap_append, List.flatMap_singleton, List.append_assoc, List.nil_append]

/-- What is pending is discarded. -/
theorem discard (h : Held buffer b) : Held .empty b.discard where
  built := rfl
  pending := rfl
  replaced := h.replaced
  reported := h.reported
  places := by
    refine h.places.trans (b.perm_places.trans ?_)
    show _ ~ [] ++ (b.replaced.map Replacement.old ++
      (b.reported.flatMap Entry.tickets ++ (b.discarded ++ b.pending)))
    rw [List.nil_append]
    exact (List.perm_append_comm.append_left _).append_left _

end Held

/-! ## What waits -/

/-- What holds of the edits that wait in a session, what waits for the session and the ledger. -/
structure Balanced (buffer : EditBuffer) (messages : Wire) (b : Ledger) : Prop
    extends Held buffer b where
  receives : messages.hasReceiver = true
  queued : b.queued.map Ticket.edit = messages.queue.filterMap reportedEdit?
  /-- Each ticket that was issued is queued or was taken in. -/
  issued : (b.queued ++ b.takenIn).map Ticket.serial ~ List.range b.issued

namespace Balanced

variable {buffer : EditBuffer} {messages : Wire} {b : Ledger}

/-- Each ticket is in one place. -/
theorem everywhere (h : Balanced buffer messages b) :
    (b.queued ++ b.places).map Ticket.serial ~ List.range b.issued :=
  ((h.places.symm.append_left b.queued).map Ticket.serial).trans h.issued

/-- Another ticket has the next serial number. -/
theorem perm_range_succ {serials : List Nat} {issued : Nat} (h : serials ~ List.range issued) :
    serials ++ [issued] ~ List.range (issued + 1) := by
  rw [List.range_succ]
  exact h.append_right [issued]

/-- What happens to the wire leaves what waits on it. -/
theorem congr (h : Balanced buffer messages b) {wire : Wire} (hqueue : wire.queue = messages.queue)
    (hreceives : wire.hasReceiver = messages.hasReceiver) : Balanced buffer wire b where
  toHeld := h.toHeld
  receives := hreceives.trans h.receives
  queued := h.queued.trans (by rw [hqueue])
  issued := h.issued

/-- The sandbox posts a payload. -/
theorem post (h : Balanced buffer messages b) (payload : Text) (shown : Option Document) :
    Balanced buffer (messages.send payload).1 (b.post payload shown) := by
  have hqueue := messages.queue_send payload
  rw [if_pos h.receives] at hqueue
  have hreceives : (messages.send payload).1.hasReceiver = true := by
    rw [Wire.send, if_pos h.receives]
    exact h.receives
  unfold Ledger.post
  cases hedit : reportedEdit? payload with
  | none =>
    refine { toHeld := h.toHeld, receives := hreceives, queued := ?_, issued := h.issued }
    rw [hqueue, List.filterMap_append, List.filterMap_cons_none hedit, List.filterMap_nil,
      List.append_nil]
    exact h.queued
  | some edit =>
    let ticket : Ticket := ⟨b.issued, edit, shown⟩
    refine { toHeld := h.toHeld.congr _ _, receives := hreceives, queued := ?_, issued := ?_ }
    · show (b.queued ++ [ticket]).map Ticket.edit = _
      rw [hqueue, List.filterMap_append, List.filterMap_cons_some hedit, List.filterMap_nil,
        List.map_append, h.queued]
      rfl
    · show (b.queued ++ [ticket] ++ b.takenIn).map Ticket.serial ~ List.range (b.issued + 1)
      have hlast : b.queued ++ [ticket] ++ b.takenIn ~ b.queued ++ b.takenIn ++ [ticket] := by
        rw [List.append_assoc, List.append_assoc]
        exact List.perm_append_comm.append_left _
      refine (hlast.map Ticket.serial).trans ?_
      rw [List.map_append]
      exact perm_range_succ h.issued

/-- All that waits is taken in. -/
theorem takeQueued (h : Balanced buffer messages b) :
    Balanced ((messages.queue.filterMap reportedEdit?).foldl EditBuffer.record buffer)
      { messages with queue := [] } b.takeQueued := by
  have hheld := h.toHeld.takeAll b.queued
  rw [h.queued] at hheld
  refine { toHeld := hheld.congr _ _, receives := h.receives, queued := rfl, issued := ?_ }
  show ([] ++ b.takeQueued.takenIn).map Ticket.serial
    ~ List.range (b.queued.foldl Ledger.take b).issued
  rw [b.takenIn_takeQueued, (b.foldl_take b.queued).1, List.nil_append]
  exact (List.perm_append_comm.map Ticket.serial).trans h.issued

/-- The style controls may record an edit. -/
theorem control (h : Balanced buffer messages b) (result : Except SessionError StyleEdit) :
    Balanced (Session.recordOk buffer result) messages (b.control result) := by
  cases result with
  | error cause => exact h
  | ok edit =>
    let ticket : Ticket := ⟨b.issued, .style edit, none⟩
    have hheld := (h.toHeld.congr (b.issued + 1) b.queued).take ticket
    refine { toHeld := hheld, receives := h.receives, queued := h.queued, issued := ?_ }
    show (b.queued ++ (b.takenIn ++ [ticket])).map Ticket.serial ~ List.range (b.issued + 1)
    rw [← List.append_assoc, List.map_append]
    exact perm_range_succ h.issued

/-- A session with the edits that wait may write them. -/
theorem sync (h : Balanced buffer messages b) {session : Session} (hbuffer : session.buffer = buffer) :
    Balanced session.sync.1.buffer messages (b.sync session session.sync.2) := by
  cases hresult : session.sync.2 with
  | error cause =>
    have hsame : session.sync.1.buffer = buffer := by
      have hdistinct : EditBuffer.Distinct session.buffer.pending := hbuffer ▸ h.toHeld.distinct
      rcases session.sync_cases with ⟨-, hsync⟩ | ⟨cause, -, hsync⟩ | ⟨outcome, -, hsync⟩
      · rw [hsync]
        exact hbuffer
      · rw [hsync, Session.restored_eq hdistinct]
        exact hbuffer
      · rw [hsync] at hresult
        cases hresult
    rw [hsame]
    exact h
  | ok report =>
    rw [(Session.perm_of_sync hresult).2]
    exact { toHeld := h.toHeld.sync hbuffer hresult, receives := h.receives, queued := h.queued,
            issued := h.issued }

/-- What is pending is discarded. -/
theorem discard (h : Balanced buffer messages b) : Balanced .empty messages b.discard where
  toHeld := h.toHeld.discard
  receives := h.receives
  queued := h.queued
  issued := h.issued

end Balanced

/-! ## Runs -/

/-- What holds of every world and the ledger of the run that led to it. -/
def World.Balanced (w : World) (b : Ledger) : Prop :=
  Live.Balanced w.live.session.buffer w.channel.messages b

theorem balanced_start (config : Config) : (World.start config).Balanced .empty where
  built := rfl
  pending := rfl
  replaced := fun _ hr => (List.not_mem_nil hr).elim
  reported := fun _ hentry => (List.not_mem_nil hentry).elim
  places := .refl _
  receives := rfl
  queued := rfl
  issued := .refl _

variable {w : World} {b : Ledger}

/-- The session takes in all that waits for it. -/
theorem World.Balanced.pump (h : w.Balanced b) :
    Live.Balanced w.live.pump.1.session.buffer w.live.pump.1.bridge.channel.messages b.takeQueued := by
  have hbuffer : w.live.pump.1.session.buffer = _ := buffer_pump w.live.bridge w.live.session.buffer
  have hchannel : w.live.pump.1.bridge.channel = _ := channel_pump w.live.bridge w.live.session.buffer
  rw [hbuffer, hchannel]
  exact h.takeQueued

/-- A sync takes in all that waits, and may write it. -/
theorem World.Balanced.sync (h : w.Balanced b) : (w.step .sync).Balanced (b.step w .sync) := by
  have hwritten := h.pump.sync (rfl : w.live.pump.1.session.buffer = _)
  show Live.Balanced w.live.sync.1.session.buffer w.live.sync.1.bridge.channel.messages
    (b.takeQueued.sync w.live.pump.1.session w.live.sync.2)
  rcases hsync : w.live.pump.1.session.sync with ⟨session, result⟩
  rw [hsync] at hwritten
  cases result with
  | error cause =>
    rw [sync_of_error hsync]
    exact hwritten
  | ok report =>
    rw [sync_of_ok hsync]
    cases hpushed : report.pushed with
    | none => exact hwritten
    | some frame => exact hwritten

/-- **One step.** -/
theorem balanced_step (h : w.Balanced b) (action : Action) :
    (w.step action).Balanced (b.step w action) := by
  cases action with
  | setSource text => exact h
  | updatePreview => exact h
  | pump => exact h.pump
  | sync => exact h.sync
  | discard => exact h.pump.discard
  | select address =>
    have hbuffer := w.live.session.buffer_select address
    show Live.Balanced (w.live.session.select address).1.buffer w.channel.messages b
    rw [hbuffer]
    exact h
  | applyStyle =>
    have hbuffer := w.live.session.buffer_applyStyle
    show Live.Balanced w.live.session.applyStyle.1.buffer w.channel.messages _
    rw [hbuffer]
    exact h.control w.live.applyStyle.2
  | applyHeading heading =>
    have hbuffer := w.live.session.buffer_applyHeading heading
    show Live.Balanced (w.live.session.applyHeading heading).1.buffer w.channel.messages _
    rw [hbuffer]
    exact h.control (w.live.applyHeading heading).2
  | take =>
    rcases step_take_cases w with hstep | ⟨channel, -, hmessages, -, hstep⟩ |
      ⟨channel, frame, -, -, hmessages, -, hstep⟩
    · rw [hstep]
      exact h
    · rw [hstep]
      exact h.congr (congrArg Wire.queue hmessages) (congrArg Wire.hasReceiver hmessages)
    · rw [hstep]
      exact h.congr (congrArg Wire.queue hmessages) (congrArg Wire.hasReceiver hmessages)
  | post payload =>
    unfold World.step Ledger.step
    dsimp only
    by_cases hsandbox : w.hasSandbox = true
    · rw [if_pos hsandbox, if_pos hsandbox]
      exact h.post payload w.taken.head?
    · rw [if_neg hsandbox, if_neg hsandbox]
      exact h
  | leave => exact h.congr rfl rfl

theorem balanced_run (h : w.Balanced b) (actions : List Action) :
    (w.run actions).Balanced (b.run w actions) := by
  induction actions generalizing w b with
  | nil => exact h
  | cons action rest ih => exact ih (balanced_step h action)

/-- **Edits are accounted for.** After any run, the edits that wait are what recording builds from
those taken in since the last sync that has succeeded or the last discard; every ticket is queued,
pending, replaced by a later one of its element, in one report, or discarded, and in one of these
places only; and a sync that succeeds reports each edit that it found once and leaves none. -/
theorem accounted_of_run (config : Config) (actions : List Action) :
    let w := (World.start config).run actions
    let b := Ledger.empty.run (.start config) actions
    w.Balanced b ∧ (b.queued ++ b.places).map Ticket.serial ~ List.range b.issued ∧
      (∀ entry ∈ b.reported, entry.report.applied ++ entry.report.skipped.map SkippedEdit.edit
        ~ entry.tickets.map Ticket.edit) ∧
      ∀ report, w.live.sync.2 = .ok report →
        report.applied ++ report.skipped.map SkippedEdit.edit
          ~ (((b.intake ++ b.queued).map Ticket.edit).foldl EditBuffer.record .empty).pending ∧
            w.live.sync.1.session.buffer = .empty := by
  intro w b
  have hbalanced : w.Balanced b := balanced_run (balanced_start config) actions
  refine ⟨hbalanced, hbalanced.everywhere, ?_, ?_⟩
  · intro entry hentry
    exact (hbalanced.reported entry hentry).perm
  · intro report hreport
    have hbuffer : w.live.pump.1.session.buffer
        = ((b.intake ++ b.queued).map Ticket.edit).foldl EditBuffer.record .empty := by
      have hpump : w.live.pump.1.session.buffer = _ := buffer_pump w.live.bridge w.live.session.buffer
      rw [hpump, List.map_append, List.foldl_append, ← hbalanced.built]
      exact congrArg _ hbalanced.queued.symm
    obtain ⟨hperm, hempty⟩ := Session.perm_of_sync (s := w.live.pump.1.session) hreport
    rw [hbuffer] at hperm
    exact ⟨hperm, hempty⟩

end Retouch.Live
