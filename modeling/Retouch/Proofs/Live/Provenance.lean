import Retouch.Proofs.Live.Ledger

/-!
# What an edit was made on

The sandbox makes an edit on the frame that it shows, but posts neither the revision of the frame nor
its text. What waits for a sync goes on waiting when the document gets another text, and nothing
compares the two: the batch is written into the document as it is then. So an edit may end in a text
that it was not made on, and there in another element (`exists_strayed_edit`).

The main statement is `succeeds_of_reported`, which says when that can happen. The document into which
an edit is written comes after the frame that it was made on, so the two have one text if the document
has not changed since the frame was pushed, and they have different ones if it has changed once.
-/

namespace Retouch.Live

variable {w : World} {b : Ledger}

/-! ## Tickets carry frames -/

/-- What holds of the frames on the tickets of a run. -/
structure Traced (w : World) (b : Ledger) : Prop where
  /-- The frame on a ticket was taken. -/
  shown : ∀ ticket ∈ b.queued ++ b.takenIn, ∀ frame, ticket.shown = some frame → frame ∈ w.taken
  /-- The document into which an edit was written comes after the frame that it was made on. -/
  reported : ∀ entry ∈ b.reported, ∀ ticket ∈ entry.tickets, ∀ frame,
    ticket.shown = some frame → entry.session.document.Succeeds frame

theorem traced_start (config : Config) : Traced (.start config) .empty where
  shown := fun _ hticket => (List.not_mem_nil hticket).elim
  reported := fun _ hentry => (List.not_mem_nil hentry).elim

/-! ## What one step does -/

/-- What the sandbox has taken it has taken for good. -/
theorem mem_taken_step {frame : Document} (h : frame ∈ w.taken) (action : Action) :
    frame ∈ (w.step action).taken := by
  cases action with
  | take =>
    rcases step_take_cases w with hstep | ⟨channel, -, -, -, hstep⟩ | ⟨channel, other, -, -, -, -, hstep⟩
    · rw [hstep]
      exact h
    · rw [hstep]
      exact h
    · rw [hstep]
      exact List.mem_cons_of_mem _ h
  | post payload =>
    unfold World.step
    dsimp only
    split
    · exact h
    · exact h
  | _ => exact h

namespace Ledger

variable {ticket : Ticket} {entry : Entry}

/-- The tickets that a sync finds are those that were queued or taken in. -/
theorem mem_takeQueued (h : ticket ∈ b.takeQueued.takenIn) : ticket ∈ b.queued ++ b.takenIn := by
  rw [takenIn_takeQueued] at h
  exact List.perm_append_comm.mem_iff.1 h

/-- The style controls make a ticket without a frame. -/
theorem mem_control {result : Except SessionError StyleEdit}
    (h : ticket ∈ (b.control result).queued ++ (b.control result).takenIn) :
    ticket ∈ b.queued ++ b.takenIn ∨ ticket.shown = none := by
  cases result with
  | error cause => exact .inl h
  | ok edit =>
    have hmem : ticket ∈ b.queued ++ (b.takenIn ++ [⟨b.issued, .style edit, none⟩]) := h
    rw [← List.append_assoc] at hmem
    rcases List.mem_append.1 hmem with hold | hnew
    · exact .inl hold
    · obtain rfl := List.mem_singleton.1 hnew
      exact .inr rfl

/-- A post makes a ticket with the frame that is shown. -/
theorem mem_post {payload : Text} {shown : Option Document}
    (h : ticket ∈ (b.post payload shown).queued ++ (b.post payload shown).takenIn) :
    ticket ∈ b.queued ++ b.takenIn ∨ ticket.shown = shown := by
  unfold post at h
  split at h
  · rw [List.append_assoc] at h
    rcases List.mem_append.1 h with hqueued | h
    · exact .inl (List.mem_append_left _ hqueued)
    · rcases List.mem_cons.1 h with rfl | htakenIn
      · exact .inr rfl
      · exact .inl (List.mem_append_right _ htakenIn)
  · exact .inl h

/-- A sync makes no ticket. -/
theorem mem_sync {session : Session} {result : Except SessionError SyncReport}
    (h : ticket ∈ (b.sync session result).queued ++ (b.sync session result).takenIn) :
    ticket ∈ b.queued ++ b.takenIn := by
  cases result with
  | error cause => exact h
  | ok report => exact h

/-- A ticket that is new carries the frame that the sandbox has taken last, or none. -/
theorem mem_step {action : Action}
    (h : ticket ∈ (b.step w action).queued ++ (b.step w action).takenIn) :
    ticket ∈ b.queued ++ b.takenIn ∨ ticket.shown = none ∨ ticket.shown = w.taken.head? := by
  cases action with
  | pump => exact .inl (mem_takeQueued h)
  | sync => exact .inl (mem_takeQueued (mem_sync h))
  | discard => exact .inl (mem_takeQueued h)
  | applyStyle => exact (mem_control h).imp_right .inl
  | applyHeading heading => exact (mem_control h).imp_right .inl
  | post payload =>
    unfold step at h
    dsimp only at h
    split at h
    · exact (mem_post h).imp_right .inr
    · exact .inl h
  | setSource text => exact .inl h
  | updatePreview => exact .inl h
  | select address => exact .inl h
  | take => exact .inl h
  | leave => exact .inl h

theorem reported_takeQueued : b.takeQueued.reported = b.reported := (b.foldl_take b.queued).2

theorem reported_control (result : Except SessionError StyleEdit) :
    (b.control result).reported = b.reported := by
  cases result with
  | error cause => rfl
  | ok edit => rfl

theorem reported_post (payload : Text) (shown : Option Document) :
    (b.post payload shown).reported = b.reported := by
  unfold post
  split
  · rfl
  · rfl

/-- An entry that a sync makes holds what was pending and the session. -/
theorem mem_reported_sync {session : Session} {result : Except SessionError SyncReport}
    (h : entry ∈ (b.sync session result).reported) :
    entry ∈ b.reported ∨ entry.tickets = b.pending ∧ entry.session = session := by
  cases result with
  | error cause => exact .inl h
  | ok report =>
    rcases List.mem_append.1 h with hold | hnew
    · exact .inl hold
    · obtain rfl := List.mem_singleton.1 hnew
      exact .inr ⟨rfl, rfl⟩

/-- An entry that is new is of a sync, and holds what was pending when its batch was written. -/
theorem mem_reported_step {action : Action} (h : entry ∈ (b.step w action).reported) :
    entry ∈ b.reported ∨
      entry.tickets = b.takeQueued.pending ∧ entry.session = w.live.pump.1.session := by
  cases action with
  | pump => exact .inl (reported_takeQueued ▸ h)
  | sync =>
    rcases mem_reported_sync h with hold | hnew
    · exact .inl (reported_takeQueued ▸ hold)
    · exact .inr hnew
  | discard => exact .inl (reported_takeQueued ▸ h)
  | applyStyle => exact .inl (reported_control _ ▸ h)
  | applyHeading heading => exact .inl (reported_control _ ▸ h)
  | post payload =>
    left
    unfold step at h
    dsimp only at h
    split at h
    · rw [reported_post] at h
      exact h
    · exact h
  | setSource text => exact .inl h
  | updatePreview => exact .inl h
  | select address => exact .inl h
  | take => exact .inl h
  | leave => exact .inl h

end Ledger

/-- **One step.** -/
theorem traced_step (h : Traced w b) (hb : w.Balanced b) (hd : w.Delivered) (action : Action) :
    Traced (w.step action) (b.step w action) where
  shown := by
    intro ticket hticket frame hframe
    apply mem_taken_step
    rcases Ledger.mem_step hticket with hold | hnone | hlast
    · exact h.shown ticket hold frame hframe
    · rw [hnone] at hframe
      cases hframe
    · rw [hlast] at hframe
      exact List.mem_of_mem_head? hframe
  reported := by
    intro entry hentry ticket hticket frame hframe
    rcases Ledger.mem_reported_step hentry with hold | ⟨htickets, hsession⟩
    · exact h.reported entry hold ticket hticket frame hframe
    · rw [htickets] at hticket
      rw [hsession]
      have htakenIn := Ledger.mem_takeQueued (hb.pump.toHeld.mem_takenIn hticket)
      exact hd.succeeds (h.shown ticket htakenIn frame hframe)

theorem traced_run (h : Traced w b) (hb : w.Balanced b) (hd : w.Delivered) (actions : List Action) :
    Traced (w.run actions) (b.run w actions) := by
  induction actions generalizing w b with
  | nil => exact h
  | cons action rest ih =>
    exact ih (traced_step h hb hd action) (balanced_step hb action) (delivered_step hd action)

/-! ## The document that a batch is written into -/

/-- **Edits go into a later document.** After any run, whatever a sync has reported: its batch was
written into the document of its session, which comes after the frame that each of its edits was made
on. -/
theorem succeeds_of_reported {config : Config} {actions : List Action} {entry : Entry}
    (hentry : entry ∈ (Ledger.empty.run (.start config) actions).reported) {ticket : Ticket}
    (hticket : ticket ∈ entry.tickets) {frame : Document} (hframe : ticket.shown = some frame) :
    (∃ outcome, applyBatch entry.session.config.dialect entry.session.source
        (entry.tickets.map Ticket.edit) = .ok outcome ∧ entry.report.applied = outcome.applied) ∧
      entry.session.document.Succeeds frame := by
  have hbalanced := balanced_run (balanced_start config) actions
  have htraced := traced_run (traced_start config) (balanced_start config) (delivered_start config)
    actions
  obtain ⟨hsync, htickets⟩ := hbalanced.reported entry hentry
  refine ⟨?_, htraced.reported entry hentry ticket hticket frame hframe⟩
  obtain ⟨outcome, hbatch, hreport, -⟩ := Session.batch_of_sync hsync
  rw [htickets, hreport]
  exact ⟨outcome, hbatch, rfl⟩

/-- The document is still the frame that the sandbox shows. -/
theorem succeeds_of_reported_unchanged :
    let payload := (InboundMessage.textEdit ['p'] 0 ['b']).toJson.write
    let actions : List Action := [.updatePreview, .take, .post payload, .sync]
    ∃ entry ∈ (Ledger.empty.run (.start ⟨.tsx, "<p>a</p>".toList, true⟩) actions).reported,
      ∃ ticket ∈ entry.tickets, ∃ frame, ticket.shown = some frame ∧
        entry.session.document.Succeeds frame := by
  intro payload actions
  let b := Ledger.empty.run (.start ⟨.tsx, "<p>a</p>".toList, true⟩) actions
  have hshown : b.reported.map (fun entry => entry.tickets.map Ticket.shown)
      = [[some ⟨"<p>a</p>".toList, 0⟩]] := by
    decide +kernel
  obtain ⟨entry, rest, hreported, htickets, -⟩ := List.map_eq_cons_iff.1 hshown
  obtain ⟨ticket, others, hticket, hframe, -⟩ := List.map_eq_cons_iff.1 htickets
  have hentry : entry ∈ b.reported := hreported ▸ List.mem_cons_self
  have hmem : ticket ∈ entry.tickets := hticket ▸ List.mem_cons_self
  exact ⟨entry, hentry, ticket, hmem, _, hframe, (succeeds_of_reported hentry hmem hframe).2⟩

/-- **Edits may stray.** The document gets another text while an edit waits. The edit is written into
that text, in which its address is of another element. -/
theorem exists_strayed_edit :
    let payload := (InboundMessage.textEdit ['p'] 0 ['b']).toJson.write
    let actions : List Action := [.updatePreview, .take, .post payload,
      .setSource "<i><p>x</p><p>a</p></i>".toList, .sync]
    ∃ entry ∈ (Ledger.empty.run (.start ⟨.tsx, "<p>a</p>".toList, true⟩) actions).reported,
      ∃ ticket ∈ entry.tickets, ∃ frame, ticket.shown = some frame ∧
        ticket.edit ∈ entry.report.applied ∧ entry.session.source ≠ frame.text := by
  intro payload actions
  let b := Ledger.empty.run (.start ⟨.tsx, "<p>a</p>".toList, true⟩) actions
  have hrun : b.reported.map (fun entry =>
      (entry.tickets.map Ticket.shown, entry.session.source, entry.report.skipped.length))
      = [([some ⟨"<p>a</p>".toList, 0⟩], "<i><p>x</p><p>a</p></i>".toList, 0)] := by
    decide +kernel
  obtain ⟨entry, rest, hreported, hfields, -⟩ := List.map_eq_cons_iff.1 hrun
  obtain ⟨htickets, hfields⟩ := Prod.mk.inj hfields
  obtain ⟨hsource, hskipped⟩ := Prod.mk.inj hfields
  obtain ⟨ticket, others, hticket, hframe, -⟩ := List.map_eq_cons_iff.1 htickets
  have hentry : entry ∈ b.reported := hreported ▸ List.mem_cons_self
  have hmem : ticket ∈ entry.tickets := hticket ▸ List.mem_cons_self
  have happlied : ticket.edit ∈ entry.report.applied := by
    have hperm := ((balanced_run (balanced_start _) actions).reported entry hentry).perm
    rw [List.length_eq_zero_iff.1 hskipped, List.map_nil, List.append_nil] at hperm
    exact hperm.mem_iff.2 (List.mem_map_of_mem hmem)
  refine ⟨entry, hentry, ticket, hmem, _, hframe, happlied, ?_⟩
  rw [hsource]
  decide

end Retouch.Live
