import Retouch.Proofs.Session.Sync

/-!
# Runs of a session

What the host of a session can do with it, one thing after the other and in any order: `Operation`.
`Session.perform` says what comes of each: the session behind it, why it failed if it did, and what it
pushed to the preview. `Session.run` is what comes of several.

Whatever the host does, an operation changes the document by giving it a text, or not at all
(`document_perform`), pushes the document as it is then (`pushed_perform`), and keeps one pending edit
for each element (`distinct_run`).
-/

namespace Retouch

namespace Session

/-! ## Operations -/

/-- What the host can do with a session. -/
inductive Operation where
  | setSource (text : Text)
  | record (edit : PendingEdit)
  /-- Put edits into the buffer before those that wait. -/
  | restore (edits : List PendingEdit)
  | discard
  | select (address : Address)
  | clearSelection
  /-- Set the style controls, to whatever they can hold. -/
  | adjust (controls : Controls)
  | applyStyle
  | applyHeading (heading : Heading)
  | updatePreview
  | sync

/-- What comes of an operation. -/
structure Effect where
  session : Session
  failure : Option SessionError
  /-- What is pushed to the preview, if anything is. -/
  pushed : Option Document

namespace Effect

/-- What comes of an operation that cannot fail and pushes nothing. -/
def quiet (s : Session) : Effect := ⟨s, none, none⟩

/-- What comes of an operation that may fail, and what its answer pushes. -/
def ofAnswer {α : Type} (pushed : α → Option Document) (result : Session × Except SessionError α) :
    Effect :=
  match result with
  | (s, .ok answer) => ⟨s, none, pushed answer⟩
  | (s, .error cause) => ⟨s, some cause, none⟩

variable {α : Type} {pushed : α → Option Document}

@[simp] theorem session_ofAnswer (result : Session × Except SessionError α) :
    (ofAnswer pushed result).session = result.1 := by
  obtain ⟨s, cause | answer⟩ := result <;> rfl

/-- What fails has an error for an answer. -/
theorem answer_of_failure {result : Session × Except SessionError α} {error : SessionError}
    (h : (ofAnswer pushed result).failure = some error) : result.2 = .error error := by
  obtain ⟨s, cause | answer⟩ := result
  · exact congrArg Except.error (Option.some.inj h)
  · cases h

end Effect

/-- What comes of each operation. -/
def perform (s : Session) : Operation → Effect
  | .setSource text => .quiet (s.setSource text)
  | .record edit => .quiet (s.record edit)
  | .restore edits => .quiet { s with buffer := s.buffer.restore edits }
  | .discard => .quiet s.discard.1
  | .select address => .ofAnswer (fun _ => none) (s.select address)
  | .clearSelection => .quiet s.clearSelection
  | .adjust controls => .quiet { s with controls := controls }
  | .applyStyle => .ofAnswer (fun _ => none) s.applyStyle
  | .applyHeading heading => .ofAnswer (fun _ => none) (s.applyHeading heading)
  | .updatePreview => ⟨s, none, some s.document⟩
  | .sync => .ofAnswer SyncReport.pushed s.sync

/-- The session behind some operations. -/
def run (s : Session) (operations : List Operation) : Session :=
  operations.foldl (fun s o => (s.perform o).session) s

theorem run_append (s : Session) (first rest : List Operation) :
    s.run (first ++ rest) = (s.run first).run rest := List.foldl_append

/-! ## What an operation does to the document -/

/-- An operation gives the document a text, its own if it changes nothing. -/
theorem document_perform (s : Session) (o : Operation) :
    ∃ text, (s.perform o).session.document = s.document.replace text := by
  have hself : s.document = s.document.replace s.source := (if_pos rfl).symm
  cases o with
  | setSource text => exact ⟨text, rfl⟩
  | select address =>
    exact ⟨_, ((congrArg document (Effect.session_ofAnswer _)).trans
      (document_select s address)).trans hself⟩
  | applyStyle =>
    exact ⟨_, ((congrArg document (Effect.session_ofAnswer _)).trans
      (document_applyStyle s)).trans hself⟩
  | applyHeading heading =>
    exact ⟨_, ((congrArg document (Effect.session_ofAnswer _)).trans
      (document_applyHeading s heading)).trans hself⟩
  | sync =>
    unfold perform
    rcases s.sync_cases with ⟨-, hsync⟩ | ⟨cause, -, hsync⟩ | ⟨outcome, -, hsync⟩
    · rw [hsync]
      exact ⟨_, hself⟩
    · rw [hsync]
      exact ⟨_, hself⟩
    · rw [hsync]
      exact ⟨outcome.source, rfl⟩
  | _ => exact ⟨_, hself⟩

/-- What an operation pushes is the document as it is behind it. -/
theorem pushed_perform {s : Session} {o : Operation} {document : Document}
    (h : (s.perform o).pushed = some document) : document = (s.perform o).session.document := by
  have hnone : ∀ {α : Type} (result : Session × Except SessionError α),
      (Effect.ofAnswer (fun _ => none) result).pushed = none := by
    rintro α ⟨s, cause | answer⟩ <;> rfl
  unfold perform at h ⊢
  cases o with
  | updatePreview => exact (Option.some.inj h).symm
  | select address => rw [hnone] at h; cases h
  | applyStyle => rw [hnone] at h; cases h
  | applyHeading heading => rw [hnone] at h; cases h
  | sync =>
    rcases s.sync_cases with ⟨-, hsync⟩ | ⟨cause, -, hsync⟩ | ⟨outcome, -, hsync⟩
    · rw [hsync] at h
      cases h
    · rw [hsync] at h
      cases h
    · rw [hsync] at h ⊢
      have hpushed : (if s.config.pushOnSync then some (s.written outcome).document else none)
          = some document := h
      split at hpushed
      · exact (Option.some.inj hpushed).symm
      · cases hpushed
  | _ => cases h

/-! ## What an operation does to the buffer -/

/-- The buffer behind something that may have recorded a style edit keeps one edit for each
element. -/
theorem distinct_recordOk {buffer : EditBuffer} (h : EditBuffer.Distinct buffer.pending)
    (result : Except SessionError StyleEdit) :
    EditBuffer.Distinct (recordOk buffer result).pending := by
  cases result with
  | ok edit => exact EditBuffer.distinct_put _ h
  | error cause => exact h

/-- **One operation** keeps one pending edit for each element. -/
theorem distinct_perform {s : Session} (h : EditBuffer.Distinct s.buffer.pending) (o : Operation) :
    EditBuffer.Distinct (s.perform o).session.buffer.pending := by
  cases o with
  | record edit => exact EditBuffer.distinct_put edit h
  | restore edits => exact EditBuffer.distinct_merge edits s.buffer.pending [] h
  | discard => exact EditBuffer.distinct_nil
  | select address =>
    rw [perform, Effect.session_ofAnswer, buffer_select]
    exact h
  | applyStyle =>
    rw [perform, Effect.session_ofAnswer, buffer_applyStyle]
    exact distinct_recordOk h _
  | applyHeading heading =>
    rw [perform, Effect.session_ofAnswer, buffer_applyHeading]
    exact distinct_recordOk h _
  | sync =>
    rw [perform, Effect.session_ofAnswer]
    rcases s.sync_cases with ⟨-, hsync⟩ | ⟨cause, -, hsync⟩ | ⟨outcome, -, hsync⟩
    · rw [hsync]
      exact h
    · rw [hsync, restored_eq h]
      exact h
    · rw [hsync]
      exact EditBuffer.distinct_nil
  | _ => exact h

/-- **A run** keeps one pending edit for each element. -/
theorem distinct_run {s : Session} (h : EditBuffer.Distinct s.buffer.pending)
    (operations : List Operation) : EditBuffer.Distinct (s.run operations).buffer.pending := by
  induction operations generalizing s with
  | nil => exact h
  | cons o rest ih => exact ih (distinct_perform h o)

end Session

end Retouch
