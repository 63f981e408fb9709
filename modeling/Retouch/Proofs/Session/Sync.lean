import Retouch.Proofs.Edit.Batch
import Retouch.Proofs.Edit.Pending
import Retouch.Session.Basic

/-!
# What a sync does

A sync has three ends: nothing waits, the source cannot be read, or the edits that wait are written
as a batch. `Session.sync_cases` says all that each of them does. A sync that fails puts the edits
back as they were (`EditBuffer.restore_empty`), and one that succeeds reports each of them once
(`perm_of_applyBatch`).
-/

namespace Retouch

/-! ## Reports -/

/-- The applied and the skipped edits of some steps are the edits of the steps. -/
theorem perm_steps (steps : List BatchStep) :
    (steps.filterMap BatchStep.applied?
      ++ (steps.filterMap BatchStep.skipped?).map SkippedEdit.edit).Perm
        (steps.map BatchStep.edit) := by
  induction steps with
  | nil => exact .nil
  | cons step steps ih =>
    obtain ⟨edit, before, result⟩ := step
    cases result with
    | ok next => exact ih.cons edit
    | error reason => exact List.perm_middle.trans (ih.cons edit)

/-- **A batch reports each edit once.** -/
theorem perm_of_applyBatch {dialect : Dialect} {source : Text} {edits : List PendingEdit}
    {outcome : BatchOutcome} (h : applyBatch dialect source edits = .ok outcome) :
    (outcome.applied ++ outcome.skipped.map SkippedEdit.edit).Perm edits := by
  obtain ⟨found, -, rfl⟩ := applyBatch_eq_ok_iff.1 h
  rw [applyAnchored_eq]
  refine (perm_steps _).trans ?_
  rw [map_edit_stepsOf, List.map_map]
  exact List.Perm.of_eq (List.map_id edits)

namespace Session

/-- The session behind a sync that has written a batch. -/
def written (s : Session) (outcome : BatchOutcome) : Session :=
  { s with document := s.document.replace outcome.source, buffer := .empty, selection := none }

/-- The report of a sync that has written a batch. -/
def reportOf (s : Session) (outcome : BatchOutcome) : SyncReport where
  revision := (s.written outcome).document.revision
  applied := outcome.applied
  skipped := outcome.skipped
  pushed := if s.config.pushOnSync then some (s.written outcome).document else none

/-- The session behind a sync that could not read the source. -/
def restored (s : Session) : Session :=
  { s with buffer := EditBuffer.empty.restore s.buffer.pending }

/-- A sync that cannot read the source changes nothing. -/
theorem restored_eq {s : Session} (h : EditBuffer.Distinct s.buffer.pending) : s.restored = s := by
  rw [restored, EditBuffer.restore_empty h]

/-- **The three ends of a sync.** -/
theorem sync_cases (s : Session) :
    (s.buffer.pending = [] ∧ s.sync = (s, .error .nothingToSync)) ∨
    (∃ cause, applyBatch s.config.dialect s.source s.buffer.pending = .error cause ∧
      s.sync = (s.restored, .error (.edit cause))) ∨
    ∃ outcome, applyBatch s.config.dialect s.source s.buffer.pending = .ok outcome ∧
      s.sync = (s.written outcome, .ok (s.reportOf outcome)) := by
  by_cases hempty : s.buffer.isEmpty = true
  · left
    refine ⟨List.isEmpty_iff.1 hempty, ?_⟩
    rw [sync, if_pos hempty]
  · right
    have hsource : s.document.text = s.source := rfl
    rw [sync, if_neg hempty]
    unfold Document.applyBatch
    dsimp only
    rw [hsource]
    cases hbatch : applyBatch s.config.dialect s.source s.buffer.pending with
    | error cause =>
      left
      exact ⟨cause, rfl, rfl⟩
    | ok outcome =>
      right
      exact ⟨outcome, rfl, rfl⟩

/-- A sync that succeeds has written a batch. -/
theorem batch_of_sync {s : Session} {report : SyncReport} (h : s.sync.2 = .ok report) :
    ∃ outcome, applyBatch s.config.dialect s.source s.buffer.pending = .ok outcome ∧
      report = s.reportOf outcome ∧ s.sync.1 = s.written outcome := by
  rcases s.sync_cases with ⟨-, hsync⟩ | ⟨cause, -, hsync⟩ | ⟨outcome, hbatch, hsync⟩
  · rw [hsync] at h
    cases h
  · rw [hsync] at h
    cases h
  · rw [hsync] at h ⊢
    exact ⟨outcome, hbatch, (Except.ok.inj h).symm, rfl⟩

/-- **A sync that succeeds reports each edit that waited once, and none waits behind it.** -/
theorem perm_of_sync {s : Session} {report : SyncReport} (h : s.sync.2 = .ok report) :
    (report.applied ++ report.skipped.map SkippedEdit.edit).Perm s.buffer.pending ∧
      s.sync.1.buffer = .empty := by
  obtain ⟨outcome, hbatch, rfl, hwritten⟩ := batch_of_sync h
  exact ⟨perm_of_applyBatch hbatch, by rw [hwritten]; rfl⟩

/-! ## What the controls and a choice do -/

/-- The edits that wait after something that may have recorded a style edit. -/
def recordOk (buffer : EditBuffer) : Except SessionError StyleEdit → EditBuffer
  | .ok edit => buffer.record (.style edit)
  | .error _ => buffer

/-- The style controls record an edit at most. -/
theorem applyStyle_fst (s : Session) :
    s.applyStyle.1 = { s with buffer := recordOk s.buffer s.applyStyle.2 } := by
  unfold applyStyle
  split
  · rfl
  · dsimp only
    split
    · rfl
    · rfl

/-- A heading records an edit and sets the controls at most. -/
theorem applyHeading_fst (s : Session) (heading : Heading) : (s.applyHeading heading).1
    = { s with
        buffer := recordOk s.buffer (s.applyHeading heading).2
        controls := (s.applyHeading heading).1.controls } := by
  unfold applyHeading
  split
  · rfl
  · rfl

/-- A choice sets the selection at most. -/
theorem exists_select_fst (s : Session) (address : Address) :
    ∃ selection, (s.select address).1 = { s with selection := selection } := by
  unfold select
  split
  · exact ⟨s.selection, rfl⟩
  · split
    · exact ⟨some address, rfl⟩
    · exact ⟨s.selection, rfl⟩

@[simp] theorem document_select (s : Session) (address : Address) :
    (s.select address).1.document = s.document := by
  obtain ⟨selection, hselect⟩ := exists_select_fst s address
  rw [hselect]

@[simp] theorem document_applyStyle (s : Session) : s.applyStyle.1.document = s.document := by
  rw [applyStyle_fst]

@[simp] theorem document_applyHeading (s : Session) (heading : Heading) :
    (s.applyHeading heading).1.document = s.document := by
  rw [applyHeading_fst]

theorem buffer_select (s : Session) (address : Address) :
    (s.select address).1.buffer = s.buffer := by
  obtain ⟨selection, hselect⟩ := exists_select_fst s address
  rw [hselect]

theorem buffer_applyStyle (s : Session) :
    s.applyStyle.1.buffer = recordOk s.buffer s.applyStyle.2 := by
  rw [applyStyle_fst]

theorem buffer_applyHeading (s : Session) (heading : Heading) :
    (s.applyHeading heading).1.buffer = recordOk s.buffer (s.applyHeading heading).2 := by
  rw [applyHeading_fst]

end Session

end Retouch
