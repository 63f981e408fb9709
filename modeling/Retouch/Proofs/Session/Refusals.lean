import Retouch.Proofs.Session.Run

/-!
# Refused operations

A session refuses some operations: `Session.Refuses` says which, when and with which error. The main
statement is `perform_of_failure`: in every session that some run leads to, an operation fails exactly
if it is refused, and what fails changes nothing and pushes nothing.

A sync that cannot read the source is the only one that has to put something back. The edits it took
out of the buffer come back as they were because no two of them are of one element (`distinct_run`).
-/

namespace Retouch

namespace Session

/-- The operations that a session refuses, each with its error. -/
inductive Refuses (s : Session) : Operation → SessionError → Prop where
  /-- No edit waits. -/
  | nothingToSync : s.buffer.pending = [] → Refuses s .sync .nothingToSync
  /-- Edits wait, but the source cannot be read. -/
  | unreadable {cause : ParseError} : s.buffer.pending ≠ [] →
      sites s.config.dialect s.source = .error cause → Refuses s .sync (.edit (.unreadable cause))
  /-- The elements of a source that cannot be read are unknown. -/
  | unknown {address : Address} {cause : ParseError} :
      sites s.config.dialect s.source = .error cause →
      Refuses s (.select address) (.edit (.unreadable cause))
  /-- No element has the address. -/
  | missing {address : Address} {found : List Site} : sites s.config.dialect s.source = .ok found →
      address ∉ found.map Site.address → Refuses s (.select address) (.edit (.notFound address))
  /-- Nothing is selected that could get the style. -/
  | unstyled : s.selection = none → Refuses s .applyStyle .noSelection
  /-- The font size is none, even moved into the range of those that are applied. -/
  | unusable {address : Address} : s.selection = some address →
      StyleEdit.isUsableSize (Controls.limitFontSize s.controls.fontSize) = false →
      Refuses s .applyStyle
        (.edit (.invalidStyle (.unusableFontSize (Controls.limitFontSize s.controls.fontSize))))
  /-- Nothing is selected that could become a heading. -/
  | unnamed {heading : Heading} : s.selection = none → Refuses s (.applyHeading heading) .noSelection

/-! ## Batches that cannot be written -/

/-- A batch fails only if the source cannot be read. -/
theorem applyBatch_eq_error_iff {dialect : Dialect} {source : Text} {edits : List PendingEdit}
    {error : EditError} : applyBatch dialect source edits = .error error ↔
      ∃ cause, sites dialect source = .error cause ∧ error = .unreadable cause := by
  unfold applyBatch
  cases sites dialect source with
  | error cause =>
    constructor
    · intro h
      exact ⟨cause, rfl, (Except.error.inj h).symm⟩
    · rintro ⟨_, hcause, rfl⟩
      rw [Except.error.inj hcause]
  | ok found =>
    constructor
    · intro h
      cases h
    · rintro ⟨_, hcause, -⟩
      cases hcause

/-! ## What is refused fails and changes nothing -/

/-- An operation that is refused fails with its error, changes nothing and pushes nothing. -/
theorem Refuses.perform {s : Session} {o : Operation} {error : SessionError} (h : s.Refuses o error)
    (hdistinct : EditBuffer.Distinct s.buffer.pending) : s.perform o = ⟨s, some error, none⟩ := by
  cases h with
  | nothingToSync hnone =>
    rw [Session.perform, sync, if_pos (by simp [EditBuffer.isEmpty, hnone])]
    rfl
  | unreadable hsome hcause =>
    have hbatch : applyBatch s.config.dialect s.source s.buffer.pending = .error _ :=
      applyBatch_eq_error_iff.2 ⟨_, hcause, rfl⟩
    rcases s.sync_cases with ⟨hnone, -⟩ | ⟨cause, hfailed, hsync⟩ | ⟨outcome, hwritten, -⟩
    · exact absurd hnone hsome
    · rw [Session.perform, hsync, restored_eq hdistinct, Except.error.inj (hfailed.symm.trans hbatch)]
      rfl
    · rw [hbatch] at hwritten
      cases hwritten
  | unknown hcause =>
    rw [Session.perform, select, addresses, Retouch.addresses, hcause]
    rfl
  | missing hfound hmissing =>
    rw [Session.perform, select, addresses, Retouch.addresses, hfound]
    dsimp only [Except.map, Except.mapError]
    rw [if_neg hmissing]
    rfl
  | unstyled hnone =>
    rw [Session.perform, applyStyle, hnone]
    rfl
  | unusable hselected hsize =>
    rw [Session.perform, applyStyle, hselected]
    dsimp only
    rw [StyleEdit.expression, Controls.edit, if_neg (by simpa using hsize)]
    rfl
  | unnamed hnone =>
    rw [Session.perform, applyHeading, hnone]
    rfl

/-! ## What fails is refused -/

/-- A sync fails only if it is refused. -/
theorem refuses_of_failed_sync {s : Session} {error : SessionError} (h : s.sync.2 = .error error) :
    s.Refuses .sync error := by
  by_cases hnone : s.buffer.pending = []
  · rw [sync, if_pos (by simp [EditBuffer.isEmpty, hnone])] at h
    obtain rfl := Except.error.inj h
    exact .nothingToSync hnone
  · rcases s.sync_cases with ⟨hnone', -⟩ | ⟨cause, hbatch, hsync⟩ | ⟨outcome, -, hsync⟩
    · exact absurd hnone' hnone
    · obtain ⟨cause, hcause, rfl⟩ := applyBatch_eq_error_iff.1 hbatch
      rw [hsync] at h
      obtain rfl := Except.error.inj h
      exact .unreadable hnone hcause
    · rw [hsync] at h
      cases h

/-- A choice of an element fails only if it is refused. -/
theorem refuses_of_failed_select {s : Session} {address : Address} {error : SessionError}
    (h : (s.select address).2 = .error error) : s.Refuses (.select address) error := by
  unfold select addresses Retouch.addresses at h
  cases hsites : sites s.config.dialect s.source with
  | error cause =>
    rw [hsites] at h
    obtain rfl := Except.error.inj h
    exact .unknown hsites
  | ok found =>
    rw [hsites] at h
    dsimp only [Except.map, Except.mapError] at h
    by_cases hmem : address ∈ found.map Site.address
    · rw [if_pos hmem] at h
      cases h
    · rw [if_neg hmem] at h
      obtain rfl := Except.error.inj h
      exact .missing hsites hmem

/-- The style controls are not applied only if that is refused. -/
theorem refuses_of_failed_applyStyle {s : Session} {error : SessionError}
    (h : s.applyStyle.2 = .error error) : s.Refuses .applyStyle error := by
  unfold applyStyle at h
  cases hselection : s.selection with
  | none =>
    rw [hselection] at h
    obtain rfl := Except.error.inj h
    exact .unstyled hselection
  | some address =>
    rw [hselection] at h
    dsimp only [StyleEdit.expression] at h
    cases husable : StyleEdit.isUsableSize (s.controls.edit address none).fontSize with
    | true =>
      rw [if_pos husable] at h
      cases h
    | false =>
      rw [if_neg (by rw [husable]; exact Bool.false_ne_true)] at h
      obtain rfl := Except.error.inj h
      exact .unusable hselection husable

/-- A heading is not made only if that is refused. -/
theorem refuses_of_failed_applyHeading {s : Session} {heading : Heading} {error : SessionError}
    (h : (s.applyHeading heading).2 = .error error) : s.Refuses (.applyHeading heading) error := by
  unfold applyHeading at h
  cases hselection : s.selection with
  | none =>
    rw [hselection] at h
    obtain rfl := Except.error.inj h
    exact .unnamed hselection
  | some address =>
    rw [hselection] at h
    cases h

/-- An operation fails only if it is refused. -/
theorem refuses_of_failure {s : Session} {o : Operation} {error : SessionError}
    (h : (s.perform o).failure = some error) : s.Refuses o error := by
  cases o with
  | select address => exact refuses_of_failed_select (Effect.answer_of_failure h)
  | applyStyle => exact refuses_of_failed_applyStyle (Effect.answer_of_failure h)
  | applyHeading heading => exact refuses_of_failed_applyHeading (Effect.answer_of_failure h)
  | sync => exact refuses_of_failed_sync (Effect.answer_of_failure h)
  | _ => cases h

/-! ## Every failure, in every session -/

/-- **What fails changes nothing.** Whatever was done with a session before, an operation fails
exactly if it is refused. The session is as it was then, with its document, the edits that wait, its
selection and its style controls, and nothing is pushed. -/
theorem perform_of_failure (config : Config) (before : List Operation) (o : Operation)
    (error : SessionError) :
    ((((start config).run before).perform o).failure = some error ↔
        ((start config).run before).Refuses o error) ∧
      ((((start config).run before).perform o).failure = some error →
        ((start config).run before).perform o = ⟨(start config).run before, some error, none⟩) := by
  have hdistinct := distinct_run (s := start config) EditBuffer.distinct_nil before
  have hfails : ((start config).run before).Refuses o error →
      ((start config).run before).perform o = ⟨(start config).run before, some error, none⟩ :=
    fun hrefused => hrefused.perform hdistinct
  constructor
  · constructor
    · exact refuses_of_failure
    · intro hrefused
      rw [hfails hrefused]
  · intro hfailure
    exact hfails (refuses_of_failure hfailure)

/-- Two edits wait when the source is found to be unreadable, the first one recorded twice. Both go on
waiting, in their order. -/
theorem perform_of_failure_unreadable :
    let edit (tag text : String) : PendingEdit := .text ⟨.of tag.toList 0, text.toList⟩
    let s := (start ⟨.tsx, "<p>x</p>".toList, true⟩).run
      [.record (edit "p" "a"), .record (edit "i" "b"), .record (edit "p" "c"),
        .setSource "<p>x".toList]
    ∃ error, (s.perform .sync).failure = some error ∧ s.perform .sync = ⟨s, some error, none⟩ ∧
      s.buffer.pending = [edit "p" "c", edit "i" "b"] ∧ s.document = ⟨"<p>x".toList, 1⟩ := by
  intro edit s
  have hfails : (s.perform .sync).failure.isSome = true := by decide +kernel
  obtain ⟨error, herror⟩ := Option.isSome_iff_exists.1 hfails
  exact ⟨error, herror, (perform_of_failure _ _ _ _).2 herror, rfl, rfl⟩

end Session

end Retouch
