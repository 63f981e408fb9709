import Retouch.Proofs.Edit.Batch

/-!
# Edits that are skipped do nothing

An edit of a batch that cannot be written leaves no trace for the others. The main statement is
`applyBatch_without_skipped`: of the steps of a batch any that skipped their edit can be left out, and the
batch of the other edits takes exactly the other steps. In particular the edits that were applied can
be applied again by themselves, and then none is skipped.
-/

namespace Retouch

variable {dialect : Dialect} {source : Text} {found : List Site}

/-! ## Steps that are left out -/

/-- Whether some steps are steps of a batch with all those that applied their edit among them. -/
structure LeavesOut (kept steps : List BatchStep) : Prop where
  sublist : kept.Sublist steps
  applied : kept.filterMap BatchStep.applied? = steps.filterMap BatchStep.applied?

namespace LeavesOut

variable {edit : PendingEdit} {kept steps : List BatchStep}

/-- The step of a skipped edit can be left out or kept. -/
theorem cons_error {reason : EditError}
    (h : LeavesOut kept (⟨edit, source, .error reason⟩ :: steps)) :
    LeavesOut kept steps ∨
      ∃ others, kept = ⟨edit, source, .error reason⟩ :: others ∧ LeavesOut others steps := by
  rcases List.sublist_cons_iff.1 h.sublist with hsub | ⟨others, rfl, hsub⟩
  · exact .inl ⟨hsub, h.applied⟩
  · exact .inr ⟨others, rfl, hsub, h.applied⟩

/-- The step of an applied edit is kept. -/
theorem cons_ok {next : EditedSource} (h : LeavesOut kept (⟨edit, source, .ok next⟩ :: steps)) :
    ∃ others, kept = ⟨edit, source, .ok next⟩ :: others ∧ LeavesOut others steps := by
  have happlied : kept.filterMap BatchStep.applied? = edit :: steps.filterMap BatchStep.applied? :=
    h.applied
  rcases List.sublist_cons_iff.1 h.sublist with hsub | ⟨others, rfl, hsub⟩
  · have hfewer := (hsub.filterMap BatchStep.applied?).length_le
    rw [happlied, List.length_cons] at hfewer
    omega
  · exact ⟨others, rfl, hsub, (List.cons.inj happlied).2⟩

end LeavesOut

/-- **Leaving out what was skipped.** Steps of which some that skipped their edit are left out are the
steps of the other edits, and end with the same text. -/
theorem exists_sublist_stepsOf (edits : List Anchored) {kept : List BatchStep}
    (h : LeavesOut kept (stepsOf dialect source found edits)) :
    textAfter source kept = textAfter source (stepsOf dialect source found edits) ∧
      ∃ left : List Anchored, left.Sublist edits ∧ stepsOf dialect source found left = kept := by
  fun_induction stepsOf dialect source found edits generalizing kept
  case case1 =>
    obtain rfl := List.sublist_nil.1 h.sublist
    exact ⟨rfl, [], .slnil, by rw [stepsOf]⟩
  case case2 source found a rest reason hattempt ih =>
    rcases h.cons_error with hrest | ⟨others, rfl, hrest⟩
    · obtain ⟨htext, left, hleft, hsteps⟩ := ih hrest
      exact ⟨htext, left, hleft.cons a, hsteps⟩
    · obtain ⟨htext, left, hleft, rfl⟩ := ih hrest
      refine ⟨htext, a :: left, hleft.cons_cons a, ?_⟩
      rw [stepsOf, hattempt]
  case case3 source found a rest next hattempt ih =>
    obtain ⟨others, rfl, hrest⟩ := h.cons_ok
    rw [List.map_attach_eq_pmap, List.pmap_eq_map] at ih
    obtain ⟨htext, moved, hmoved, rfl⟩ := ih hrest
    obtain ⟨left, hleft, rfl⟩ := List.sublist_map_iff.1 hmoved
    refine ⟨htext, a :: left, hleft.cons_cons a, ?_⟩
    rw [stepsOf, hattempt]

/-- The batch of the edits that are left. -/
theorem applyBatch_of_leavesOut (h : sites dialect source = .ok found) {edits : List PendingEdit}
    {kept : List BatchStep}
    (hkept : LeavesOut kept (stepsOf dialect source found (edits.map (Anchored.ofEdit found)))) :
    applyBatch dialect source (kept.map BatchStep.edit)
      = .ok ⟨textAfter source kept, kept.filterMap BatchStep.applied?,
          kept.filterMap BatchStep.skipped?⟩ := by
  obtain ⟨-, left, hleft, rfl⟩ := exists_sublist_stepsOf _ hkept
  obtain ⟨others, -, rfl⟩ := List.sublist_map_iff.1 hleft
  have hedits : (others.map (Anchored.ofEdit found)).map Anchored.edit = others := by
    rw [List.map_map]
    exact List.map_id others
  refine applyBatch_eq_ok_iff.2 ⟨found, h, ?_⟩
  rw [map_edit_stepsOf, hedits, applyAnchored_eq]

/-- The steps that applied their edits, by themselves: they skipped none, and leave out only steps
that did. -/
theorem leavesOut_filter (steps : List BatchStep) :
    let kept := steps.filter fun step => step.applied?.isSome
    LeavesOut kept steps ∧ kept.map BatchStep.edit = steps.filterMap BatchStep.applied? ∧
      kept.filterMap BatchStep.skipped? = [] := by
  induction steps with
  | nil => exact ⟨⟨.slnil, rfl⟩, rfl, rfl⟩
  | cons step steps ih =>
    obtain ⟨edit, before, result⟩ := step
    obtain ⟨⟨hsub, happlied⟩, hedits, hskipped⟩ := ih
    cases result with
    | error reason => exact ⟨⟨hsub.cons _, happlied⟩, hedits, hskipped⟩
    | ok next =>
      exact ⟨⟨hsub.cons_cons _, congrArg (edit :: ·) happlied⟩, congrArg (edit :: ·) hedits, hskipped⟩

/-! ## Whole batches -/

/-- **Skipped edits are inert.** A batch takes one step for each edit, which applies it or skips it.
Leave out the edits of any steps that skipped theirs: the batch of the others ends with the same text,
applies the same edits, and skips those of the others that were skipped before, for the same reasons.
In particular the edits that were applied are all applied again by themselves. -/
theorem applyBatch_without_skipped (h : sites dialect source = .ok found) (edits : List PendingEdit) :
    ∃ outcome steps, applyBatch dialect source edits = .ok outcome ∧
      steps.map BatchStep.edit = edits ∧
      outcome.applied = steps.filterMap BatchStep.applied? ∧
      outcome.skipped = steps.filterMap BatchStep.skipped? ∧
      (∀ kept : List BatchStep, kept.Sublist steps →
        kept.filterMap BatchStep.applied? = outcome.applied →
          applyBatch dialect source (kept.map BatchStep.edit)
            = .ok ⟨outcome.source, outcome.applied, kept.filterMap BatchStep.skipped?⟩) ∧
      applyBatch dialect source outcome.applied = .ok ⟨outcome.source, outcome.applied, []⟩ := by
  have hbatch : applyBatch dialect source edits
      = .ok (applyAnchored dialect source found (edits.map (Anchored.ofEdit found))) := by
    rw [applyBatch, h]
  have hedits : (stepsOf dialect source found (edits.map (Anchored.ofEdit found))).map BatchStep.edit
      = edits := by
    rw [map_edit_stepsOf, List.map_map]
    exact List.map_id edits
  generalize hsteps : stepsOf dialect source found (edits.map (Anchored.ofEdit found)) = steps at hedits
  have hkept : ∀ kept : List BatchStep, LeavesOut kept steps →
      applyBatch dialect source (kept.map BatchStep.edit)
        = .ok ⟨textAfter source steps, steps.filterMap BatchStep.applied?,
            kept.filterMap BatchStep.skipped?⟩ := by
    rintro kept hkept
    rw [← hsteps] at hkept
    rw [applyBatch_of_leavesOut h hkept, (exists_sublist_stepsOf _ hkept).1, hkept.applied, hsteps]
  rw [applyAnchored_eq, hsteps] at hbatch
  refine ⟨_, steps, hbatch, hedits, rfl, rfl, fun kept hsub happlied => hkept kept ⟨hsub, happlied⟩, ?_⟩
  obtain ⟨hleaves, hfilter, hnone⟩ := leavesOut_filter steps
  have hagain := hkept _ hleaves
  rwa [hfilter, hnone] at hagain

/-- Of three edits the first takes the element of the second away. -/
theorem applyBatch_without_skipped_nested :
    ∃ found, sites .tsx "<div><p>a</p></div>".toList = .ok found ∧
      ∃ outcome steps,
        applyBatch .tsx "<div><p>a</p></div>".toList
            [.text ⟨.of "div".toList 0, "b".toList⟩, .text ⟨.of "p".toList 0, "c".toList⟩,
              .text ⟨.of "div".toList 0, "d".toList⟩] = .ok outcome ∧
        steps.map BatchStep.edit
          = [.text ⟨.of "div".toList 0, "b".toList⟩, .text ⟨.of "p".toList 0, "c".toList⟩,
              .text ⟨.of "div".toList 0, "d".toList⟩] ∧
        outcome.applied = steps.filterMap BatchStep.applied? ∧
        outcome.skipped = steps.filterMap BatchStep.skipped? ∧
        (∀ kept : List BatchStep, kept.Sublist steps →
          kept.filterMap BatchStep.applied? = outcome.applied →
            applyBatch .tsx "<div><p>a</p></div>".toList (kept.map BatchStep.edit)
              = .ok ⟨outcome.source, outcome.applied, kept.filterMap BatchStep.skipped?⟩) ∧
        applyBatch .tsx "<div><p>a</p></div>".toList outcome.applied
          = .ok ⟨outcome.source, outcome.applied, []⟩ :=
  ⟨_, rfl, applyBatch_without_skipped rfl _⟩

end Retouch
