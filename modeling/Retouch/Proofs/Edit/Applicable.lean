import Retouch.Proofs.Edit.Batch
import Retouch.Proofs.Edit.Element
import Retouch.Proofs.Patch.Splices

/-!
# Patches can always be applied

The patches that write an edit into an element are never refused: they have ranges of the source, and no
two of them overlap (`fits_patches`). So an edit fails only if the element is not there, if its style
or its tag cannot be written, or if what it makes of the source cannot be read. For batches this has to be
seen step by step, since every edit is written into what the edits before it have made:
`result_stepsOf_ne_unpatchable` goes along `stepsOf`.
-/

namespace Retouch

open Text

/-- A place of a text is not behind its end. -/
theorem Text.le_of_isBoundary {t : Text} {n : Nat} (h : isBoundary t n = true) : n ≤ byteLength t := by
  obtain ⟨left, right, rfl, rfl⟩ := isBoundary_iff.1 h
  rw [byteLength_append]
  exact Nat.le_add_right _ _

section Sites

variable {dialect : Dialect} {source : Text} {found : List Site} {site : Site} {edit : PendingEdit}

/-- **The patches of an edit can be applied.** They have ranges of the source and stand apart. -/
theorem fits_patches (h : sites dialect source = .ok found) (hsite : site ∈ found) {own : List Patch}
    (hown : site.patches source edit = .ok own) :
    (∀ p ∈ own, p.Fits source) ∧ own.Pairwise Patch.Apart ∧
      ∃ output, Patch.applyAll source own = .ok output := by
  have hinside := inside_patches (placed_of_sites h hsite) (exists_append_anchor h hsite) hown
  exact ⟨fun p hp => ⟨hinside.forward p hp, le_of_isBoundary (hinside.boundary p hp).2,
    hinside.boundary p hp⟩, hinside.apart,
    Patch.exists_applyAll hinside.apart hinside.forward hinside.boundary⟩

/-- An edit has no patches only because of its style or its tag. -/
theorem patches_error {reason : EditError} (h : site.patches source edit = .error reason) :
    (∃ cause, reason = .invalidStyle cause) ∨ ∃ name, reason = .invalidTag name := by
  cases edit with
  | text edit => cases h
  | style edit =>
    unfold Site.patches at h
    dsimp only at h
    split at h
    · next cause _ => exact .inl ⟨cause, (Except.error.inj h).symm⟩
    · split at h
      · next name _ => exact .inr ⟨name, (Except.error.inj h).symm⟩
      · cases h

/-- **At a site no edit is refused for its patches.** -/
theorem applyAt_ne_unpatchable (h : sites dialect source = .ok found) (hsite : site ∈ found)
    (cause : PatchError) : applyAt dialect source site edit ≠ .error (.unpatchable cause) := by
  intro hrefused
  unfold applyAt at hrefused
  split at hrefused
  · next reason hreason =>
    obtain rfl := Except.error.inj hrefused
    rcases patches_error hreason with ⟨_, hstyle⟩ | ⟨_, htag⟩
    · cases hstyle
    · cases htag
  · next own hown =>
    obtain ⟨-, -, output, houtput⟩ := fits_patches h hsite hown
    rw [houtput] at hrefused
    dsimp only at hrefused
    split at hrefused <;> cases hrefused

theorem applyEdit_ne_unpatchable (edit : PendingEdit) (cause : PatchError) :
    applyEdit dialect source edit ≠ .error (.unpatchable cause) := by
  intro hrefused
  unfold applyEdit at hrefused
  split at hrefused
  · cases hrefused
  · next found h =>
    split at hrefused
    · cases hrefused
    · next site hsite =>
      have hat : applyAt dialect source site edit ≠ .error (.unpatchable cause) :=
        applyAt_ne_unpatchable h (List.mem_of_find?_eq_some hsite) cause
      cases hmade : applyAt dialect source site edit with
      | error reason =>
        rw [hmade] at hrefused hat
        exact hat (congrArg _ (Except.error.inj hrefused))
      | ok next =>
        rw [hmade] at hrefused
        cases hrefused

/-! ## Batches -/

/-- An anchored edit is not refused for its patches. -/
theorem attempt_ne_unpatchable (h : sites dialect source = .ok found) (a : Anchored)
    (cause : PatchError) : a.attempt dialect source found ≠ .error (.unpatchable cause) := by
  unfold Anchored.attempt
  split
  · intro hrefused
    cases hrefused
  · next site hsite =>
    obtain ⟨start, -, hfound⟩ := Option.bind_eq_some_iff.1 hsite
    exact applyAt_ne_unpatchable h (List.mem_of_find?_eq_some hfound) cause

/-- No step of a batch is refused for its patches. -/
theorem result_stepsOf_ne_unpatchable (h : sites dialect source = .ok found) (edits : List Anchored)
    (cause : PatchError) :
    ∀ step ∈ stepsOf dialect source found edits, step.result ≠ .error (.unpatchable cause) := by
  fun_induction stepsOf dialect source found edits
  case case1 => simp
  case case2 source found a rest reason hattempt ih =>
    refine List.forall_mem_cons.2 ⟨?_, ih h⟩
    exact hattempt ▸ attempt_ne_unpatchable h a cause
  case case3 source found a rest next hattempt ih =>
    rw [List.map_attach_eq_pmap, List.pmap_eq_map] at ih
    refine List.forall_mem_cons.2 ⟨?_, ih (sites_of_attempt hattempt).1⟩
    intro hrefused
    cases hrefused

/-- **A batch skips no edit for its patches.** -/
theorem reason_ne_unpatchable {edits : List PendingEdit} {outcome : BatchOutcome}
    (h : applyBatch dialect source edits = .ok outcome) {skipped : SkippedEdit}
    (hskipped : skipped ∈ outcome.skipped) (cause : PatchError) : skipped.reason ≠ .unpatchable cause := by
  obtain ⟨found, hfound, rfl⟩ := applyBatch_eq_ok_iff.1 h
  rw [applyAnchored_eq] at hskipped
  obtain ⟨step, hstep, hskips⟩ := List.mem_filterMap.1 hskipped
  have hstands := result_stepsOf_ne_unpatchable hfound _ cause step hstep
  unfold BatchStep.skipped? at hskips
  split at hskips
  · cases hskips
  · next reason hreason =>
    obtain rfl := Option.some.inj hskips
    rw [hreason] at hstands
    exact fun heq => hstands (congrArg _ heq)

end Sites

/-- **No edit is refused for its patches.** Whatever source is read, the patches with which an edit is
written into one of its elements have ranges of the source that begin and end between characters, and
stand apart, so that they can be applied. No edit by itself and no edit of a batch fails because they
cannot. -/
theorem patches_applicable (dialect : Dialect) (source : Text) :
    (∀ found, sites dialect source = .ok found → ∀ site ∈ found, ∀ edit own,
      site.patches source edit = .ok own → (∀ p ∈ own, p.Fits source) ∧ own.Pairwise Patch.Apart ∧
        ∃ output, Patch.applyAll source own = .ok output) ∧
    (∀ edit cause, applyEdit dialect source edit ≠ .error (.unpatchable cause)) ∧
    (∀ edits cause, applyBatch dialect source edits ≠ .error (.unpatchable cause)) ∧
    ∀ edits outcome, applyBatch dialect source edits = .ok outcome →
      ∀ skipped ∈ outcome.skipped, ∀ cause, skipped.reason ≠ .unpatchable cause := by
  refine ⟨fun found h site hsite edit own hown => fits_patches h hsite hown, applyEdit_ne_unpatchable,
    fun edits cause => ?_, fun edits outcome h skipped hskipped => reason_ne_unpatchable h hskipped⟩
  unfold applyBatch
  split <;> intro hrefused <;> cases hrefused

/-- A self-closing element with a wide blank behind its attribute: the patch that gives it a text begins
before the blank. -/
theorem patches_applicable_blank :
    let source := "<p a=\"b\"\u3000/>".toList
    ∃ found, sites .tsx source = .ok found ∧ ∃ site ∈ found, ∃ own,
      site.patches source (.text ⟨.of "p".toList 0, "c".toList⟩) = .ok own ∧
      own = [⟨8, 13, ">c</p>".toList⟩] ∧ ∃ output, Patch.applyAll source own = .ok output := by
  intro source
  let site : Site := ⟨.of "p".toList 0, "p".toList,
    ⟨some "p".toList, ⟨0, 13⟩, ⟨0, 13⟩, ⟨1, 2⟩, none, none, 8⟩, [], true⟩
  have hfound : sites .tsx source = .ok [site] := by decide +kernel
  have hown : site.patches source (.text ⟨.of "p".toList 0, "c".toList⟩)
      = .ok [⟨8, 13, ">c</p>".toList⟩] := mem_toOption.1 (by decide +kernel)
  exact ⟨_, hfound, site, List.mem_cons_self, _, hown, rfl,
    ((patches_applicable .tsx source).1 _ hfound site List.mem_cons_self _ _ hown).2.2⟩

end Retouch
