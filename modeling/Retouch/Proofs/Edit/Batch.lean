import Retouch.Edit.Apply
import Retouch.Proofs.Patch.Origins
import Retouch.Proofs.Site.Identity

/-!
# Every edit of a batch follows its element

A batch is written edit by edit, and each edit finds its element by the offset where that began in
the first text, followed through the patches made since. The main statement is
`exists_batchRun`: a batch is a chain of single edits. Each of them is what `applyEdit` does with
the address that the element has by then, or it is skipped because the element's first byte is gone.

* `BatchStep` - what became of one edit: the text it met and what it made of it.
* `BatchStep.carry` - where a byte of that text is afterwards, byte by byte (`Patch.image`).
* `BatchStep.Follows` - what one step has to do, given where its element begins.
* `BatchRun` - what a whole batch has to do.

`BatchRun` speaks of bytes, `applyBatch` of offsets that are summed up in 64-bit words. The two agree
as long as texts are short enough to have such offsets (`follow_eq_carry`).
-/

namespace Retouch

open Text

theorem mem_toOption {ε α : Type} {result : Except ε α} {a : α} :
    a ∈ result.toOption ↔ result = .ok a := by
  cases result <;> simp [Except.toOption]

/-! ## Steps -/

/-- The edit of another element. -/
def PendingEdit.at (edit : PendingEdit) (address : Address) : PendingEdit :=
  match edit with
  | .text edit => .text { edit with address := address }
  | .style edit => .style { edit with address := address }

/-- One edit of a batch: the text that it met, and what it made of that or why it could not. -/
structure BatchStep where
  edit : PendingEdit
  before : Text
  result : Except EditError EditedSource

namespace BatchStep

/-- The text behind a step. An edit that fails changes nothing. -/
def after (step : BatchStep) : Text :=
  match step.result with
  | .ok next => next.source
  | .error _ => step.before

/-- The edit, if it was written. -/
def applied? (step : BatchStep) : Option PendingEdit :=
  match step.result with
  | .ok _ => some step.edit
  | .error _ => none

/-- The edit with the reason, if it was not written. -/
def skipped? (step : BatchStep) : Option SkippedEdit :=
  match step.result with
  | .ok _ => none
  | .error reason => some ⟨step.edit, reason⟩

/-- Where the byte at an offset is behind a step, none if the step has replaced it. -/
def carry (step : BatchStep) (offset : Nat) : Option Nat :=
  match step.result with
  | .ok next => Patch.image step.before next.patches offset
  | .error _ => some offset

/-- What a step has to do if its element begins at `origin` by now. At a site that begins there the
edit is made as it is made alone, with the address of that site; without such a site it fails. -/
structure Follows (dialect : Dialect) (step : BatchStep) (origin : Option Nat) : Prop where
  atSite : ∀ found site, sites dialect step.before = .ok found → site ∈ found →
    origin = some site.anchor →
      step.result.map EditedSource.source
          = applyEdit dialect step.before (step.edit.at site.address) ∧
        ∀ next, step.result = .ok next →
          site.patches step.before (step.edit.at site.address) = .ok next.patches
  nowhere : ∀ found, sites dialect step.before = .ok found →
    (∀ site ∈ found, origin ≠ some site.anchor) → step.result = .error (.notFound step.edit.address)

end BatchStep

/-- The text behind some steps that begin with `source`. -/
def textAfter (source : Text) (steps : List BatchStep) : Text :=
  steps.foldl (fun _ step => step.after) source

/-- Where a byte is behind some steps, if it was anywhere and is still there. -/
def carried (origin : Option Nat) (steps : List BatchStep) : Option Nat :=
  steps.foldl (fun at_ step => at_.bind step.carry) origin

/-- What the steps of a batch have to be. The sites of the first text are `found`. -/
structure BatchRun (dialect : Dialect) (source : Text) (found : List Site)
    (edits : List PendingEdit) (outcome : BatchOutcome) (steps : List BatchStep) : Prop where
  /-- There is one step for each edit, in order. -/
  edits : steps.map BatchStep.edit = edits
  /-- The steps are a chain. -/
  linked : ∀ earlier step later, steps = earlier ++ step :: later →
    step.before = textAfter source earlier
  /-- Every text of the chain can be read. -/
  readable : ∀ earlier later, steps = earlier ++ later →
    ∃ now, sites dialect (textAfter source earlier) = .ok now
  /-- Each step is made where its element is by then. -/
  follows : ∀ earlier step later, steps = earlier ++ step :: later →
    (∀ s ∈ earlier, byteLength s.after ≤ Patch.offsetLimit) →
      step.Follows dialect (carried ((findSite found step.edit.address).map Site.anchor) earlier)
  source : outcome.source = textAfter source steps
  applied : outcome.applied = steps.filterMap BatchStep.applied?
  skipped : outcome.skipped = steps.filterMap BatchStep.skipped?

/-! ## The steps that are taken -/

/-- What becomes of an anchored edit in a source whose sites are `found`. -/
def Anchored.attempt (dialect : Dialect) (source : Text) (found : List Site) (a : Anchored) :
    Except EditError EditedSource :=
  match a.site? found with
  | none => .error (.notFound a.edit.address)
  | some site => applyAt dialect source site a.edit

/-- The steps that `applyAnchored` takes. -/
def stepsOf (dialect : Dialect) (source : Text) (found : List Site) :
    List Anchored → List BatchStep
  | [] => []
  | a :: rest =>
    match a.attempt dialect source found with
    | .error reason => ⟨a.edit, source, .error reason⟩ :: stepsOf dialect source found rest
    | .ok next =>
      ⟨a.edit, source, .ok next⟩
        :: stepsOf dialect next.source next.sites (rest.map (Anchored.follow next.patches))
termination_by edits => edits.length

section Steps

variable {dialect : Dialect} {source : Text} {found : List Site}

/-- What an edit makes of a source can be read, and has the sites that are found in it. -/
theorem sites_of_applyAt {site : Site} {edit : PendingEdit} {next : EditedSource}
    (h : applyAt dialect source site edit = .ok next) :
    sites dialect next.source = .ok next.sites ∧
      Patch.applyAll source next.patches = .ok next.source ∧
        site.patches source edit = .ok next.patches := by
  unfold applyAt at h
  split at h
  · cases h
  · rename_i patches hpatches
    split at h
    · cases h
    · rename_i output houtput
      split at h
      · cases h
      · rename_i now hnow
        obtain rfl := Except.ok.inj h
        exact ⟨hnow, houtput, hpatches⟩

theorem sites_of_attempt {a : Anchored} {next : EditedSource}
    (h : a.attempt dialect source found = .ok next) :
    sites dialect next.source = .ok next.sites ∧
      Patch.applyAll source next.patches = .ok next.source := by
  unfold Anchored.attempt at h
  split at h
  · cases h
  · have hnext := sites_of_applyAt h
    exact ⟨hnext.1, hnext.2.1⟩

theorem map_edit_stepsOf (edits : List Anchored) :
    (stepsOf dialect source found edits).map BatchStep.edit = edits.map Anchored.edit := by
  fun_induction stepsOf dialect source found edits
  case case1 => rfl
  case case2 a rest reason _ ih => simp only [List.map_cons, ih]
  case case3 a rest next _ ih =>
    rw [List.map_attach_eq_pmap, List.pmap_eq_map] at ih
    rw [List.map_cons, List.map_cons, ih, List.map_map]
    rfl

/-- An anchored edit is attempted, and the others are made in what becomes of the source. -/
theorem applyAnchored_cons (a : Anchored) (rest : List Anchored) :
    applyAnchored dialect source found (a :: rest)
      = match a.attempt dialect source found with
        | .error reason => (applyAnchored dialect source found rest).withSkipped a.edit reason
        | .ok next =>
          (applyAnchored dialect next.source next.sites (rest.map (Anchored.follow next.patches)))
            |>.withApplied a.edit := by
  conv =>
    lhs
    unfold applyAnchored
  unfold Anchored.attempt
  cases a.site? found with
  | none => rfl
  | some site => rfl

/-- The outcome of a batch is told by its steps. -/
theorem applyAnchored_eq (edits : List Anchored) :
    applyAnchored dialect source found edits
      = ⟨textAfter source (stepsOf dialect source found edits),
          (stepsOf dialect source found edits).filterMap BatchStep.applied?,
          (stepsOf dialect source found edits).filterMap BatchStep.skipped?⟩ := by
  fun_induction stepsOf dialect source found edits
  case case1 =>
    rw [applyAnchored]
    rfl
  case case2 source found a rest reason hattempt ih =>
    rw [applyAnchored_cons, hattempt]
    dsimp only
    rw [ih]
    rfl
  case case3 source found a rest next hattempt ih =>
    rw [List.map_attach_eq_pmap, List.pmap_eq_map] at ih
    rw [applyAnchored_cons, hattempt]
    dsimp only
    rw [ih]
    rfl

theorem carried_cons (origin : Option Nat) (step : BatchStep) (steps : List BatchStep) :
    carried origin (step :: steps) = carried (origin.bind step.carry) steps := rfl

/-- The steps of a batch are a chain. -/
theorem before_stepsOf (edits : List Anchored) {earlier later : List BatchStep} {step : BatchStep}
    (h : stepsOf dialect source found edits = earlier ++ step :: later) :
    step.before = textAfter source earlier := by
  fun_induction stepsOf dialect source found edits generalizing earlier
  case case1 => simp at h
  case case2 a rest reason _ ih =>
    cases earlier with
    | nil =>
      obtain ⟨rfl, -⟩ := List.cons.inj h
      rfl
    | cons first earlier =>
      obtain ⟨rfl, hrest⟩ := List.cons.inj h
      have hbefore := ih hrest
      exact hbefore
  case case3 a rest next _ ih =>
    cases earlier with
    | nil =>
      obtain ⟨rfl, -⟩ := List.cons.inj h
      rfl
    | cons first earlier =>
      obtain ⟨rfl, hrest⟩ := List.cons.inj h
      rw [List.map_attach_eq_pmap, List.pmap_eq_map] at ih
      exact ih hrest

/-- Every text between the steps of a batch can be read. -/
theorem readable_stepsOf (h : sites dialect source = .ok found) (edits : List Anchored)
    {earlier later : List BatchStep}
    (hsteps : stepsOf dialect source found edits = earlier ++ later) :
    ∃ now, sites dialect (textAfter source earlier) = .ok now := by
  fun_induction stepsOf dialect source found edits generalizing earlier
  case case1 source found =>
    obtain ⟨rfl, -⟩ := List.append_eq_nil_iff.1 hsteps.symm
    exact ⟨found, h⟩
  case case2 source found a rest reason _ ih =>
    cases earlier with
    | nil => exact ⟨found, h⟩
    | cons first earlier =>
      obtain ⟨rfl, hrest⟩ := List.cons.inj hsteps
      have hreadable := ih h hrest
      exact hreadable
  case case3 source found a rest next hattempt ih =>
    cases earlier with
    | nil => exact ⟨found, h⟩
    | cons first earlier =>
      obtain ⟨rfl, hrest⟩ := List.cons.inj hsteps
      rw [List.map_attach_eq_pmap, List.pmap_eq_map] at ih
      exact ih (sites_of_attempt hattempt).1 hrest

/-! ## What a step does -/

/-- An anchored edit is made at the one site that begins at its anchor. -/
theorem site?_eq_some (h : sites dialect source = .ok found) {a : Anchored} {site : Site}
    (hsite : site ∈ found) (hanchor : a.anchor = some site.anchor) :
    a.site? found = some site := by
  have hfind := find?_eq_some_of_nodup (nodup_anchor h) hsite
  rw [Anchored.site?, hanchor, Option.bind_some]
  simpa [beq_eq_decide] using hfind

/-- Without a site that begins at its anchor an edit has none. -/
theorem site?_eq_none {a : Anchored} (h : ∀ site ∈ found, a.anchor ≠ some site.anchor) :
    a.site? found = none := by
  unfold Anchored.site?
  cases hanchor : a.anchor with
  | none => rfl
  | some start =>
    rw [Option.bind_some, List.find?_eq_none]
    intro site hsite hat
    have hstart : site.anchor = start := by simpa using hat
    exact h site hsite (hanchor.trans (congrArg some hstart.symm))

/-- The patches of an edit come from its site and not from its address. -/
theorem patches_at (site : Site) (source : Text) (edit : PendingEdit) (address : Address) :
    site.patches source (edit.at address) = site.patches source edit := by
  cases edit with
  | text edit => rfl
  | style edit => rfl

theorem address_at (edit : PendingEdit) (address : Address) : (edit.at address).address = address := by
  cases edit with
  | text edit => rfl
  | style edit => rfl

/-- An edit is written at the site with its address. -/
theorem applyEdit_of_findSite (h : sites dialect source = .ok found) {site : Site} {edit : PendingEdit}
    (hsite : findSite found edit.address = some site) :
    applyEdit dialect source edit = (applyAt dialect source site edit).map EditedSource.source := by
  rw [applyEdit, h]
  dsimp only
  rw [hsite]

theorem applyEdit_eq_ok_iff {edit : PendingEdit} {output : Text} :
    applyEdit dialect source edit = .ok output ↔
      ∃ found site next, sites dialect source = .ok found ∧ findSite found edit.address = some site ∧
        applyAt dialect source site edit = .ok next ∧ next.source = output := by
  constructor
  · intro h
    unfold applyEdit at h
    split at h
    · cases h
    · next found hfound =>
      split at h
      · cases h
      · next site hsite =>
        cases hnext : applyAt dialect source site edit with
        | error reason =>
          rw [hnext] at h
          cases h
        | ok next =>
          rw [hnext] at h
          exact ⟨found, site, next, hfound, hsite, hnext, Except.ok.inj h⟩
  · rintro ⟨found, site, next, hfound, hsite, hnext, rfl⟩
    rw [applyEdit_of_findSite hfound hsite, hnext]
    rfl

theorem applyBatch_eq_ok_iff {edits : List PendingEdit} {outcome : BatchOutcome} :
    applyBatch dialect source edits = .ok outcome ↔ ∃ found, sites dialect source = .ok found ∧
      applyAnchored dialect source found (edits.map (Anchored.ofEdit found)) = outcome := by
  unfold applyBatch
  cases sites dialect source with
  | error cause => simp
  | ok found => simp

/-- An edit of a site is the edit with the address of that site. -/
theorem applyEdit_at (h : sites dialect source = .ok found) {site : Site} (hsite : site ∈ found)
    (edit : PendingEdit) :
    applyEdit dialect source (edit.at site.address)
      = (applyAt dialect source site edit).map EditedSource.source := by
  have hat : findSite found (edit.at site.address).address = some site :=
    (address_at edit site.address).symm ▸ findSite_address h hsite
  rw [applyEdit_of_findSite h hat, applyAt, applyAt, patches_at]

/-- An edit is made if what its patches make of the source can be read. -/
theorem applyEdit_of_applyAll (h : sites dialect source = .ok found) {site : Site} (hsite : site ∈ found)
    (edit : PendingEdit) (haddress : edit.address = site.address) {own : List Patch}
    (hown : site.patches source edit = .ok own) {edited : Text}
    (happly : Patch.applyAll source own = .ok edited) :
    applyEdit dialect source edit
      = match sites dialect edited with
        | .ok _ => .ok edited
        | .error cause => .error (.unreadable cause) := by
  rw [applyEdit_of_findSite h (haddress ▸ findSite_address h hsite), applyAt, hown]
  dsimp only
  rw [happly]
  dsimp only
  cases sites dialect edited <;> rfl

/-- An edit that has no patches is not made. -/
theorem applyEdit_of_error (h : sites dialect source = .ok found) {site : Site} (hsite : site ∈ found)
    (edit : PendingEdit) (haddress : edit.address = site.address) {reason : EditError}
    (hown : site.patches source edit = .error reason) : applyEdit dialect source edit = .error reason := by
  rw [applyEdit_of_findSite h (haddress ▸ findSite_address h hsite), applyAt, hown]
  rfl

/-- **One step.** An anchored edit is made where it should be. -/
theorem follows_attempt (h : sites dialect source = .ok found) (a : Anchored) :
    BatchStep.Follows dialect ⟨a.edit, source, a.attempt dialect source found⟩ a.anchor := by
  constructor
  · intro now site hnow hsite hanchor
    obtain rfl := Except.ok.inj (h.symm.trans hnow)
    have hattempt : a.attempt dialect source found = applyAt dialect source site a.edit := by
      rw [Anchored.attempt, site?_eq_some h hsite hanchor]
    dsimp only
    rw [hattempt, applyEdit_at h hsite]
    refine ⟨rfl, ?_⟩
    intro next hnext
    rw [patches_at]
    exact (sites_of_applyAt hnext).2.2
  · intro now hnow hnone
    obtain rfl := Except.ok.inj (h.symm.trans hnow)
    dsimp only
    rw [Anchored.attempt, site?_eq_none hnone]

end Steps

/-! ## Where elements are -/

/-- Offsets are followed to where their bytes are carried, as long as the text fits. -/
theorem follow_eq_carry {edit : PendingEdit} {source : Text} {next : EditedSource}
    (h : Patch.applyAll source next.patches = .ok next.source) {origin : Option Nat}
    (hin : ∀ offset, origin = some offset → offset < byteLength source)
    (hfit : byteLength next.source ≤ Patch.offsetLimit) :
    origin.bind (Patch.follow next.patches) = origin.bind (BatchStep.carry ⟨edit, source, .ok next⟩) := by
  cases origin with
  | none => rfl
  | some offset => exact Patch.follow_eq_image h (hin offset rfl) hfit

/-- A byte that is carried stands in the new text. -/
theorem lt_of_carry {edit : PendingEdit} {source : Text} {next : EditedSource}
    (h : Patch.applyAll source next.patches = .ok next.source) {origin : Option Nat} {offset : Nat}
    (hcarry : origin.bind (BatchStep.carry ⟨edit, source, .ok next⟩) = some offset) :
    offset < byteLength next.source := by
  obtain ⟨old, -, himage⟩ := Option.bind_eq_some_iff.1 hcarry
  exact (Patch.getElem?_of_image h himage).1

/-- **Every step of a batch is made where its element is.** -/
theorem follows_stepsOf {dialect : Dialect} {source : Text} {found : List Site}
    (h : sites dialect source = .ok found) (edits : List Anchored)
    (hin : ∀ a ∈ edits, ∀ offset, a.anchor = some offset → offset < byteLength source)
    {earlier later : List BatchStep} {step : BatchStep}
    (hsteps : stepsOf dialect source found edits = earlier ++ step :: later)
    (hfit : ∀ s ∈ earlier, byteLength s.after ≤ Patch.offsetLimit) {a : Anchored}
    (ha : edits[earlier.length]? = some a) :
    step.Follows dialect (carried a.anchor earlier) := by
  fun_induction stepsOf dialect source found edits generalizing earlier a
  case case1 => simp at hsteps
  case case2 source found first rest reason hattempt ih =>
    cases earlier with
    | nil =>
      obtain ⟨rfl, -⟩ := List.cons.inj hsteps
      obtain rfl := Option.some.inj ha
      rw [← hattempt]
      exact follows_attempt h first
    | cons head earlier =>
      obtain ⟨rfl, hrest⟩ := List.cons.inj hsteps
      have hfollows := ih h (fun b hb => hin b (List.mem_cons_of_mem _ hb)) hrest
        (fun s hs => hfit s (List.mem_cons_of_mem _ hs)) ha
      have hstill : a.anchor.bind (BatchStep.carry ⟨first.edit, source, .error reason⟩) = a.anchor :=
        Option.bind_fun_some a.anchor
      rw [carried_cons, hstill]
      exact hfollows
  case case3 source found first rest next hattempt ih =>
    cases earlier with
    | nil =>
      obtain ⟨rfl, -⟩ := List.cons.inj hsteps
      obtain rfl := Option.some.inj ha
      rw [← hattempt]
      exact follows_attempt h first
    | cons head earlier =>
      obtain ⟨rfl, hrest⟩ := List.cons.inj hsteps
      obtain ⟨hnext, hpatched⟩ := sites_of_attempt hattempt
      have hlength : byteLength next.source ≤ Patch.offsetLimit := hfit _ List.mem_cons_self
      rw [List.map_attach_eq_pmap, List.pmap_eq_map] at ih
      -- The anchors of the edits behind this one are followed, which is to say carried.
      have hcarry : ∀ b ∈ rest, b.anchor.bind (Patch.follow next.patches)
          = b.anchor.bind (BatchStep.carry ⟨first.edit, source, .ok next⟩) := fun b hb =>
        follow_eq_carry hpatched (hin b (List.mem_cons_of_mem _ hb)) hlength
      have hnextin : ∀ b ∈ rest.map (Anchored.follow next.patches), ∀ offset,
          b.anchor = some offset → offset < byteLength next.source := by
        intro b hb offset hoffset
        obtain ⟨old, hold, rfl⟩ := List.mem_map.1 hb
        exact lt_of_carry hpatched ((hcarry old hold).symm.trans hoffset)
      have hat : (rest.map (Anchored.follow next.patches))[earlier.length]?
          = some (a.follow next.patches) := by
        have hrestat : rest[earlier.length]? = some a := ha
        rw [List.getElem?_map, hrestat, Option.map_some]
      have hfollows := ih hnext hnextin hrest (fun s hs => hfit s (List.mem_cons_of_mem _ hs)) hat
      rw [carried_cons, ← hcarry a (List.mem_of_getElem? ha)]
      exact hfollows

/-! ## Whole batches -/

/-- **Edits of a batch follow their own elements.** A batch is a chain of texts, each of them made
of the one before it by one edit: by the edit alone, with the address that its element has by then,
where the element is told by the byte with which it began in the first text. An edit that fails, or
whose element has lost that byte, is skipped and changes nothing. -/
theorem exists_batchRun {dialect : Dialect} {source : Text} {found : List Site}
    (h : sites dialect source = .ok found) (edits : List PendingEdit) :
    ∃ outcome steps, applyBatch dialect source edits = .ok outcome ∧
      BatchRun dialect source found edits outcome steps := by
  have hbatch : applyBatch dialect source edits
      = .ok (applyAnchored dialect source found (edits.map (Anchored.ofEdit found))) := by
    rw [applyBatch, h]
  refine ⟨_, stepsOf dialect source found (edits.map (Anchored.ofEdit found)), hbatch, ?_⟩
  have hedits : (stepsOf dialect source found (edits.map (Anchored.ofEdit found))).map BatchStep.edit
      = edits := by
    rw [map_edit_stepsOf, List.map_map]
    exact List.map_id edits
  have hin : ∀ a ∈ edits.map (Anchored.ofEdit found), ∀ offset, a.anchor = some offset →
      offset < byteLength source := by
    intro a ha offset hoffset
    obtain ⟨edit, -, rfl⟩ := List.mem_map.1 ha
    obtain ⟨site, hsite, rfl⟩ := Option.map_eq_some_iff.1 hoffset
    exact anchor_lt h (List.mem_of_find?_eq_some hsite)
  have hfollows : ∀ earlier step later,
      stepsOf dialect source found (edits.map (Anchored.ofEdit found)) = earlier ++ step :: later →
        (∀ s ∈ earlier, byteLength s.after ≤ Patch.offsetLimit) → step.Follows dialect
          (carried ((findSite found step.edit.address).map Site.anchor) earlier) := by
    intro earlier step later hsteps hfit
    have hat : edits[earlier.length]? = some step.edit := by
      rw [← hedits, hsteps]
      simp
    apply follows_stepsOf h _ hin hsteps hfit (a := .ofEdit found step.edit)
    rw [List.getElem?_map, hat, Option.map_some]
  rw [applyAnchored_eq]
  exact ⟨hedits, fun _ _ _ => before_stepsOf _, fun _ _ => readable_stepsOf h _, hfollows, rfl, rfl,
    rfl⟩

/-- The first of these two edits takes the element of the second one away. -/
theorem exists_batchRun_nested :
    ∃ found, sites .tsx "<div><p>a</p></div>".toList = .ok found ∧
      ∃ outcome steps,
        applyBatch .tsx "<div><p>a</p></div>".toList
            [.text ⟨.of "div".toList 0, "b".toList⟩, .text ⟨.of "p".toList 0, "c".toList⟩]
          = .ok outcome ∧
        BatchRun .tsx "<div><p>a</p></div>".toList found
          [.text ⟨.of "div".toList 0, "b".toList⟩, .text ⟨.of "p".toList 0, "c".toList⟩]
          outcome steps :=
  ⟨_, rfl, exists_batchRun rfl _⟩

end Retouch
