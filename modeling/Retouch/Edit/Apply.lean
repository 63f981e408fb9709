import Retouch.Edit.Patches

/-!
# Applying edits

`applyEdit` writes one edit into a source. `applyBatch` writes several, in order, as well as it can:
an edit that fails is skipped and changes nothing. The addresses of a batch are those of the source
it starts from; each edit then follows its element through the patches of the edits before it, by
the offset where the element begins.
-/

namespace Retouch

/-- The text that an element of a source shows. -/
def textContent (dialect : Dialect) (source : Text) (address : Address) : Except EditError Text :=
  match sites dialect source with
  | .error cause => .error (.unreadable cause)
  | .ok found =>
    match findSite found address with
    | some site => .ok site.text
    | none => .error (.notFound address)

/-- What an edit of the element at `site` makes of a source: the new source with its sites, and the
patches. The new source has to be readable. -/
structure EditedSource where
  source : Text
  sites : List Site
  patches : List Patch

/-- Write an edit into a source, at one of its sites. -/
def applyAt (dialect : Dialect) (source : Text) (site : Site) (edit : PendingEdit) :
    Except EditError EditedSource :=
  match site.patches source edit with
  | .error error => .error error
  | .ok patches =>
    match Patch.applyAll source patches with
    | .error cause => .error (.unpatchable cause)
    | .ok output =>
      match sites dialect output with
      | .error cause => .error (.unreadable cause)
      | .ok found => .ok ⟨output, found, patches⟩

/-- Write one edit into a source. -/
def applyEdit (dialect : Dialect) (source : Text) (edit : PendingEdit) : Except EditError Text :=
  match sites dialect source with
  | .error cause => .error (.unreadable cause)
  | .ok found =>
    match findSite found edit.address with
    | none => .error (.notFound edit.address)
    | some site => (applyAt dialect source site edit).map EditedSource.source

/-! ## Batches -/

/-- An edit that was not written, and why. -/
structure SkippedEdit where
  edit : PendingEdit
  reason : EditError

/-- What became of a batch. -/
structure BatchOutcome where
  source : Text
  applied : List PendingEdit
  skipped : List SkippedEdit

namespace BatchOutcome

/-- Whether no edit was skipped. -/
def isClean (outcome : BatchOutcome) : Bool := outcome.skipped.isEmpty

/-- The outcome with one more edit applied before the others. -/
def withApplied (edit : PendingEdit) (outcome : BatchOutcome) : BatchOutcome :=
  { outcome with applied := edit :: outcome.applied }

/-- The outcome with one more edit skipped before the others. -/
def withSkipped (edit : PendingEdit) (reason : EditError) (outcome : BatchOutcome) : BatchOutcome :=
  { outcome with skipped := ⟨edit, reason⟩ :: outcome.skipped }

end BatchOutcome

/-- An edit of a batch, and where its element begins now, if it has one. -/
structure Anchored where
  edit : PendingEdit
  anchor : Option Nat

namespace Anchored

/-- An edit with the element that it names among `found`. -/
def ofEdit (found : List Site) (edit : PendingEdit) : Anchored :=
  ⟨edit, (findSite found edit.address).map Site.anchor⟩

/-- The site of the element among `found`. -/
def site? (a : Anchored) (found : List Site) : Option Site :=
  a.anchor.bind fun start => found.find? fun site => site.anchor == start

/-- The edit behind patches that were made meanwhile. -/
def follow (patches : List Patch) (a : Anchored) : Anchored :=
  { a with anchor := a.anchor.bind (Patch.follow patches) }

end Anchored

/-- Write anchored edits one after the other into `source`, whose sites are `found`. -/
def applyAnchored (dialect : Dialect) (source : Text) (found : List Site) :
    List Anchored → BatchOutcome
  | [] => ⟨source, [], []⟩
  | a :: rest =>
    match a.site? found with
    | none =>
      (applyAnchored dialect source found rest).withSkipped a.edit (.notFound a.edit.address)
    | some site =>
      match applyAt dialect source site a.edit with
      | .error reason => (applyAnchored dialect source found rest).withSkipped a.edit reason
      | .ok next =>
        (applyAnchored dialect next.source next.sites (rest.map (Anchored.follow next.patches)))
          |>.withApplied a.edit
termination_by edits => edits.length

/-- Write a batch of edits into a source. -/
def applyBatch (dialect : Dialect) (source : Text) (edits : List PendingEdit) :
    Except EditError BatchOutcome :=
  match sites dialect source with
  | .error cause => .error (.unreadable cause)
  | .ok found => .ok (applyAnchored dialect source found (edits.map (Anchored.ofEdit found)))

end Retouch
