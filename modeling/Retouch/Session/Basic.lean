import Retouch.Config
import Retouch.Document
import Retouch.Edit.Buffer
import Retouch.Session.Controls

/-!
# Sessions

One window of the editor: the document, the edits that wait for the next sync, the selected element
and the style controls. What fails leaves the session as it was.
-/

namespace Retouch

/-- Why something cannot be done in a session. -/
inductive SessionError where
  | edit (cause : EditError)
  | nothingToSync
  | noSelection

/-- The message shown to a user. -/
def SessionError.message : SessionError → Text
  | edit cause => "Edit error: ".toList ++ cause.message
  | nothingToSync => "Nothing to sync: no pending edits".toList
  | noSelection => "No element selected".toList

/-- A window of the editor. -/
structure Session where
  config : Config
  document : Document
  buffer : EditBuffer
  selection : Option Address
  controls : Controls

/-- What a sync did. -/
structure SyncReport where
  /-- The revision behind it. -/
  revision : Nat
  applied : List PendingEdit
  skipped : List SkippedEdit
  /-- What is pushed to the preview, if anything is. -/
  pushed : Option Document

namespace Session

/-- A session at its start. -/
def start (config : Config) : Session :=
  ⟨config, .new config.initialSource, .empty, none, .standard⟩

/-- The source as it is now. -/
def source (s : Session) : Text := s.document.text

/-- Whether edits wait. -/
def canSync (s : Session) : Bool := !s.buffer.isEmpty

/-- The user has given the document another text. Nothing is selected then. -/
def setSource (s : Session) (text : Text) : Session :=
  { s with document := s.document.replace text, selection := none }

/-- Record an edit for the next sync. -/
def record (s : Session) (edit : PendingEdit) : Session := { s with buffer := s.buffer.record edit }

/-- Drop the edits that wait. Gives how many there were. -/
def discard (s : Session) : Session × Nat := ({ s with buffer := .empty }, s.buffer.size)

/-- The addresses of the source as it is now. -/
def addresses (s : Session) : Except EditError (List Address) :=
  (Retouch.addresses s.config.dialect s.source).mapError .unreadable

/-- Select an element of the source. -/
def select (s : Session) (address : Address) : Session × Except SessionError Unit :=
  match s.addresses with
  | .error cause => (s, .error (.edit cause))
  | .ok found =>
    if address ∈ found then ({ s with selection := some address }, .ok ())
    else (s, .error (.edit (.notFound address)))

/-- Select nothing. -/
def clearSelection (s : Session) : Session := { s with selection := none }

/-- Record the style controls as an edit of the selected element. -/
def applyStyle (s : Session) : Session × Except SessionError StyleEdit :=
  match s.selection with
  | none => (s, .error .noSelection)
  | some address =>
    let edit := s.controls.edit address none
    match edit.expression with
    | .error cause => (s, .error (.edit (.invalidStyle cause)))
    | .ok _ => (s.record (.style edit), .ok edit)

/-- Make the selected element a heading: rename it and set its font size. -/
def applyHeading (s : Session) (heading : Heading) : Session × Except SessionError StyleEdit :=
  match s.selection with
  | none => (s, .error .noSelection)
  | some address =>
    let controls := { s.controls with fontSize := heading.fontSize }
    let edit := controls.edit address (some heading.tag)
    ({ s with controls := controls }.record (.style edit), .ok edit)

/-- Set style controls. -/
def setControls (s : Session) (input : ControlInput) : Session × Except StyleError Unit :=
  let (controls, result) := s.controls.set input
  ({ s with controls := controls }, result)

/-- Write the edits that wait into the source. Those that fail by themselves are skipped. If the
source cannot be read, all of them go on waiting. -/
def sync (s : Session) : Session × Except SessionError SyncReport :=
  if s.buffer.isEmpty then (s, .error .nothingToSync)
  else
    let edits := s.buffer.pending
    let drained := { s with buffer := .empty }
    match s.document.applyBatch s.config.dialect edits with
    | .error cause =>
      ({ drained with buffer := drained.buffer.restore edits }, .error (.edit cause))
    | .ok (document, outcome) =>
      ({ drained with document := document, selection := none },
        .ok {
          revision := document.revision
          applied := outcome.applied
          skipped := outcome.skipped
          pushed := if s.config.pushOnSync then some document else none })

end Session

end Retouch
