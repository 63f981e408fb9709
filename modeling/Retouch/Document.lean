import Retouch.Edit.Apply

/-!
# Documents

A source text with its revision, which counts how often the text has changed.
-/

namespace Retouch

/-- A source text and how often it has changed. -/
structure Document where
  text : Text
  revision : Nat
deriving DecidableEq

namespace Document

/-- A document that has not changed yet. -/
def new (text : Text) : Document := ⟨text, 0⟩

/-- The document with another text. The same text is no change. -/
def replace (d : Document) (text : Text) : Document :=
  if text = d.text then d else ⟨text, d.revision + 1⟩

/-- Write an edit into the document. -/
def applyEdit (d : Document) (dialect : Dialect) (edit : PendingEdit) : Except EditError Document :=
  (Retouch.applyEdit dialect d.text edit).map d.replace

/-- Write a batch of edits into the document. -/
def applyBatch (d : Document) (dialect : Dialect) (edits : List PendingEdit) :
    Except EditError (Document × BatchOutcome) :=
  (Retouch.applyBatch dialect d.text edits).map fun outcome => (d.replace outcome.source, outcome)

@[simp] theorem replace_text (d : Document) (text : Text) : (d.replace text).text = text := by
  by_cases h : text = d.text <;> simp [replace, h]

/-- The revision rises by one exactly when the text changes. -/
theorem replace_revision (d : Document) (text : Text) :
    (d.replace text).revision = d.revision + if text = d.text then 0 else 1 := by
  by_cases h : text = d.text <;> simp [replace, h]

end Document

end Retouch
