import Retouch.Document
import Retouch.Edit.Json
import Retouch.Json.Reader

/-!
# Messages

What the editor and the sandbox that shows the preview tell each other, in JSON with a tag `type`.
The editor pushes documents; the sandbox answers whether one was rendered, and reports edits of
texts.
-/

namespace Retouch

open Json (required optional record? text? nat? optional? max32 max64)

/-! ## Failures -/

/-- Where a push failed. -/
inductive Phase where
  /-- The source could not be compiled. -/
  | compile
  /-- The component failed while it was rendered. -/
  | runtime
  /-- The push never reached the sandbox. -/
  | transport
deriving DecidableEq, Repr

namespace Phase

/-- All phases. -/
def all : List Phase := [compile, runtime, transport]

/-- The word for a phase. -/
def word : Phase → Text
  | compile => "compile".toList
  | runtime => "runtime".toList
  | transport => "transport".toList

/-- The phase that a word names. -/
def ofWord? (t : Text) : Option Phase := all.find? fun p => p.word == t

theorem ofWord?_word (p : Phase) : ofWord? p.word = some p := by cases p <;> decide

end Phase

/-- Why the preview does not show the document pushed last. -/
structure PreviewError where
  phase : Phase
  message : Text
deriving DecidableEq

namespace PreviewError

/-- The failure as it is told to a user. -/
def display (e : PreviewError) : Text := e.phase.word ++ " error: ".toList ++ e.message

/-- The failure in a JSON value. -/
def ofJson? (v : Json) : Option PreviewError := do
  match ← record? [required "phase", required "message"] v with
  | [some phase, some message] =>
    return ⟨← (Json.choice? phase).bind Phase.ofWord?, ← text? message⟩
  | _ => none

/-- A failure as a JSON value. -/
def toJson (e : PreviewError) : Json :=
  .object [("phase".toList, .string e.phase.word), ("message".toList, .string e.message)]

end PreviewError

/-- The tag that says what a message is. -/
def messageTag : Text := "type".toList

/-! ## Messages of the editor -/

/-- What the editor tells the sandbox. -/
inductive OutboundMessage where
  /-- Render a document. -/
  | push (frame : Document)
deriving DecidableEq

namespace OutboundMessage

/-- The message in a JSON value. -/
def ofJson? (v : Json) : Option OutboundMessage := do
  let (tag, rest) ← Json.tagged? messageTag v
  if tag == "PUSH".toList then
    match ← record? [required "revision", required "source"] rest with
    | [some revision, some source] => return push ⟨← text? source, ← nat? max64 revision⟩
    | _ => none
  else none

/-- A message as a JSON value. -/
def toJson : OutboundMessage → Json
  | push frame => .object [(messageTag, .string "PUSH".toList),
    ("revision".toList, .ofNat frame.revision), ("source".toList, .string frame.text)]

end OutboundMessage

/-! ## Messages of the sandbox -/

/-- What the sandbox tells the editor. -/
inductive InboundMessage where
  /-- The text of a rendered element has changed. -/
  | textEdit (tag : Text) (index : Nat) (text : Text)
  /-- A push was rendered. -/
  | rendered (revision : Option Nat)
  /-- A push failed. -/
  | failed (error : PreviewError) (revision : Option Nat)
deriving DecidableEq

namespace InboundMessage

/-- The revision of the push that a message answers, if it says. -/
def revision : InboundMessage → Option Nat
  | textEdit .. => none
  | rendered revision => revision
  | failed _ revision => revision

/-- The edit that a message reports. -/
def edit? : InboundMessage → Option PendingEdit
  | textEdit tag index text => some (.text ⟨.of tag index, text⟩)
  | _ => none

/-- The message in a JSON value. -/
def ofJson? (v : Json) : Option InboundMessage := do
  let (tag, rest) ← Json.tagged? messageTag v
  if tag == "TEXT_EDIT".toList then
    match ← record? [required "tag", required "index", required "text"] rest with
    | [some tag, some index, some text] =>
      return textEdit (← text? tag) (← nat? max32 index) (← text? text)
    | _ => none
  else if tag == "RENDERED".toList then
    match ← record? [optional "revision"] rest with
    | [revision] => return rendered (← optional? (nat? max64) revision)
    | _ => none
  else if tag == "ERROR".toList then
    match ← record? [required "phase", required "message", optional "revision"] rest with
    | [some phase, some message, revision] =>
      return failed ⟨← (Json.taggedChoice? phase).bind Phase.ofWord?, ← text? message⟩
        (← optional? (nat? max64) revision)
    | _ => none
  else none

/-- The field for a revision, if there is one. -/
def revisionField : Option Nat → List (Text × Json)
  | none => []
  | some revision => [("revision".toList, .ofNat revision)]

/-- A message as a JSON value. -/
def toJson : InboundMessage → Json
  | textEdit tag index text => .object [(messageTag, .string "TEXT_EDIT".toList),
    ("tag".toList, .string tag), ("index".toList, .ofNat index), ("text".toList, .string text)]
  | rendered revision =>
    .object ((messageTag, .string "RENDERED".toList) :: revisionField revision)
  | failed error revision =>
    .object ([(messageTag, .string "ERROR".toList), ("phase".toList, .string error.phase.word),
      ("message".toList, .string error.message)] ++ revisionField revision)

end InboundMessage

end Retouch
