import Retouch.Preview.Bridge
import Retouch.Session.Basic

/-!
# Live sessions

A session with its preview. What the sandbox has sent is taken in before the edits that wait are
written or dropped.
-/

namespace Retouch

/-- A session and the bridge to its preview. -/
structure LiveSession where
  session : Session
  bridge : Bridge

namespace LiveSession

/-- A session at its start, over a new connection. -/
def connect (config : Config) : LiveSession := ⟨.start config, .connect⟩

/-- The user has given the document another text. The preview shows it at the next update. -/
def setSource (l : LiveSession) (text : Text) : LiveSession :=
  { l with session := l.session.setSource text }

/-- Push the document to the preview. -/
def updatePreview (l : LiveSession) : LiveSession :=
  { l with bridge := l.bridge.push l.session.document }

/-- Take in everything the sandbox has sent. -/
def pump (l : LiveSession) : LiveSession × PumpStats :=
  let (bridge, buffer, stats) := l.bridge.pump l.session.buffer
  (⟨{ l.session with buffer := buffer }, bridge⟩, stats)

/-- Take in everything the sandbox has sent, write the edits that wait into the source, and push the
result if the session is configured so. -/
def sync (l : LiveSession) : LiveSession × Except SessionError SyncReport :=
  let (l, _) := l.pump
  let (session, result) := l.session.sync
  let bridge := match result with
    | .ok { pushed := some frame, .. } => l.bridge.push frame
    | _ => l.bridge
  (⟨session, bridge⟩, result)

/-- Take in everything the sandbox has sent and drop the edits that wait. -/
def discard (l : LiveSession) : LiveSession × Nat :=
  let (l, _) := l.pump
  let (session, count) := l.session.discard
  ({ l with session := session }, count)

/-- Select an element of the source. -/
def select (l : LiveSession) (address : Address) : LiveSession × Except SessionError Unit :=
  let (session, result) := l.session.select address
  ({ l with session := session }, result)

/-- Record the style controls as an edit of the selected element. -/
def applyStyle (l : LiveSession) : LiveSession × Except SessionError StyleEdit :=
  let (session, result) := l.session.applyStyle
  ({ l with session := session }, result)

/-- Make the selected element a heading. -/
def applyHeading (l : LiveSession) (heading : Heading) :
    LiveSession × Except SessionError StyleEdit :=
  let (session, result) := l.session.applyHeading heading
  ({ l with session := session }, result)

end LiveSession

end Retouch
