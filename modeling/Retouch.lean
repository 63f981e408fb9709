import Retouch.Preview.Live
import Retouch.Preview.Page
import Retouch.Preview.Rendered
import Retouch.Report
import Retouch.Proofs.Patch.Origins
import Retouch.Proofs.Patch.Weaves
import Retouch.Proofs.Patch.Apart
import Retouch.Proofs.Patch.Splices
import Retouch.Proofs.Script.Reach
import Retouch.Proofs.Site.Identity
import Retouch.Proofs.Script.Found
import Retouch.Proofs.Script.DocumentOrder
import Retouch.Proofs.Script.Solid
import Retouch.Proofs.Script.Tags
import Retouch.Proofs.Script.Placed
import Retouch.Proofs.Script.Quoted
import Retouch.Proofs.Script.Between
import Retouch.Proofs.Script.Container
import Retouch.Proofs.Script.TagEnd
import Retouch.Proofs.Script.TagName
import Retouch.Proofs.Site.Spans
import Retouch.Proofs.Edit.Batch
import Retouch.Proofs.Edit.Element
import Retouch.Proofs.Decimal.Digits
import Retouch.Proofs.Style.Expression
import Retouch.Proofs.Json.Records
import Retouch.Proofs.Json.RoundTrip
import Retouch.Proofs.Preview.Frames
import Retouch.Proofs.Live.Run
import Retouch.Proofs.Session.Sync
import Retouch.Proofs.Session.Run
import Retouch.Proofs.Session.Refusals
import Retouch.Proofs.Session.Revisions
import Retouch.Proofs.Session.Selection
import Retouch.Proofs.Live.Status
import Retouch.Proofs.Live.Ledger
import Retouch.Proofs.Live.Provenance
import Retouch.Proofs.Edit.Inert
import Retouch.Proofs.Edit.Listing
import Retouch.Proofs.Edit.TextRoundTrip
import Retouch.Proofs.Edit.Expansion
import Retouch.Proofs.Edit.Apart
import Retouch.Proofs.Preview.Agreement
import Retouch.Proofs.Preview.Independence
import Retouch.Proofs.Preview.Messages
import Retouch.Proofs.Preview.Exchange
import Retouch.Proofs.Text.Filling
import Retouch.Proofs.Preview.Page
import Retouch.Proofs.Script.Operand
import Retouch.Proofs.Script.Braced
import Retouch.Proofs.Script.Attributes
import Retouch.Proofs.Script.WordEnd
import Retouch.Proofs.Script.StyleAttribute
import Retouch.Proofs.Script.BehindName
import Retouch.Proofs.Script.WrittenStyle
import Retouch.Proofs.Script.TargetName
import Retouch.Proofs.Edit.Restyle
import Retouch.Proofs.Edit.Rename
import Retouch.Proofs.Patch.Following
import Retouch.Proofs.Patch.Turns
import Retouch.Proofs.Edit.Applicable
import Retouch.Proofs.Script.LastSign
import Retouch.Proofs.Edit.OwnSpans
import Retouch.Proofs.Edit.Untouched
import Retouch.Proofs.Edit.Pending
import Retouch.Proofs.Site.Ranks
import Retouch.Proofs.Site.Enumeration
import Retouch.Proofs.Preview.Instrument
import Retouch.Proofs.Preview.Leaves
import Retouch.Proofs.Script.Written
import Retouch.Proofs.Script.PlainElement
import Retouch.Proofs.Edit.RenderedText
import Retouch.Proofs.Style.Language
import Retouch.Proofs.Decimal.Floats
import Retouch.Proofs.Edit.ReadBack
import Retouch.Proofs.Address.Matching
import Retouch.Proofs.Address.Counting
import Retouch.Proofs.Report.Highlight
import Retouch.Proofs.Text.References
import Retouch.Proofs.Preview.Escapes
