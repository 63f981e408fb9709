import Retouch.Edit.Basic
import Retouch.ParseError
import Retouch.Patch

/-!
# Edit errors

Why an edit cannot be written into a source.
-/

namespace Retouch

/-- Why an edit cannot be written into a source. -/
inductive EditError where
  /-- The source, or the source with the edit in it, cannot be read. -/
  | unreadable (cause : ParseError)
  /-- The source has no element with the address. -/
  | notFound (address : Address)
  /-- The new name is none of an intrinsic element. -/
  | invalidTag (name : Text)
  | invalidStyle (cause : StyleError)
  | unpatchable (cause : PatchError)

namespace EditError

/-- The message shown to a user. -/
def message : EditError → Text
  | unreadable cause => "Parse error: ".toList ++ cause.display
  | notFound address => "Element not found: ".toList ++ address.display
  | invalidTag name => "Invalid tag name: ".toList ++ Text.quoted name
  | invalidStyle cause => "Invalid style: ".toList ++ cause.message
  | unpatchable cause => "Patch error: ".toList ++ cause.message.toList

/-- Whether the element was not there. -/
def isNotFound : EditError → Bool
  | notFound _ => true
  | _ => false

end EditError

end Retouch
