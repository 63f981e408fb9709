import Retouch.Decimal.Layout
import Retouch.Text.Quoted

/-!
# Style errors

Why a style cannot be written.
-/

namespace Retouch

/-- Why a style cannot be written. -/
inductive StyleError where
  /-- A text that is no colour. -/
  | unsupportedColor (value : Text)
  /-- A font size that is not finite or not positive. -/
  | unusableFontSize (size : Float)

/-- The message shown to a user. -/
def StyleError.message : StyleError → Text
  | unsupportedColor value => "unsupported color ".toList ++ Text.quoted value
  | unusableFontSize size =>
    "font size must be a positive number, got ".toList ++ Decimal.displayFloat size

end Retouch
