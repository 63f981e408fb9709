import Retouch.Edit.Error
import Retouch.Json.Value
import Retouch.Site

/-!
# Edits as patches

What an edit changes in the bytes of a source: only the text between two tags, a style attribute
and the names in the tags, never what stands around them.
-/

namespace Retouch

open Text

/-- Whether a character means something else between tags than itself. A line break goes with the
blanks around it. -/
def isSignificant (c : Char) : Bool :=
  c == '\x7b' || c == '\x7d' || c == '<' || c == '>' || c == '&' || c == '\n' || c == '\r'

/-- A text as it is written between tags: as it is, or as a string literal in braces if one of its
characters means something else there. -/
def renderText (t : Text) : Text :=
  if t.any isSignificant then '\x7b' :: Json.writeString t ++ ['\x7d'] else t

/-- A text without what it ends with, if that is `tail`. -/
def withoutTail (tail t : Text) : Text :=
  if tail.isSuffixOf t then t.take (t.length - tail.length) else t

namespace Site

/-- What is left of the tag of a self-closing element without its end and the blanks before that. -/
def head (site : Site) (source : Text) : Text :=
  trimEnd (withoutTail ['/', '>'] (site.tag.opening.slice source))

/-- The patch that puts a text between the tags. A self-closing element gets a closing tag. -/
def textPatch (site : Site) (source : Text) (t : Text) : Patch :=
  match site.between with
  | some span => ⟨span.start, span.stop, renderText t⟩
  | none =>
    ⟨site.tag.opening.start + byteLength (site.head source), site.tag.opening.stop,
      '>' :: renderText t ++ ['<', '/'] ++ site.name ++ ['>']⟩

/-- The style attribute with a value. -/
def styleAttribute (value : Text) : Text := "style=".toList ++ value

/-- The patch that gives the element a style: it replaces the value of the last style attribute, or
adds one behind the other attributes. -/
def stylePatch (site : Site) (value : Text) : Patch :=
  match site.tag.style with
  | some ⟨_, some span⟩ => ⟨span.start, span.stop, value⟩
  | some ⟨span, none⟩ => ⟨span.start, span.stop, styleAttribute value⟩
  | none => .insertion site.tag.insertAt (' ' :: styleAttribute value)

/-- The patches that give the element another name. -/
def renamePatches (site : Site) (target : Option Text) : List Patch :=
  match target with
  | none => []
  | some name =>
    if name = site.name then []
    else
      ⟨site.tag.nameSpan.start, site.tag.nameSpan.stop, name⟩
        :: match site.tag.closing with
          | some closing => [⟨closing.name.start, closing.name.stop, name⟩]
          | none => []

/-- The patches that write an edit into the source in which `site` stands. -/
def patches (site : Site) (source : Text) : PendingEdit → Except EditError (List Patch)
  | .text edit => .ok [site.textPatch source edit.text]
  | .style edit =>
    match edit.expression with
    | .error cause => .error (.invalidStyle cause)
    | .ok value =>
      match edit.target with
      | .error name => .error (.invalidTag name)
      | .ok target => .ok (site.stylePatch value :: site.renamePatches target)

end Site

end Retouch
