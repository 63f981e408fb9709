import Retouch.Script.Types

/-!
# Elements

The rules for markup: elements and fragments, their attributes, and what stands between their tags.
They give the pieces of `Retouch.Markup`; what other rules find inside braces is gathered into them.
-/

namespace Retouch.Script

/-! ## Names -/

/-- A word in a tag, hyphens included. -/
def tagWord : Prog Text := do
  perform (.reread .hyphens)
  match (← kind).word? with
  | some word =>
    advanceName
    return word
  | none => unexpected

/-- The members behind the name `written`, each behind a point; the name with them. -/
def tagMembersRule (c : Ctx) (written : Text) : Prog Text := do
  if ← eat .dot then
    let start ← here
    let word ← tagWord
    if word.contains '-' then reportAt start .hyphenInMember else pure ()
    call c (.tagMembers (written ++ '.' :: word))
  else return written

/-- The name that an element of one word is rendered under; none if it is a component. -/
def intrinsicName (word : Text) : Option Text :=
  match word with
  | [] => none
  | first :: _ =>
    let plain := word.contains '-' || first.isLower
    if plain && !first.isUpper && word != Keyword.this.text then some word else none

/-- The name in a tag. -/
def tagName (c : Ctx) : Prog TagName := do
  let start ← here
  let word ← tagWord
  if ← eat .colon then
    let tail ← tagWord
    let written := word ++ ':' :: tail
    return ⟨written, some written, ← spanFrom start⟩
  else if ← at? .dot then
    let written ← call c (.tagMembers word)
    return ⟨written, none, ← spanFrom start⟩
  else return ⟨word, intrinsicName word, ← spanFrom start⟩

/-! ## Attributes -/

/-- An attribute whose values are taken from an expression, behind its brace. -/
def spreadAttribute (c : Ctx) (start : Nat) : Prog Attribute := do
  advance
  expect .ellipsis
  skip c.enclosed .expression
  expect .braceClose
  return ⟨false, ← spanFrom start, none⟩

/-- The value of an attribute. -/
def attributeValue (c : Ctx) : Prog Unit := do
  match ← kind with
  | .string _ => advance
  | .punct .braceOpen =>
    let start ← here
    advance
    if ← at? .braceClose then
      advance
      reportAt start .emptyAttributeExpression
    else
      skip c.enclosed .expression
      expect .braceClose
  | .punct .less => emitElement c
  | _ => unexpected

/-- An attribute with a name. -/
def namedAttribute (c : Ctx) (start : Nat) : Prog Attribute := do
  let word ← tagWord
  let namespaced ← eat .colon
  if namespaced then
    let _ ← tagWord
    pure ()
  else pure ()
  let isStyle := !namespaced && word == "style".toList
  if ← at? .assign then
    advanceIn .attribute
    let valueStart ← here
    attributeValue c
    return ⟨isStyle, ← spanFrom start, some (← spanFrom valueStart)⟩
  else return ⟨isStyle, ← spanFrom start, none⟩

/-- The attributes of an opening tag, up to its end. -/
def attributesRule (c : Ctx) : Prog (List Attribute) := do
  let t ← token
  match t.kind with
  | .endOfSource | .punct .less | .punct .greater | .punct .slash => return []
  | k =>
    let first ← if k == .punct .braceOpen then spreadAttribute c t.start else namedAttribute c t.start
    return first :: (← call c .attributes)

/-- The last style attribute. -/
def lastStyle (attributes : List Attribute) : Option StyleAttribute :=
  (attributes.reverse.find? fun a => a.isStyle).map fun a => ⟨a.span, a.value⟩

/-- Where a new attribute goes: behind the last one, else behind the name. -/
def insertionPoint (name : TagName) (attributes : List Attribute) : Nat :=
  match attributes.getLast? with
  | some last => last.span.stop
  | none => name.span.stop

/-! ## Elements -/

/-- The end of a tag. Text between tags follows the last tag of an element that stands `between`
others. -/
def endTag (between : Bool) : Prog Unit := do
  demand .greater
  advanceIn (if between then .child else .code)

/-- The beginning of a closing tag. -/
def closingStart : Prog Unit := do
  expect .less
  expect .slash

/-- A fragment, behind the first sign of its opening tag. -/
def fragmentRest (c : Ctx) (between : Bool) : Prog Markup := do
  endTag true
  let children ← call c .children
  closingStart
  endTag between
  return .fragment children

/-- An element, behind the first sign of its opening tag, which stands at `start`. -/
def elementRest (c : Ctx) (between : Bool) (start : Nat) : Prog Markup := do
  let name ← tagName c
  let inTypes ← typeArgumentsOfTag
  let (attributes, inAttributes) ← gather c .attributes
  let inside := inTypes ++ inAttributes
  let tag := fun (opening : Span) (closing : Option ClosingTag) (last : Nat) => (
    { name := name.intrinsic
      span := ⟨start, last⟩
      opening := opening
      nameSpan := name.span
      closing := closing
      style := lastStyle attributes
      insertAt := insertionPoint name attributes } : Tag)
  if ← eat .slash then
    endTag between
    let opening ← spanFrom start
    return .element (tag opening none opening.stop) inside []
  else
    endTag true
    let opening ← spanFrom start
    let children ← call c .children
    let closingAt ← here
    closingStart
    let closingName ← tagName c
    endTag between
    if closingName.written == name.written then pure ()
    else reportAt closingName.span.start (.closingTagMismatch name.written)
    let closing : ClosingTag := ⟨← spanFrom closingAt, closingName.span⟩
    return .element (tag opening (some closing) closing.span.stop) inside children
where
  /-- The types that a component is used with, and the markup in them. -/
  typeArgumentsOfTag : Prog (List Markup) := do
    let k ← kind
    if c.typed && (k == .punct .less || k == .punct .shiftLeft) then
      let (_, inside) ← gather c .typeArguments
      return inside
    else return []

/-- An element or a fragment. -/
def elementRule (c : Ctx) (between : Bool) : Prog Markup := do
  let start ← here
  expect .less
  let k ← kind
  if k == .punct .greater then fragmentRest c.enclosed between
  else if k.isWord then elementRest c.enclosed between start
  else unexpected

/-! ## Between tags -/

/-- Code in braces between tags, behind its brace. -/
def containedCode (c : Ctx) : Prog Markup := do
  if ← at? .braceClose then
    endCode
    return .code []
  else
    let spread ← eat .ellipsis
    let (e, inside) ← gather c .expression
    endCode
    match e.shape, spread with
    | .string value, false => return .literal value
    | _, _ => return .code inside
where
  /-- The end of the code. -/
  endCode : Prog Unit := do
    demand .braceClose
    advanceIn .child

/-- What stands between two tags. -/
def childrenRule (c : Ctx) : Prog (List Markup) := do
  match ← kind with
  | .markupText raw =>
    advanceIn .child
    return .text raw :: (← call c .children)
  | .punct .braceOpen =>
    advance
    let piece ← containedCode c
    return piece :: (← call c .children)
  | .punct .less =>
    if (← kindAhead 1) == .punct .slash then return []
    else
      let piece ← call c (.element true)
      return piece :: (← call c .children)
  | _ => unexpected

end Retouch.Script
