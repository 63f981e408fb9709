import Retouch.Script.Rule

/-!
# Names and their annotations

The small parts that many rules share: names of variables and properties, types behind a colon,
modifiers, lists.
-/

namespace Retouch.Script

/-- Note that a word that is an operator here is used as a name. -/
def checkOperatorName (c : Ctx) : Prog Unit := do
  match ← kind with
  | .keyword .await => if c.awaiting then report (.operatorAsName Keyword.await.text) else pure ()
  | .keyword .yield => if c.yielding then report (.operatorAsName Keyword.yield.text) else pure ()
  | _ => pure ()

/-- The name of something that is declared here. -/
def bindingName (c : Ctx) : Prog Unit := do
  let t ← token
  if t.kind.isBinding then
    checkOperatorName c
    advanceName
  else
    match t.kind with
    | .keyword word => stop (.reservedName word.text)
    | _ => unexpected

/-- Any word, as a name. -/
def anyWord : Prog Unit := do
  if (← kind).isWord then advanceName else unexpected

/-- The type of something, behind a mark, if it is written. -/
def annotation (c : Ctx) : Prog Unit := do
  if c.typed then
    if ← eat .colon then skip { c with plainTypes := false } .type
    else pure ()
  else pure ()

/-- The type of a result, behind a colon, if it is written. -/
def resultAnnotation (c : Ctx) : Prog Bool := do
  if c.typed then
    if ← at? .colon then
      skip { c with plainTypes := false } (.returnType .colon)
      return true
    else return false
  else return false

/-- A value given behind an equals sign, if there is one. -/
def initialValue (c : Ctx) : Prog Unit := do
  if ← eat .assign then skip c .plainAssignment else pure ()

/-- The name of a property: a word, a literal, or an expression in brackets. -/
def propertyName (c : Ctx) (allowPrivate : Bool) : Prog Unit := do
  match ← kind with
  | .punct .bracketOpen =>
    advance
    skip c.enclosed .plainAssignment
    expect .bracketClose
  | .string _ | .number | .bigNumber => advance
  | .privateName => if allowPrivate then advance else unexpected
  | _ => anyWord

/-- Types or parameters for types up to the angle bracket: one at least. -/
def typeList (c : Ctx) (item : Rule) : Prog Unit := do
  let start ← lastStop
  let items ← call { c with plainTypes := false } (.list item .greater)
  if items.count == 0 then reportAt start .emptyTypeList else return ()

/-- Parameters for types, in angle brackets, if there are any. -/
def typeParameters (c : Ctx) : Prog Unit := do
  if c.typed then
    if ← at? .less then
      advance
      typeList c .typeParameter
      expect .greater
    else pure ()
  else pure ()

/-- Arguments for types, in angle brackets, if they stand on this line. -/
def typeArgumentsHere (c : Ctx) : Prog Unit := do
  let t ← token
  if c.typed && !t.onNewLine && (t.kind == .punct .less || t.kind == .punct .shiftLeft) then
    skip c .typeArguments
  else pure ()

/-- Whether a token can follow a modifier: the beginning of a name, or a star. -/
def followsModifier (k : TokenKind) : Bool :=
  k.startsPropertyName || k == .punct .star

/-- Whether the current word is a modifier of the member that follows it. One that says where the
member belongs may end its line; the others may not. -/
def isMemberModifier (seen : List Keyword) : Prog Bool := do
  match ← kind with
  | .keyword word =>
    if !word.isModifier then return false
    else
      let next ← perform (.look 1)
      if word == .static then
        return !seen.contains .static && followsModifier next.kind
      else
        return !next.onNewLine && followsModifier next.kind
  | _ => return false

/-- Whether a modifier is only for typed sources. -/
def isTypedModifier (word : Keyword) : Bool :=
  match word with
  | .abstract_ | .declare | .override | .private_ | .protected_ | .public_ | .readonly => true
  | _ => false

/-- The modifiers of a class member, at most `most` more of them. -/
def memberModifiers (c : Ctx) : (most : Nat) → List Keyword → Prog (List Keyword)
  | 0, seen => return seen
  | most + 1, seen => do
    if ← isMemberModifier seen then
      match ← kind with
      | .keyword word =>
        if isTypedModifier word then needTypes c
        else if word == .static || word == .async || word == .accessor then pure ()
        else report .misplacedModifier
        advance
        memberModifiers c most (word :: seen)
      | _ => return seen
    else return seen

/-- The body of `Rule.list`: items with commas between them, up to a closing mark. -/
def listRule (c : Ctx) (item : Rule) (close : Punct) : Prog ListEnd := do
  let k ← kind
  if k == .punct close || k == .endOfSource then return ⟨0, none⟩
  else call c (.listFrom item close)

/-- The body of `Rule.listFrom`: at least one item. A comma may follow the last one. -/
def listFromRule (c : Ctx) (item : Rule) (close : Punct) : Prog ListEnd := do
  skip c item
  let t ← token
  if t.kind == .punct close || t.kind == .endOfSource then return ⟨1, none⟩
  else
    expect .comma
    if ← at? close then return ⟨1, some t.start⟩
    else
      let rest ← call c (.listFrom item close)
      return ⟨rest.count + 1, rest.trailingComma⟩

/-- Whether an operand can begin with the token behind the current one, on the same line. -/
def operandFollows : Prog Bool := do
  let next ← perform (.look 1)
  return !next.onNewLine && (next.kind.isWord || next.kind.isLiteral)

end Retouch.Script
