import Retouch.Script.Names

/-!
# Types

The rules for types. They find no markup; they only say where a type ends.
-/

namespace Retouch.Script

/-! ## Looking ahead -/

/-- Whether the brace here begins a type that maps over keys. -/
def startsMappedType : Prog Bool := do
  let first ← kindAhead 1
  if first == .punct .plus || first == .punct .minus then
    return (← kindAhead 2) == .keyword .readonly
  else
    let i := if first == .keyword .readonly then 2 else 1
    return (← kindAhead i) == .punct .bracketOpen && (← kindAhead (i + 1)).isWord
      && (← kindAhead (i + 2)) == .keyword .in_

/-- Whether the bracket here begins an index signature. -/
def startsIndexSignature : Prog Bool := do
  if !(← at? .bracketOpen) then return false
  else
    let first ← kindAhead 1
    if first == .punct .ellipsis || first == .punct .bracketClose then return true
    else if !first.isIdentifier then return false
    else
      let second ← kindAhead 2
      if second == .punct .colon || second == .punct .comma then return true
      else if second == .punct .question then
        let third ← kindAhead 3
        return third == .punct .colon || third == .punct .comma || third == .punct .bracketClose
      else return false

/-- Whether a type can begin with a token. -/
def startsType (k : TokenKind) : Bool :=
  match k with
  | .name _ | .string _ | .number | .bigNumber | .template true _ _ => true
  | .punct p =>
    match p with
    | .braceOpen | .bracketOpen | .less | .bitOr | .bitAnd | .star | .question | .not | .ellipsis
    | .minus | .parenOpen => true
    | _ => false
  | .keyword word =>
    match word with
    | .void | .null | .this | .typeOf | .new | .true_ | .false_ | .function | .import_ => true
    | word => !word.isReserved
  | _ => false

/-- How the parenthesis here goes on, as far as a type can tell. -/
inductive ParenthesisedType where
  /-- Parameters: this is the type of a function. -/
  | parameters
  /-- A pattern, with which parameters or an object type may begin. -/
  | perhapsParameters
  | type
deriving DecidableEq

/-- Tell whether the parenthesis here begins the parameters of a function type. -/
def parenthesisedType : Prog ParenthesisedType := do
  let first ← kindAhead 1
  if first == .punct .parenClose || first == .punct .ellipsis then return .parameters
  else if first == .punct .braceOpen || first == .punct .bracketOpen then return .perhapsParameters
  else if first.isBinding || first == .keyword .this then
    match ← kindAhead 2 with
    | .punct .colon | .punct .comma | .punct .question | .punct .assign => return .parameters
    | .punct .parenClose =>
      return if (← kindAhead 3) == .punct .arrow then .parameters else .type
    | k => return if k.isBinding then .perhapsParameters else .type
  else return .type

/-! ## Types as a whole -/

/-- A type, conditional or not. -/
def typeRule (c : Ctx) : Prog Unit := do
  let asFunction ← match ← kind with
    | .punct .less | .keyword .new => do
      skip c .functionType
      pure true
    | .keyword .abstract_ =>
      if (← kindAhead 1) == .keyword .new then do
        skip c .functionType
        pure true
      else pure false
    | .punct .parenOpen =>
      match ← parenthesisedType with
      | .parameters => do
        skip c .functionType
        pure true
      | .perhapsParameters => do pure (← attempt c .functionType).isSome
      | .type => pure false
    | _ => pure false
  if asFunction then return ()
  else
    skip c .unionType
    let t ← token
    if !c.plainTypes && !t.onNewLine && t.kind == .keyword .extends_ then
      advance
      skip { c with plainTypes := true } .type
      expect .question
      skip { c with plainTypes := false } .type
      expect .colon
      skip { c with plainTypes := false } .type
    else return ()

/-- The type of a function or constructor. -/
def functionTypeRule (c : Ctx) : Prog Unit := do
  let _ ← eatWord .abstract_
  let _ ← eatWord .new
  typeParameters c
  skip c .parameters
  skip c (.returnType .arrow)

/-- The type of a result behind a mark: a type, or a statement about a parameter. -/
def returnTypeRule (c : Ctx) (mark : Punct) : Prog Unit := do
  expect mark
  let next ← perform (.look 1)
  if (← kind).isIdentifier && next.kind == .keyword .is && !next.onNewLine then
    advanceName
    advance
    skip c .type
  else skip c .type

/-- The operands of `&`, the first behind an optional mark. -/
def intersection (c : Ctx) : Prog Unit := do
  let _ ← eat .bitAnd
  skip c .operatorType
  skip c (.unionRest .bitAnd)

/-- A union of intersections of types. -/
def unionTypeRule (c : Ctx) : Prog Unit := do
  let _ ← eat .bitOr
  intersection c
  skip c (.unionRest .bitOr)

/-- The operands behind the first one. -/
def unionRestRule (c : Ctx) (mark : Punct) : Prog Unit := do
  if ← eat mark then
    if mark == .bitOr then intersection c else skip c .operatorType
    skip c (.unionRest mark)
  else return ()

/-- A type behind an operator, or one to be inferred. -/
def operatorTypeRule (c : Ctx) : Prog Unit := do
  match ← kind with
  | .keyword .keyOf | .keyword .unique | .keyword .readonly =>
    advance
    skip c .operatorType
  | .keyword .infer_ =>
    advance
    bindingName c
    if ← atWord? .extends_ then
      let _ ← attempt c .inferConstraint
      return ()
    else return ()
  | _ => skip { c with plainTypes := false } .postfixType

/-- The bound of an inferred type, unless it turns out to be a condition. -/
def inferConstraintRule (c : Ctx) : Prog Unit := do
  expectWord .extends_
  skip { c with plainTypes := true } .type
  if c.plainTypes || !(← at? .question) then return () else unexpected

/-! ## Simple types -/

/-- Names joined by points, behind the first one. -/
def dottedRule (c : Ctx) : Prog Unit := do
  if ← eat .dot then
    anyWord
    skip c .dotted
  else return ()

/-- A type by its name. -/
def typeReference (c : Ctx) : Prog Unit := do
  anyWord
  skip c .dotted
  typeArgumentsHere c

/-- A type that another source exports. -/
def importType (c : Ctx) : Prog Unit := do
  expectWord .import_
  expect .parenOpen
  skip c .type
  if ← eat .comma then
    if ← at? .parenClose then pure ()
    else
      skip c .plainAssignment
      let _ ← eat .comma
      pure ()
  else pure ()
  expect .parenClose
  skip c .dotted
  typeArgumentsHere c

/-- The type of a value. -/
def typeQuery (c : Ctx) : Prog Unit := do
  expectWord .typeOf
  if ← atWord? .import_ then importType c
  else typeReference c

/-- The members of an object type, in braces. -/
def objectType (c : Ctx) : Prog Unit := do
  expect .braceOpen
  skip c .typeMembers
  expect .braceClose

/-- A sign and the word or mark behind it, or the word or mark alone, if it is there. -/
def signed (rest : Prog Bool) (needed : Prog Unit) : Prog Unit := do
  let k ← kind
  if k == .punct .plus || k == .punct .minus then
    advance
    needed
  else
    let _ ← rest
    return ()

/-- A type that maps over keys. -/
def mappedType (c : Ctx) : Prog Unit := do
  expect .braceOpen
  signed (eatWord .readonly) (expectWord .readonly)
  expect .bracketOpen
  anyWord
  expectWord .in_
  skip c .type
  if ← eatWord .as_ then skip c .type else pure ()
  expect .bracketClose
  signed (eat .question) (expect .question)
  annotation c
  if ← eat .semicolon then pure ()
  else
    let _ ← eat .comma
    pure ()
  expect .braceClose

/-- A type without operators around it. -/
def simpleType (c : Ctx) : Prog Unit := do
  match ← kind with
  | .string _ | .number | .bigNumber => advance
  | .template true toEnd _ =>
    advance
    if toEnd then return () else skip c .typeTemplateRest
  | .punct .minus =>
    advance
    match ← kind with
    | .number | .bigNumber => advance
    | _ => unexpected
  | .punct .braceOpen => if ← startsMappedType then mappedType c else objectType c
  | .punct .bracketOpen =>
    advance
    skip c (.list .tupleItem .bracketClose)
    expect .bracketClose
  | .punct .parenOpen =>
    advance
    skip c .type
    expect .parenClose
  | .punct .question =>
    advance
    match ← kind with
    | .punct .comma | .punct .braceClose | .punct .parenClose | .punct .greater | .punct .assign
    | .punct .bitOr => return ()
    | _ => skip c .type
  | .punct .not =>
    advance
    skip c .postfixType
  | .punct .star => advance
  | .keyword word =>
    match word with
    | .null | .void | .true_ | .false_ => advance
    | .this =>
      advance
      let t ← token
      if t.kind == .keyword .is && !t.onNewLine then
        advance
        skip c .type
      else return ()
    | .typeOf => typeQuery c
    | .import_ => importType c
    | .asserts =>
      let next ← perform (.look 1)
      if !next.onNewLine && (next.kind.isIdentifier || next.kind == .keyword .this) then
        advance
        advanceName
        if ← eatWord .is then skip c .type else return ()
      else typeReference c
    | .any | .unknown | .string | .number | .bigint | .symbol | .boolean | .undefined | .never
    | .object =>
      if (← kindAhead 1) == .punct .dot then typeReference c else advanceName
    | _ => typeReference c
  | .name _ => typeReference c
  | _ => unexpected

/-- A type with what may stand behind it on its line. -/
def postfixTypeRule (c : Ctx) : Prog Unit := do
  simpleType c
  skip c .postfixRest

/-- What stands behind a type: brackets of an array or an index, and the marks of notes. -/
def postfixRestRule (c : Ctx) : Prog Unit := do
  let t ← token
  if t.onNewLine then return ()
  else
    match t.kind with
    | .punct .not =>
      advance
      skip c .postfixRest
    | .punct .question =>
      if startsType (← kindAhead 1) then return ()
      else
        advance
        skip c .postfixRest
    | .punct .bracketOpen =>
      advance
      if startsType (← kind) then skip c .type else pure ()
      expect .bracketClose
      skip c .postfixRest
    | _ => return ()

/-- The substitutions of a template that is a type. -/
def typeTemplateRestRule (c : Ctx) : Prog Unit := do
  skip c .type
  demand .braceClose
  perform (.reread .template)
  match ← kind with
  | .template false toEnd _ =>
    advance
    if toEnd then return () else skip c .typeTemplateRest
  | _ => unexpected

/-- An item of a tuple, with or without a name. -/
def tupleItemRule (c : Ctx) : Prog Unit := do
  let i := if ← at? .ellipsis then 1 else 0
  let named ←
    if (← kindAhead i).isWord then
      match ← kindAhead (i + 1) with
      | .punct .colon => pure true
      | .punct .question => pure ((← kindAhead (i + 2)) == .punct .colon)
      | _ => pure false
    else pure false
  let _ ← eat .ellipsis
  if named then
    advanceName
    let _ ← eat .question
    expect .colon
    skip c .type
  else skip c .type

/-! ## Parameters and arguments -/

/-- A parameter for types. -/
def typeParameterRule (c : Ctx) : Prog Unit := do
  let rec modifiers : Nat → Prog Unit
    | 0 => return ()
    | n + 1 => do
      match ← kind with
      | .keyword .const | .keyword .in_ | .keyword .out =>
        if (← kindAhead 1).isWord && (← kindAhead 1) != .keyword .extends_ then
          advance
          modifiers n
        else return ()
      | _ => return ()
  modifiers 4
  bindingName c
  if ← eatWord .extends_ then skip c .type else pure ()
  if ← eat .assign then skip c .type else pure ()

/-- Arguments for types, in angle brackets. -/
def typeArgumentsRule (c : Ctx) : Prog Unit := do
  perform (.reread .less)
  expect .less
  typeList c .type
  expect .greater

/-- Whether a token is an operator with two operands. -/
def isBinaryOperator (c : Ctx) (k : TokenKind) : Bool :=
  match k with
  | .punct p => p.precedence?.isSome
  | .keyword .in_ => c.inOperator
  | .keyword .instanceOf | .keyword .as_ | .keyword .satisfies => true
  | _ => false

/-- Whether an expression can begin with a token. -/
def startsExpression (k : TokenKind) : Bool :=
  match k with
  | .name _ | .number | .bigNumber | .string _ | .template true _ _ | .privateName | .regex => true
  | .punct p =>
    match p with
    | .parenOpen | .bracketOpen | .braceOpen | .slash | .slashAssign | .plus | .minus | .tilde | .not
    | .plusPlus | .minusMinus | .less | .at => true
    | _ => false
  | .keyword word =>
    match word with
    | .this | .super | .null | .true_ | .false_ | .function | .class_ | .new | .import_ | .delete_
    | .typeOf | .void | .await | .yield => true
    | word => !word.isReserved
  | _ => false

/-- Arguments for types in an expression. What follows them must not be an operand: then the angle
brackets are comparisons. -/
def callTypeArgumentsRule (c : Ctx) : Prog Unit := do
  perform (.reread .less)
  expect .less
  typeList c .type
  demand .greater
  perform (.reread .greater)
  expect .greater
  let t ← token
  match t.kind with
  | .punct .parenOpen | .template true _ _ => return ()
  | .punct .less | .punct .greater | .punct .plus | .punct .minus => unexpected
  | k =>
    if t.onNewLine || isBinaryOperator c k || !startsExpression k then return () else unexpected

/-! ## Members -/

/-- The end of a member of a type. -/
def memberEnd : Prog Unit := do
  if ← eat .comma then return () else endStatement

/-- The parameters and the result of something that can be called. -/
def signature (c : Ctx) : Prog Unit := do
  typeParameters c
  skip c .parameters
  let _ ← resultAnnotation c
  return ()

/-- An index signature, behind its modifiers. -/
def indexSignature (c : Ctx) : Prog Unit := do
  expect .bracketOpen
  bindingName c
  let _ ← eat .question
  annotation c
  let _ ← eat .comma
  expect .bracketClose
  annotation c
  memberEnd

/-- Whether the word here is an accessor's, and not its name. -/
def isAccessor : Prog Bool := do
  match ← kind with
  | .keyword .get | .keyword .set_ => return (← kindAhead 1).startsPropertyName
  | _ => return false

/-- A member of an object type or interface. -/
def typeMember (c : Ctx) : Prog Unit := do
  let callable := fun k : TokenKind => k == .punct .parenOpen || k == .punct .less
  if callable (← kind) then
    signature c
    memberEnd
  else if (← atWord? .new) && callable (← kindAhead 1) then
    advance
    signature c
    memberEnd
  else
    let seen ← memberModifiers c 8 []
    if seen.any (fun word => word != .readonly) then report .misplacedModifier else pure ()
    if ← isAccessor then
      advance
      propertyName c false
      signature c
      memberEnd
    else if ← startsIndexSignature then indexSignature c
    else
      propertyName c false
      let _ ← eat .question
      if callable (← kind) then
        signature c
        memberEnd
      else
        annotation c
        memberEnd

/-- The members of an object type or interface, up to the brace. -/
def typeMembersRule (c : Ctx) : Prog Unit := do
  let k ← kind
  if k == .punct .braceClose || k == .endOfSource then return ()
  else
    typeMember c
    skip c .typeMembers

end Retouch.Script
