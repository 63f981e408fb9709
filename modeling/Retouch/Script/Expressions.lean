import Retouch.Script.Functions
import Retouch.Script.Types

/-!
# Expressions

The rules for expressions, from sequences down to operands. Each gives what later steps ask of the
expression: whether it is a bare name or a string literal, and whether it can be assigned to.
-/

namespace Retouch.Script

/-! ## Targets -/

/-- Take an expression as the target of an assignment; `patterns` says whether arrays and objects
will do. -/
def assignTo (e : Expr) (patterns : Bool) : Prog Unit := do
  match e.target with
  | .simple => return ()
  | .pattern defaults =>
    if patterns then perform (.clear defaults) else stopAt e.start .invalidTarget
  | .none => stopAt e.start .invalidTarget

/-- What is left of a target in parentheses or behind a cast: only a simple one. -/
def Target.inner : Target → Target
  | .simple => .simple
  | _ => .none

/-! ## Sequences and assignments -/

/-- An expression that may be a sequence. -/
def expressionRule (c : Ctx) : Prog Expr := do
  let inner := { c with decorating := false }
  let first ← call inner (.assignment true)
  call inner (.expressionRest first)

/-- The expressions of a sequence behind the first one. -/
def expressionRestRule (c : Ctx) (first : Expr) : Prog Expr := do
  if ← eat .comma then
    skip c .plainAssignment
    call c (.expressionRest (.plain first.start .other))
  else return first

/-- A `yield` with the value it gives, if it gives one. -/
def yieldExpression (c : Ctx) : Prog Expr := do
  let start ← here
  if c.yielding then pure () else report .yieldOutsideGenerator
  advance
  let t ← token
  if t.onNewLine then return .plain start .other
  else if ← eat .star then
    skip c .plainAssignment
    return .plain start .other
  else
    match t.kind with
    | .endOfSource | .punct .parenClose | .punct .bracketClose | .punct .braceClose
    | .punct .comma | .punct .semicolon | .punct .colon | .keyword .in_ =>
      return .plain start .other
    | _ =>
      skip c .plainAssignment
      return .plain start .other

/-- What follows the condition of a conditional expression. -/
def conditionalRest (c : Ctx) (condition : Expr) (returnType : Bool) : Prog Expr := do
  if ← eat .question then
    skip c.enclosed (.assignment false)
    expect .colon
    skip c (.assignment returnType)
    return .plain condition.start .other
  else return condition

/-- An expression without commas. In the middle of a conditional expression an arrow function does
not take a type of its result that ends the condition: `returnType` is false there. -/
def assignmentRule (c : Ctx) (returnType : Bool) : Prog Expr := do
  let yields ← if ← atWord? .yield then
      if c.yielding then pure true else operandFollows
    else pure false
  if yields then yieldExpression c
  else
    match ← arrowFunction? c returnType with
    | some e => return e
    | none =>
      match ← asyncArrow? c returnType with
      | some e => return e
      | none =>
        let left ← call c (.binary 0)
        let t ← token
        match left.shape, t.kind with
        | .name _, .punct .arrow =>
          if t.onNewLine then report .lineBreak else pure ()
          advance
          skip c (.arrowBody ⟨false, false⟩ returnType)
          return .plain left.start .arrow
        | _, .punct mark =>
          if mark.assigns then
            let plain := mark == .assign
            assignTo left plain
            advance
            skip c (.assignment returnType)
            return ⟨left.start, .assignment, .none, if plain then .pattern [] else .none⟩
          else conditionalRest c left returnType
        | _, _ => return left

/-! ## Operators -/

/-- How closely the operator binds that a token is. -/
def operatorPrecedence? (c : Ctx) (k : TokenKind) : Option Nat :=
  match k with
  | .punct p => p.precedence?
  | .keyword .in_ => if c.inOperator then some 8 else none
  | .keyword .instanceOf | .keyword .as_ | .keyword .satisfies => some 8
  | _ => none

/-- Operands joined by operators that bind closer than `least`. -/
def binaryRule (c : Ctx) (least : Nat) : Prog Expr := do
  let t ← token
  if c.inOperator && t.kind == .privateName then
    advance
    if (← atWord? .in_) && least < 8 then pure () else unexpected
    advance
    skip c (.binary 8)
    call c (.binaryRest least (.plain t.start .other))
  else
    let left ← call c .unary
    call c (.binaryRest least left)

/-- What is wrong with the operands of an operator. -/
def checkOperands (mark : Punct) (left right : Expr) : Prog Unit := do
  let either := fun shape : Shape => left.shape == shape || right.shape == shape
  let mixed := match mark with
    | .coalesce => either Shape.logical
    | .logicOr | .logicAnd => either Shape.coalesce
    | _ => false
  if mixed then reportAt left.start .mixedCoalesce
  else if mark == Punct.power && (left.shape == Shape.unary || left.shape == Shape.awaiting) then
    reportAt left.start .unaryBeforePower
  else return ()

/-- What follows an operand: operators that bind closer than `least`, with their operands. -/
def binaryRestRule (c : Ctx) (least : Nat) (left : Expr) : Prog Expr := do
  perform (.reread .greater)
  let t ← token
  match operatorPrecedence? c t.kind with
  | none => return left
  | some precedence =>
    let power := t.kind == .punct .power
    if (if power then precedence < least else precedence ≤ least) then return left
    else
      match t.kind with
      | .keyword .as_ | .keyword .satisfies =>
        if t.onNewLine then return left
        else
          needTypes c
          advance
          skip c .type
          call c (.binaryRest least ⟨left.start, .other, left.target.inner, left.target.inner⟩)
      | k =>
        advance
        let right ← call c (.binary precedence)
        let shape ← match k with
          | .punct mark => do
            checkOperands mark left right
            pure (match mark with
              | .coalesce => Shape.coalesce
              | .logicOr | .logicAnd => Shape.logical
              | _ => Shape.other)
          | _ => pure Shape.other
        call c (.binaryRest least (.plain left.start shape))

/-- Whether a token is an operator with one operand. -/
def isUnaryOperator (k : TokenKind) : Bool :=
  match k with
  | .punct .plus | .punct .minus | .punct .tilde | .punct .not => true
  | .keyword .delete_ | .keyword .typeOf | .keyword .void => true
  | _ => false

/-- Whether a token raises or lowers a variable. -/
def isUpdate (k : TokenKind) : Bool := k == .punct .plusPlus || k == .punct .minusMinus

/-- An operand that may be raised or lowered. -/
def updateExpression (c : Ctx) : Prog Expr := do
  let t ← token
  if isUpdate t.kind then
    advance
    let e ← call c .unary
    assignTo e false
    return .plain t.start .other
  else
    let next ← kindAhead 1
    if t.kind == .punct .less && (next.isWord || next == .punct .greater) then
      emitElement c
      return .plain t.start .other
    else
      let e ← call c .leftHand
      let t ← token
      if isUpdate t.kind && !t.onNewLine then
        assignTo e false
        advance
        return .plain e.start .other
      else return e

/-- An operand with the operators before it. -/
def simpleUnaryRule (c : Ctx) : Prog Expr := do
  let t ← token
  if isUnaryOperator t.kind then
    advance
    skip c .simpleUnary
    return .plain t.start .unary
  else
    let awaits ← if t.kind == .keyword .await then
        if c.awaiting then pure true else operandFollows
      else pure false
    if awaits then
      if c.awaiting then pure () else report .awaitOutsideAsync
      advance
      skip { c with awaiting := true } .simpleUnary
      return .plain t.start .awaiting
    else updateExpression c

/-- An operand, perhaps raised or lowered, with the operators before it. -/
def unaryRule (c : Ctx) : Prog Expr := call c .simpleUnary

/-! ## Operands -/

/-- A name as an operand. -/
def identifier (c : Ctx) : Prog Expr := do
  let t ← token
  match t.kind.word? with
  | some word =>
    if t.kind.isBinding then
      checkOperatorName c
      advanceName
      return ⟨t.start, .name word, .simple, .simple⟩
    else unexpected
  | none => unexpected

/-- The substitutions of a template. One behind a function name may have unsound escapes. -/
def templateRestRule (c : Ctx) (tagged : Bool) : Prog Unit := do
  skip c.enclosed .expression
  demand .braceClose
  perform (.reread .template)
  match ← kind with
  | .template false toEnd sound =>
    if sound || tagged then pure () else report .invalidEscape
    advance
    if toEnd then return () else skip c (.templateRest tagged)
  | _ => unexpected

/-- A template. -/
def template (c : Ctx) (tagged : Bool) : Prog Unit := do
  match ← kind with
  | .template true toEnd sound =>
    if sound || tagged then pure () else report .invalidEscape
    advance
    if toEnd then return () else skip c (.templateRest tagged)
  | _ => unexpected

/-- An argument, or several. -/
def argumentRule (c : Ctx) : Prog Unit := do
  let _ ← eat .ellipsis
  skip c .plainAssignment

/-- Arguments in parentheses. -/
def arguments (c : Ctx) : Prog Unit := do
  expect .parenOpen
  skip c.enclosed (.list .argument .parenClose)
  expect .parenClose

/-- The items of an array up to the bracket, and whether they can be targets. -/
def arrayItemsRule (c : Ctx) : Prog Target := do
  let k ← kind
  if k == .punct .bracketClose || k == .endOfSource then return .pattern []
  else if ← eat .comma then call c .arrayItems
  else
    let spread ← eat .ellipsis
    let e ← call c (.assignment true)
    let part := if spread then e.target else e.part
    let k ← kind
    if k == .punct .bracketClose || k == .endOfSource then return part.both (.pattern [])
    else
      expect .comma
      let rest ← call c .arrayItems
      return (if spread then Target.none else part).both rest

/-- A property of an object, and whether it can be a target. -/
def objectItem (c : Ctx) : Prog Target := do
  let t ← token
  let next ← perform (.look 1)
  if t.kind == .punct .ellipsis then
    advance
    let e ← call c (.assignment true)
    return e.target.inner
  else if ← isAccessor then
    advance
    propertyName c false
    skip c (.methodRest false false)
    return .none
  else if t.kind == .keyword .async && !next.onNewLine
      && (next.kind.startsPropertyName || next.kind == .punct .star) then
    advance
    let generator ← eat .star
    propertyName c false
    skip c (.methodRest true generator)
    return .none
  else if ← eat .star then
    propertyName c false
    skip c (.methodRest false true)
    return .none
  else
    let called := next.kind == .punct .parenOpen || (c.typed && next.kind == .punct .less)
    if t.kind.isBinding && next.kind != .punct .colon && !called then checkOperatorName c
    else pure ()
    propertyName c false
    let k ← kind
    if k == .punct .parenOpen || (c.typed && k == .punct .less) then
      skip c (.methodRest false false)
      return .none
    else if t.kind.isBinding && k != .punct .colon then
      if ← eat .assign then
        perform (.suspect t.start)
        skip c .plainAssignment
        return .pattern [t.start]
      else return .simple
    else
      expect .colon
      let e ← call c (.assignment true)
      return e.part

/-- The properties of an object up to the brace, and whether they can be targets. -/
def objectItemsRule (c : Ctx) : Prog Target := do
  let k ← kind
  if k == .punct .braceClose || k == .endOfSource then return .pattern []
  else
    let spread := k == .punct .ellipsis
    let part ← objectItem c
    let k ← kind
    if k == .punct .braceClose || k == .endOfSource then return part.both (.pattern [])
    else
      expect .comma
      let rest ← call c .objectItems
      return (if spread then Target.none else part).both rest

/-- An expression in parentheses. -/
def parenthesised (c : Ctx) : Prog Expr := do
  let start ← here
  expect .parenOpen
  let e ← call c.enclosed .expression
  expect .parenClose
  return ⟨start, .other, e.target.inner, e.target.inner⟩

/-- What follows `new`: a constructor with its arguments, if it has any, or `.target`. -/
def construction (c : Ctx) : Prog Expr := do
  let start ← here
  advance
  if ← eat .dot then
    expectWord .target
    return .plain start .other
  else
    let e ← call c .primary
    let (e, _) ← call c (.memberRest false false e)
    if e.shape == .importCall then reportAt e.start .unexpectedToken else pure ()
    if ← at? .questionDot then report .chainNotAllowed else pure ()
    if ← at? .parenOpen then arguments c else pure ()
    return .plain start .other

/-- An expression that begins with `import`: a call, or what is known of the source itself. -/
def importExpression (c : Ctx) : Prog Expr := do
  let start ← here
  advance
  if ← eat .dot then
    match ← kind with
    | .keyword .meta_ =>
      advance
      return .plain start .other
    | .keyword .source | .keyword .defer =>
      advance
      arguments c
      return .plain start .importCall
    | _ => unexpected
  else
    expect .parenOpen
    skip c.enclosed .plainAssignment
    if ← eat .comma then
      if ← at? .parenClose then pure ()
      else
        skip c.enclosed .plainAssignment
        let _ ← eat .comma
        pure ()
    else pure ()
    expect .parenClose
    return .plain start .importCall

/-- `super`, with what has to follow it. -/
def superExpression : Prog Expr := do
  let start ← here
  advance
  match ← kind with
  | .punct .dot | .punct .parenOpen | .punct .bracketOpen => return .plain start .other
  | _ =>
    reportAt start .superAlone
    return .plain start .other

/-- An operand without anything behind it. -/
def primaryRule (c : Ctx) : Prog Expr := do
  let t ← token
  let done := Expr.plain t.start .other
  match t.kind with
  | .name _ => identifier c
  | .number | .bigNumber | .regex =>
    advance
    return done
  | .string value =>
    advance
    return .plain t.start (.string value)
  | .template true _ _ =>
    template c false
    return done
  | .punct mark =>
    match mark with
    | .slash | .slashAssign =>
      perform (.reread .regex)
      if (← kind) == .regex then
        advance
        return done
      else unexpected
    | .less =>
      emitElement c
      return done
    | .braceOpen =>
      advance
      let target ← call c.enclosed .objectItems
      expect .braceClose
      return ⟨t.start, .other, target, target⟩
    | .bracketOpen =>
      advance
      let target ← call c.enclosed .arrayItems
      expect .bracketClose
      return ⟨t.start, .other, target, target⟩
    | .parenOpen => parenthesised c
    | .at =>
      skip c .decorators
      if ← atWord? .class_ then
        skip c .classRest
        return done
      else unexpected
    | _ => unexpected
  | .keyword word =>
    match word with
    | .true_ | .false_ | .null | .this =>
      advance
      return done
    | .function =>
      skip c (.function .expression false)
      return done
    | .class_ =>
      skip c .classRest
      return done
    | .new => construction c
    | .super => superExpression
    | .import_ => importExpression c
    | .async =>
      let next ← perform (.look 1)
      if next.kind == .keyword .function && !next.onNewLine then
        advance
        skip c (.function .expression true)
        return done
      else identifier c
    | _ => identifier c
  | _ => unexpected

/-- Members, casts, templates and type arguments behind an operand; also whether they are part of
an optional chain. -/
def memberRestRule (c : Ctx) (chain allowChain : Bool) (e : Expr) : Prog (Expr × Bool) := do
  let t ← token
  let member := fun chain : Bool =>
    let target := if chain then Target.none else Target.simple
    call c (.memberRest chain allowChain ⟨e.start, .other, target, target⟩)
  let index : Prog Unit := do
    advance
    skip c.enclosed .expression
    expect .bracketClose
  match t.kind with
  | .punct .bracketOpen =>
    if c.decorating then return (e, chain)
    else
      index
      member chain
  | .punct .dot =>
    advance
    if (← kind) == .privateName then advance else anyWord
    member chain
  | .punct .questionDot =>
    let next ← kindAhead 1
    if !allowChain then return (e, chain)
    else if next == .punct .bracketOpen && !c.decorating then
      advance
      index
      member true
    else if next == .privateName || next.isWord then
      advance
      if (← kind) == .privateName then advance else anyWord
      member true
    else return (e, chain)
  | .punct .not =>
    if c.typed && !t.onNewLine then
      advance
      call c (.memberRest chain allowChain ⟨e.start, .other, e.target.inner, e.target.inner⟩)
    else return (e, chain)
  | .template true _ _ =>
    if chain then report .chainNotAllowed else pure ()
    template c true
    call c (.memberRest chain allowChain (.plain e.start .other))
  | .punct .less | .punct .shiftLeft =>
    if c.typed then
      match ← attempt c .callTypeArguments with
      | some _ => call c (.memberRest chain allowChain (.plain e.start .instantiation))
      | none => return (e, chain)
    else return (e, chain)
  | _ => return (e, chain)

/-- Calls and members behind an operand. -/
def callRestRule (c : Ctx) (chain : Bool) (e : Expr) : Prog Expr := do
  let (e, chain) ← call c (.memberRest chain true e)
  let optional ← eat .questionDot
  let typeArguments ←
    if optional && c.typed && ((← at? .less) || (← at? .shiftLeft)) then
      pure (← attempt c .callTypeArguments).isSome
    else pure false
  if optional && (← kind).startsTemplate then report .chainNotAllowed else pure ()
  if typeArguments || (← at? .parenOpen) then
    arguments c
    call c (.callRest (chain || optional) (.plain e.start .other))
  else if optional then unexpected
  else return e

/-- An operand with calls and members. -/
def leftHandRule (c : Ctx) : Prog Expr := do
  let e ← call c .primary
  call c (.callRest false e)

end Retouch.Script
