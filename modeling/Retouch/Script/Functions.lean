import Retouch.Script.Patterns

/-!
# Functions

Parameters, bodies, and the two forms of arrow functions. An arrow function in parentheses begins
like a parenthesised expression: `parenthesisedArrow` says what a few tokens tell, and where they
do not tell enough the head is tried.
-/

namespace Retouch.Script

/-! ## Parameters and bodies -/

/-- Modifiers of a parameter in a typed source, at most `most` more of them. -/
def parameterModifiers (c : Ctx) : (most : Nat) → Prog Unit
  | 0 => return ()
  | most + 1 => do
    match ← kind with
    | .keyword word =>
      let next ← kindAhead 1
      if c.typed && isTypedModifier word
          && (next.isBinding || next == .punct .braceOpen || next == .punct .bracketOpen) then
        advance
        parameterModifiers c most
      else return ()
    | _ => return ()

/-- Parameters, in parentheses. -/
def parametersRule (c : Ctx) : Prog Unit := do
  expect .parenOpen
  if c.typed && (← atWord? .this) then
    advance
    annotation c
    if ← at? .parenClose then pure () else expect .comma
  else pure ()
  skip c.enclosed .parameterItems
  expect .parenClose

/-- The parameters up to the parenthesis. -/
def parameterItemsRule (c : Ctx) : Prog Unit := do
  let k ← kind
  if k == .punct .parenClose || k == .endOfSource then return ()
  else
    skip c .decorators
    if ← eat .ellipsis then
      skip c .pattern
      if c.typed then
        let _ ← eat .question
        pure ()
      else pure ()
      annotation c
      checkLast
    else
      parameterModifiers c 4
      skip c .pattern
      if c.typed then
        let _ ← eat .question
        pure ()
      else pure ()
      annotation c
      initialValue c
      if ← at? .parenClose then return ()
      else
        expect .comma
        skip c .parameterItems

/-- The body of a function, in braces. -/
def functionBodyRule (c : Ctx) : Prog Unit := do
  expect .braceOpen
  skip { c.enclosed with returning := true } (.statements false)
  expect .braceClose

/-- A function behind its name: parameters, result, and the body if it has one. -/
def methodRestRule (c : Ctx) (async generator : Bool) : Prog Unit := do
  let inner := c.function async generator
  typeParameters inner
  skip inner .parameters
  let _ ← resultAnnotation inner
  if ← at? .braceOpen then skip inner .functionBody
  else if c.typed then endStatement
  else unexpected

/-- A function from its keyword on. -/
def functionRule (c : Ctx) (role : FunctionRole) (async : Bool) : Prog Unit := do
  expectWord .function
  let generator ← eat .star
  let k ← kind
  if k.isBinding then
    bindingName (if role == .expression then c.function async generator else c)
  else if role == .declaration then
    match k with
    | .punct .parenOpen => report .functionWithoutName
    | .keyword word =>
      report (.reservedName word.text)
      advanceName
    | _ => pure ()
  else pure ()
  skip c (.methodRest async generator)

/-! ## Arrow functions -/

/-- What a few tokens tell of a parenthesis. -/
inductive Likeness where
  | arrow
  | perhaps
  | noArrow
deriving DecidableEq

/-- Tell whether the parenthesis `i` tokens ahead begins the parameters of an arrow function. -/
def parenthesisLikeness (c : Ctx) (i : Nat) : Prog Likeness := do
  let second : TokenKind ← kindAhead (i + 1)
  match second with
  | .punct .parenClose =>
    match ← kindAhead (i + 2) with
    | .punct .colon => return if c.typed then .perhaps else .noArrow
    | .punct .arrow | .punct .braceOpen => return .arrow
    | _ => return .noArrow
  | .punct .bracketOpen | .punct .braceOpen => return .perhaps
  | .punct .ellipsis =>
    let third ← kindAhead (i + 2)
    if third.isBinding then return .arrow
    else if third.isLiteral then return .noArrow
    else return .perhaps
  | .punct .at => return .perhaps
  | _ =>
    let third : TokenKind ← kindAhead (i + 2)
    if second.isModifier && second != .keyword .async && third.isBinding then return if third == .keyword .as_ then .noArrow else .arrow
    else if !second.isBinding && second != .keyword .this then return .noArrow
    else
      match third with
      | .punct .colon => return .arrow
      | .punct .question =>
        match ← kindAhead (i + 3) with
        | .punct .colon | .punct .comma | .punct .assign | .punct .parenClose => return .arrow
        | _ => return .noArrow
      | .punct .comma | .punct .assign | .punct .parenClose => return .perhaps
      | _ => return .noArrow

/-- Tell whether the angle bracket `i` tokens ahead begins the parameters for types of an arrow
function. One that could be a tag is a tag. -/
def angleLikeness (i : Nat) : Prog Likeness := do
  let j := if (← kindAhead (i + 1)) == .keyword .const then i + 2 else i + 1
  let name ← kindAhead j
  if !name.isBinding && name != .keyword .const then return .noArrow
  else
    match ← kindAhead (j + 1) with
    | .keyword .extends_ =>
      match ← kindAhead (j + 2) with
      | .punct .assign | .punct .greater | .punct .slash => return .noArrow
      | _ => return .arrow
    | .punct .comma | .punct .assign => return .arrow
    | _ => return .noArrow

/-- Tell whether an arrow function with its parameters in parentheses begins here. -/
def parenthesisedArrow (c : Ctx) : Prog Likeness := do
  match ← kind with
  | .punct .parenOpen => parenthesisLikeness c 0
  | .punct .less => angleLikeness 0
  | .keyword .async =>
    let next ← perform (.look 1)
    if next.onNewLine then return .noArrow
    else
      match next.kind with
      | .punct .parenOpen => parenthesisLikeness c 1
      | .punct .less => angleLikeness 1
      | _ => return .noArrow
  | _ => return .noArrow

/-- The head of an arrow function with its arrow. With a type of the result it is one only if
`returnType` says so. -/
def arrowHeadRule (c : Ctx) (returnType : Bool) : Prog ArrowHead := do
  let async ← eatWord .async
  let inner := { c with awaiting := c.awaiting || async }
  typeParameters inner
  skip inner .parameters
  let typed ← resultAnnotation inner
  if (← token).onNewLine then report .lineBreak else pure ()
  expect .arrow
  if typed && !returnType then unexpected else return ⟨async, typed⟩

/-- The body of an arrow function: a block or an expression. -/
def arrowBodyRule (c : Ctx) (head : ArrowHead) (returnType : Bool) : Prog Unit := do
  let inner := { c with awaiting := head.async, yielding := false }
  if ← at? .braceOpen then skip inner .functionBody
  else skip inner (.assignment returnType)

/-- A whole arrow function with a type of its result, where a colon has to follow. -/
def arrowWholeRule (c : Ctx) : Prog Expr := do
  let start ← here
  let head ← call c (.arrowHead true)
  skip c (.arrowBody head false)
  if ← at? .colon then return .plain start .arrow else unexpected

/-- An arrow function with its parameters in parentheses, if one begins here. -/
def arrowFunction? (c : Ctx) (returnType : Bool) : Prog (Option Expr) := do
  let start ← here
  match ← parenthesisedArrow c with
  | .noArrow => return none
  | .arrow =>
    let head ← call c (.arrowHead true)
    skip c (.arrowBody head true)
    return some (.plain start .arrow)
  | .perhaps =>
    if ← perform (.isRuledOut start) then return none
    else
      match ← attempt c (.arrowHead returnType) with
      | some head =>
        skip c (.arrowBody head returnType)
        return some (.plain start .arrow)
      | none =>
        let whole ← if c.typed && !returnType then attempt c .arrowWhole else pure none
        if whole.isNone then perform (.ruleOut start) else pure ()
        return whole

/-- An asynchronous arrow function with a bare parameter, if one begins here. -/
def asyncArrow? (c : Ctx) (returnType : Bool) : Prog (Option Expr) := do
  let start ← here
  let next ← perform (.look 1)
  let behind ← perform (.look 2)
  if (← atWord? .async) && !next.onNewLine && next.kind.isBinding
      && !behind.onNewLine && behind.kind == .punct .arrow then
    advance
    bindingName { c with awaiting := true }
    advance
    skip c (.arrowBody ⟨true, false⟩ returnType)
    return some (.plain start .arrow)
  else return none

end Retouch.Script
