import Retouch.Script.Expressions
import Retouch.Script.Modules

/-!
# Statements

The rules for statements and blocks. A statement in a place for one statement only, behind a
condition for instance, must not be a declaration that a block would hold.
-/

namespace Retouch.Script

/-! ## Sequences of statements -/

/-- Statements up to a brace; those of a case end at the next case too. -/
def statementsRule (c : Ctx) (inCase : Bool) : Prog Unit := do
  match ← kind with
  | .endOfSource | .punct .braceClose => return ()
  | k =>
    if inCase && (k == .keyword .case || k == .keyword .default_) then return ()
    else
      skip c (.statement false)
      skip c (.statements inCase)

/-- Statements in braces. -/
def blockRule (c : Ctx) : Prog Unit := do
  expect .braceOpen
  skip c (.statements false)
  expect .braceClose

/-! ## Loops -/

/-- An expression in parentheses that is part of a statement. -/
def condition (c : Ctx) : Prog Unit := do
  expect .parenOpen
  skip c.enclosed .expression
  expect .parenClose

/-- The head of a loop behind its first semicolon. -/
def countingHead (c : Ctx) : Prog Unit := do
  expect .semicolon
  if ← at? .semicolon then pure () else skip c .expression
  expect .semicolon
  if ← at? .parenClose then pure () else skip c .expression
  expect .parenClose

/-- What follows the variables of a loop: the things it runs over, or the other parts of a head
with semicolons. In that case the variables have to have values. -/
def loopHead (c : Ctx) (waits : Bool) (unset : Unset) : Prog Unit := do
  match ← kind with
  | .keyword .in_ =>
    if waits then report .unexpectedToken else pure ()
    advance
    skip c .expression
    expect .parenClose
  | .keyword .of =>
    advance
    skip c .plainAssignment
    expect .parenClose
  | _ =>
    for d in unset do reportAt d.offset d.cause
    if waits then report .unexpectedToken else pure ()
    countingHead c

/-- What follows an expression at the beginning of a loop. -/
def loopHeadOf (c : Ctx) (waits : Bool) (e : Expr) : Prog Unit := do
  let k ← kind
  if k == .keyword .in_ || k == .keyword .of then assignTo e true else pure ()
  loopHead c waits []

/-- Whether the word `let` here begins a declaration. -/
def letDeclares : Prog Bool := do
  let next ← kindAhead 1
  return next.isBinding || next == .punct .bracketOpen || next == .punct .braceOpen

/-- Whether the word `using` so many tokens ahead begins a declaration. -/
def usingDeclares (i : Nat) : Prog Bool := do
  let next ← perform (.look (i + 1))
  return next.kind.isBinding && next.kind != .keyword .of && !next.onNewLine

/-- Whether the words `await using` here begin a declaration. -/
def awaitUsingDeclares : Prog Bool := do
  let next ← perform (.look 1)
  return next.kind == .keyword .using && !next.onNewLine && (← usingDeclares 1)

/-- A loop with `for`. -/
def forStatement (c : Ctx) : Prog Unit := do
  advance
  let waits ← eatWord .await
  if waits && !c.awaiting then report .awaitOutsideAsync else pure ()
  expect .parenOpen
  let inner := c.enclosed
  let declared := fun isConst : Bool => do
    advance
    let unset ← call inner.withoutIn (.declarators isConst)
    loopHead inner waits unset
  match ← kind with
  | .punct .semicolon =>
    if waits then report .unexpectedToken else pure ()
    countingHead inner
  | .keyword .var => declared false
  | .keyword .const => declared true
  | k =>
    if k == .keyword .let_ && (← letDeclares) then declared false
    else if k == .keyword .using && (← usingDeclares 0) then declared true
    else if k == .keyword .await && (← awaitUsingDeclares) then
      advance
      declared true
    else
      let asyncOf := k == .keyword .async && (← kindAhead 1) == .keyword .of
        && (← kindAhead 2) != .punct .arrow
      if asyncOf && !waits then report .unexpectedToken else pure ()
      let e ← call inner.withoutIn .expression
      loopHeadOf inner waits e
  skip c (.statement true)

/-! ## Other statements with keywords -/

/-- The cases of a choice, up to the brace. -/
def switchCasesRule (c : Ctx) : Prog Unit := do
  match ← kind with
  | .endOfSource | .punct .braceClose => return ()
  | .keyword .default_ =>
    advance
    caseBody
  | .keyword .case =>
    advance
    skip c .expression
    caseBody
  | _ => unexpected
where
  /-- What is done in a case, and the cases behind it. -/
  caseBody : Prog Unit := do
    expect .colon
    skip c (.statements true)
    skip c .switchCases

/-- A block with handlers. -/
def tryStatement (c : Ctx) : Prog Unit := do
  advance
  skip c .block
  let caught ← eatWord .catch_
  if caught then
    if ← eat .parenOpen then
      skip c .pattern
      annotation c
      expect .parenClose
    else pure ()
    skip c .block
  else pure ()
  let finished ← eatWord .finally_
  if finished then skip c .block
  else if caught then return ()
  else report .handlerMissing

/-- A jump to a label, if it names one. -/
def jump (c : Ctx) : Prog Unit := do
  advance
  if ← canEnd then endStatement
  else
    bindingName c
    endStatement

/-- A return from a function, with a value if there is one. -/
def returnStatement (c : Ctx) : Prog Unit := do
  if c.returning then pure () else report .returnOutsideFunction
  advance
  if ← canEnd then endStatement
  else
    skip c .expression
    endStatement

/-- Variables, behind the word that declares them. -/
def variableStatement (c : Ctx) (isConst : Bool) : Prog Unit := do
  let unset ← call c (.declarators isConst)
  for d in unset do reportAt d.offset d.cause
  endStatement

/-- An expression as a statement, or a statement behind a label. -/
def expressionStatement (c : Ctx) : Prog Unit := do
  let e ← call c .expression
  match e.shape, ← at? .colon with
  | .name _, true =>
    advance
    skip c (.statement true)
  | _, _ => endStatement

/-! ## Declarations -/

/-- Variables and the values they get. What has to have a value and has none is given as something
wrong, since it depends on what follows whether it is. -/
def declaratorsRule (c : Ctx) (isConst : Bool) : Prog Unset := do
  let start ← here
  let plain ← call c .pattern
  let t ← token
  if c.typed && plain && !t.onNewLine && t.kind == .punct .not then advance else pure ()
  annotation c
  let set ← at? .assign
  initialValue c
  let unset : Unset :=
    if set || c.ambient then []
    else if !plain then [⟨start, .patternWithoutValue⟩]
    else if isConst then [⟨start, .constWithoutValue⟩]
    else []
  if ← eat .comma then return unset ++ (← call c (.declarators isConst))
  else return unset

/-- Whether a declaration begins here in a typed source, behind at most `most` modifiers. A word
that could as well be a name begins one only if another word follows it on its line. -/
def startsDeclaration : (most i : Nat) → Prog Bool
  | 0, _ => return false
  | most + 1, i => do
    let t ← perform (.look i)
    let next ← perform (.look (i + 1))
    let nameFollows := !next.onNewLine && next.kind.isIdentifier
    match t.kind with
    | .keyword .var | .keyword .let_ | .keyword .const | .keyword .function | .keyword .class_
    | .keyword .enum => return true
    | .keyword .interface | .keyword .type => return nameFollows
    | .keyword .module_ | .keyword .namespace_ =>
      match next.kind with
      | .string _ => return !next.onNewLine
      | _ => return nameFollows
    | .keyword .abstract_ | .keyword .accessor | .keyword .async | .keyword .declare
    | .keyword .private_ | .keyword .protected_ | .keyword .public_ | .keyword .readonly =>
      if next.onNewLine then return false
      else if t.kind == .keyword .declare && next.kind == .keyword .type then return true
      else startsDeclaration most (i + 1)
    | .keyword .global =>
      match next.kind with
      | .punct .braceOpen | .name _ | .keyword .export_ => return true
      | _ => return false
    | .keyword .import_ =>
      match next.kind with
      | .string _ | .punct .star | .punct .braceOpen => return true
      | k => return k.isWord
    | .keyword .static => startsDeclaration most (i + 1)
    | _ => return false

/-- An interface, behind its keyword. -/
def interfaceRest (c : Ctx) : Prog Unit := do
  bindingName c
  typeParameters c
  if ← eatWord .extends_ then skip c (.listFrom .heritageType .braceOpen) else pure ()
  expect .braceOpen
  skip c .typeMembers
  expect .braceClose

/-- A name for a type, behind its keyword. -/
def aliasRest (c : Ctx) : Prog Unit := do
  bindingName c
  typeParameters c
  expect .assign
  skip c .type
  endStatement

/-- An enumeration, from its keyword on. -/
def enumeration (c : Ctx) : Prog Unit := do
  expectWord .enum
  bindingName c
  expect .braceOpen
  skip c (.list .enumItem .braceClose)
  expect .braceClose

/-- A name in an enumeration: a word or a string, in brackets too. -/
def enumItemRule (c : Ctx) : Prog Unit := do
  match ← kind with
  | .string _ => advance
  | .punct .bracketOpen =>
    advance
    match ← kind with
    | .string _ | .template true true _ => advance
    | _ => unexpected
    expect .bracketClose
  | _ => anyWord
  initialValue c

/-- A namespace, behind its keyword. -/
def namespaceRest (c : Ctx) : Prog Unit := do
  match ← kind with
  | .string _ =>
    advance
    if ← at? .braceOpen then skip c .block else endStatement
  | _ =>
    bindingName c
    skip c .dotted
    skip c .block

/-- Whether an asynchronous function begins here. -/
def startsAsyncFunction : Prog Bool := do
  let next ← perform (.look 1)
  return (← atWord? .async) && next.kind == .keyword .function && !next.onNewLine

/-- A declaration behind its modifiers, or with modifiers before it. Some kinds are for typed
sources only. -/
def declarationRule (c : Ctx) : Prog Unit := do
  match ← kind with
  | .punct .at =>
    skip c .decorators
    skip c .declaration
  | .keyword .class_ => skip c .classRest
  | .keyword .function => skip c (.function .declaration false)
  | .keyword .var | .keyword .let_ =>
    advance
    variableStatement c false
  | .keyword .const =>
    if c.typed && (← kindAhead 1) == .keyword .enum then
      advance
      enumeration c
    else
      advance
      variableStatement c true
  | .keyword word =>
    if ← startsAsyncFunction then
      advance
      skip c (.function .declaration true)
    else if !c.typed then unexpected
    else
      match word with
      | .declare =>
        advance
        skip { c with ambient := true } .declaration
      | .abstract_ =>
        advance
        skip c .declaration
      | .accessor | .async | .private_ | .protected_ | .public_ | .readonly | .static =>
        report .misplacedModifier
        advance
        skip c .declaration
      | .interface =>
        advance
        interfaceRest c
      | .type =>
        advance
        aliasRest c
      | .enum => enumeration c
      | .module_ | .namespace_ =>
        advance
        namespaceRest c
      | .global =>
        advance
        skip c .block
      | .import_ => importStatement c
      | _ => unexpected
  | _ => unexpected

/-- What a source exports, from the keyword on. -/
def exportStatement (c : Ctx) : Prog Unit := do
  advance
  let next ← kindAhead 1
  match ← kind with
  | .keyword .default_ =>
    advance
    defaultExport
  | .punct .star =>
    advance
    exportAll
  | .punct .braceOpen => exportNames c
  | .punct .assign =>
    needTypes c
    advance
    skip c .expression
    endStatement
  | .keyword .as_ =>
    if c.typed && next == .keyword .namespace_ then
      advance
      advance
      bindingName c
      endStatement
    else unexpected
  | .keyword .type =>
    if c.typed && next == .punct .braceOpen then
      advance
      exportNames c
    else if c.typed && next == .punct .star then
      advance
      advance
      exportAll
    else skip c .declaration
  | _ => skip c .declaration
where
  /-- What is exported without a name. -/
  defaultExport : Prog Unit := do
    let next ← perform (.look 1)
    let here : TokenKind ← kind
    if here == .punct .at then
      skip c .decorators
      if ← atWord? .class_ then skip c .classRest
      else if c.typed && (← atWord? .abstract_) then skip c .declaration
      else unexpected
    else if here == .keyword .class_ then skip c .classRest
    else if here == .keyword .function then skip c (.function .defaultExport false)
    else if ← startsAsyncFunction then
      advance
      skip c (.function .defaultExport true)
    else if c.typed && here == .keyword .abstract_ && next.kind == .keyword .class_
        && !next.onNewLine then
      advance
      skip c .classRest
    else if c.typed && here == .keyword .interface && next.kind.isIdentifier && !next.onNewLine then
      advance
      interfaceRest c
    else
      skip c .plainAssignment
      endStatement
  /-- All that another source exports, perhaps under one name. -/
  exportAll : Prog Unit := do
    if ← eatWord .as_ then
      let _ ← moduleName
      pure ()
    else pure ()
    sourceName c

/-! ## All statements -/

/-- Decorators with what they decorate. -/
def decorated (c : Ctx) : Prog Unit := do
  skip c .decorators
  match ← kind with
  | .keyword .class_ => skip c .classRest
  | .keyword .export_ => exportStatement c
  | .keyword .abstract_ | .keyword .declare => if c.typed then skip c .declaration else unexpected
  | _ => stop .misplacedDecorator

/-- A statement. `single` says that it stands in a place for one statement only. -/
def statementRule (c : Ctx) (single : Bool) : Prog Unit := do
  let t ← token
  let next ← perform (.look 1)
  let notSingle : Prog Unit := if single then report .declarationNotAllowed else pure ()
  match t.kind with
  | .punct .braceOpen => skip c .block
  | .punct .semicolon => advance
  | .punct .at => decorated c
  | .keyword word =>
    match word with
    | .if_ =>
      advance
      condition c
      skip c (.statement true)
      if ← eatWord .else_ then skip c (.statement true) else return ()
    | .do_ =>
      advance
      skip c (.statement true)
      expectWord .while_
      condition c
      let _ ← eat .semicolon
      return ()
    | .while_ | .with_ =>
      advance
      condition c
      skip c (.statement true)
    | .for_ => forStatement c
    | .continue_ | .break_ => jump c
    | .return_ => returnStatement c
    | .switch =>
      advance
      condition c
      expect .braceOpen
      skip c .switchCases
      expect .braceClose
    | .throw =>
      advance
      if (← token).onNewLine then report .lineBreak else pure ()
      skip c .expression
      endStatement
    | .try_ => tryStatement c
    | .debugger =>
      advance
      endStatement
    | .class_ =>
      notSingle
      skip c .classRest
    | .function =>
      if next.kind == .punct .star then notSingle else pure ()
      skip c (.function .declaration false)
    | .var =>
      advance
      variableStatement c false
    | .const =>
      notSingle
      skip c .declaration
    | .export_ => exportStatement c
    | .import_ =>
      if next.kind == .punct .parenOpen || next.kind == .punct .dot then expressionStatement c
      else importStatement c
    | .let_ =>
      if ← letDeclares then
        if single && next.kind != .punct .bracketOpen then expressionStatement c
        else
          notSingle
          advance
          variableStatement c false
      else expressionStatement c
    | .using =>
      if ← usingDeclares 0 then
        notSingle
        advance
        variableStatement c true
      else expressionStatement c
    | .await =>
      if ← awaitUsingDeclares then
        notSingle
        advance
        advance
        variableStatement c true
      else expressionStatement c
    | .async =>
      if ← startsAsyncFunction then
        notSingle
        advance
        skip c (.function .declaration true)
      else expressionStatement c
    | .interface | .type | .module_ | .namespace_ | .declare | .enum | .private_ | .protected_
    | .public_ | .abstract_ | .accessor | .static | .readonly | .global =>
      if c.typed && (← startsDeclaration 8 0) then skip c .declaration else expressionStatement c
    | _ => expressionStatement c
  | _ => expressionStatement c

end Retouch.Script
