import Retouch.Script.Names

/-!
# Modules

What a source takes from other sources, and the lists of names it exports.
-/

namespace Retouch.Script

/-- Whether a token can be a name that a source exports. -/
def isModuleName (k : TokenKind) : Bool :=
  match k with
  | .string _ => true
  | k => k.isWord

/-- A name that a source exports: a word or a string. -/
def moduleName : Prog Token := do
  let t ← token
  if isModuleName t.kind then
    advanceName
    return t
  else unexpected

/-- What a name is called on the two sides of `as`, which is one name if it is not there. In a
typed source `type` before a name says that a type is meant; it is a name itself where no name
follows, and so is `as`. -/
def specifier (c : Ctx) : Prog (Token × Token) := do
  let first ← moduleName
  if !(c.typed && first.kind == .keyword .type) then renamed first
  else if ← atWord? .as_ then
    let second ← moduleName
    if ← atWord? .as_ then
      let third ← moduleName
      if isModuleName (← kind) then return (second, ← moduleName) else return (first, third)
    else if isModuleName (← kind) then return (first, ← moduleName)
    else return (second, second)
  else if isModuleName (← kind) then renamed (← moduleName)
  else renamed first
where
  /-- A name with what it is called behind `as`. -/
  renamed (t : Token) : Prog (Token × Token) := do
    if ← eatWord .as_ then return (t, ← moduleName) else return (t, t)

/-- A name that is imported. -/
def importSpecifierRule (c : Ctx) : Prog Unit := do
  let (_, inner) ← specifier c
  if inner.kind.isBinding then return ()
  else
    match inner.kind with
    | .keyword word => stopAt inner.start (.reservedName word.text)
    | _ => stopAt inner.start .unexpectedToken

/-- Names that are exported, up to the brace. What cannot name something of this source is given as
something wrong, since the names may be those of another one. -/
def exportSpecifiersRule (c : Ctx) : Prog (List Diagnostic) := do
  let k ← kind
  if k == .punct .braceClose || k == .endOfSource then return []
  else
    let (inner, _) ← specifier c
    let wrong : List Diagnostic :=
      if inner.kind.isBinding then []
      else match inner.kind with
        | .keyword word => [⟨inner.start, .reservedName word.text⟩]
        | _ => [⟨inner.start, .unexpectedToken⟩]
    if ← at? .braceClose then return wrong
    else
      expect .comma
      return wrong ++ (← call c .exportSpecifiers)

/-- What is said about a source that is named. -/
def importAttributeRule (_ : Ctx) : Prog Unit := do
  let _ ← moduleName
  expect .colon
  match ← kind with
  | .string _ => advance
  | _ => unexpected

/-- The name of another source, what is said about it, and the end of the statement. -/
def sourceString (c : Ctx) : Prog Unit := do
  match ← kind with
  | .string _ => advance
  | _ => unexpected
  let t ← token
  if t.kind == .keyword .with_ || (t.kind == .keyword .assert && !t.onNewLine) then
    advance
    expect .braceOpen
    skip c (.list .importAttribute .braceClose)
    expect .braceClose
  else pure ()
  endStatement

/-- The name of another source behind `from`. -/
def sourceName (c : Ctx) : Prog Unit := do
  expectWord .from_
  sourceString c

/-- Names that are exported, in braces. -/
def exportNames (c : Ctx) : Prog Unit := do
  expect .braceOpen
  let wrong ← call c .exportSpecifiers
  expect .braceClose
  if ← atWord? .from_ then sourceName c
  else
    for d in wrong do reportAt d.offset d.cause
    endStatement

/-- Whether the word `type` here says that types are imported, and is not a name. -/
def importsTypes : Prog Bool := do
  let next ← kindAhead 1
  let behind ← kindAhead 2
  if next == .punct .braceOpen || next == .punct .star then return true
  else if next == .keyword .from_ then return behind == .keyword .from_ || behind == .punct .assign
  else return next.isBinding

/-- The names that are imported: all under one name, or some of them. -/
def importedNames (c : Ctx) : Prog Unit := do
  match ← kind with
  | .punct .star =>
    advance
    expectWord .as_
    bindingName c
  | .punct .braceOpen =>
    advance
    skip c (.list .importSpecifier .braceClose)
    expect .braceClose
  | _ => unexpected

/-- What a source is imported as, behind its first name and the equals sign. -/
def importEqualsRest (c : Ctx) : Prog Unit := do
  if (← atWord? .require) && (← kindAhead 1) == .punct .parenOpen then
    advance
    advance
    match ← kind with
    | .string _ => advance
    | _ => unexpected
    expect .parenClose
  else
    bindingName c
    skip c .dotted
  endStatement

/-- An import, from its keyword on. -/
def importStatement (c : Ctx) : Prog Unit := do
  advance
  match ← kind with
  | .string _ => sourceString c
  | k =>
    let next ← kindAhead 1
    let behind ← kindAhead 2
    let phased := if k == .keyword .defer then next == .punct .star
      else k == .keyword .source && next.isBinding
        && (next != .keyword .from_ || behind == .keyword .from_)
    if phased then advance
    else if c.typed && k == .keyword .type && (← importsTypes) then advance
    else pure ()
    if (← kind).isBinding then
      bindingName c
      if c.typed && (← eat .assign) then importEqualsRest c
      else
        if ← eat .comma then importedNames c else pure ()
        sourceName c
    else
      importedNames c
      sourceName c

end Retouch.Script
