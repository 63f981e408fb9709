import Retouch.Script.Names

/-!
# Patterns

What is declared or taken as a parameter: a name, or an array or object of patterns.
-/

namespace Retouch.Script

/-- A pattern; whether it is a mere name. -/
def patternRule (c : Ctx) : Prog Bool := do
  match ← kind with
  | .punct .bracketOpen =>
    advance
    skip c.enclosed .patternItems
    expect .bracketClose
    return false
  | .punct .braceOpen =>
    advance
    skip c.enclosed .patternProperties
    expect .braceClose
    return false
  | _ =>
    bindingName c
    return true

/-- A pattern within a pattern, with the value it has if there is none. -/
def patternElementRule (c : Ctx) : Prog Unit := do
  skip c .pattern
  initialValue c

/-- Note a comma behind what has to be last. -/
def checkLast : Prog Unit := do
  if ← at? .comma then report .restNotLast else return ()

/-- The items of an array of patterns, up to the bracket. -/
def patternItemsRule (c : Ctx) : Prog Unit := do
  let k ← kind
  if k == .punct .bracketClose || k == .endOfSource then return ()
  else if ← eat .comma then skip c .patternItems
  else if ← eat .ellipsis then
    skip c .pattern
    checkLast
  else
    skip c .patternElement
    if ← at? .bracketClose then return ()
    else
      expect .comma
      skip c .patternItems

/-- A property of an object of patterns. -/
def patternPropertyRule (c : Ctx) : Prog Unit := do
  if (← kind).isBinding && (← kindAhead 1) != .punct .colon then
    bindingName c
    initialValue c
  else
    propertyName c false
    expect .colon
    skip c .patternElement

/-- The properties of an object of patterns, up to the brace. -/
def patternPropertiesRule (c : Ctx) : Prog Unit := do
  let k ← kind
  if k == .punct .braceClose || k == .endOfSource then return ()
  else if ← eat .ellipsis then
    skip c .pattern
    checkLast
  else
    skip c .patternProperty
    if ← at? .braceClose then return ()
    else
      expect .comma
      skip c .patternProperties

end Retouch.Script
