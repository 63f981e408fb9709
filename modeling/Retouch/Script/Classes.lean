import Retouch.Script.Types

/-!
# Classes

The rules for classes from their keyword on: name, heritage, and members. A member is a method, an
accessor, a field, an index signature or a block of statements.
-/

namespace Retouch.Script

/-- A class, from its keyword on. -/
def classRestRule (c : Ctx) : Prog Unit := do
  advance
  let k ← kind
  let named := k.isBinding
    && !(k == .keyword .implements && (← kindAhead 1).isWord)
  if named then bindingName c else pure ()
  typeParameters c
  skip c .heritage
  expect .braceOpen
  skip c.enclosed .classMembers
  expect .braceClose

/-- The class that is extended and the interfaces that are implemented, as far as they are given. -/
def heritageRule (c : Ctx) : Prog Unit := do
  match ← kind with
  | .keyword .extends_ =>
    advance
    skip c .leftHand
    typeArgumentsHere c
    if ← at? .comma then report .unexpectedToken else pure ()
    skip c .heritage
  | .keyword .implements =>
    needTypes c
    advance
    skip c (.listFrom .heritageType .braceOpen)
    skip c .heritage
  | _ => return ()

/-- An interface that is implemented or extended. -/
def heritageTypeRule (c : Ctx) : Prog Unit := do
  skip c .leftHand
  typeArgumentsHere c

/-- Decorators, as many as there are. -/
def decoratorsRule (c : Ctx) : Prog Unit := do
  if ← eat .at then
    skip { c with decorating := true } .leftHand
    skip c .decorators
  else return ()

/-- The members of a class, up to the brace. -/
def classMembersRule (c : Ctx) : Prog Unit := do
  let k ← kind
  if k == .punct .braceClose || k == .endOfSource then return ()
  else if ← eat .semicolon then skip c .classMembers
  else
    skip c .classMember
    skip c .classMembers

/-- The rest of a field, behind its name. -/
def fieldRest (c : Ctx) : Prog Unit := do
  annotation c
  initialValue { c with awaiting := false, yielding := false }
  endStatement

/-- A member of a class. -/
def classMemberRule (c : Ctx) : Prog Unit := do
  skip c .decorators
  if (← atWord? .static) && (← kindAhead 1) == .punct .braceOpen then
    advance
    skip { c.function true false with returning := false } .block
  else
    let modifiers ← memberModifiers c 8 []
    if ← isAccessor then
      advance
      propertyName c true
      skip c (.methodRest false false)
    else if c.typed && (← startsIndexSignature) then indexSignature c
    else
      let generator ← eat .star
      propertyName c true
      let k ← kind
      if c.typed && (k == .punct .question || k == .punct .not) then advance else pure ()
      let k ← kind
      if generator || k == .punct .parenOpen || (c.typed && k == .punct .less) then
        skip c (.methodRest (modifiers.contains .async) generator)
      else fieldRest c

end Retouch.Script
