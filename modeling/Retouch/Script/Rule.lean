import Retouch.Markup
import Retouch.Script.Scanner

/-!
# Rules and programs

The grammar of a script is a set of rules. A rule is a `Prog`: it looks at tokens, moves on, calls
rules and, in the end, gives a result or stops. What a program does to the state of the reader is
said once, for its operations, in `Retouch.Script.Run`; the rules are plain data.
-/

namespace Retouch.Script

/-! ## What rules need to know and give -/

/-- What holds of the place where a rule is used. -/
structure Ctx where
  /-- Whether types may be written. -/
  typed : Bool
  /-- Whether `in` is an operator. -/
  inOperator : Bool
  /-- Whether `yield` is an operator. -/
  yielding : Bool
  /-- Whether `await` is an operator. -/
  awaiting : Bool
  /-- Whether `return` may stand here. -/
  returning : Bool
  /-- Whether this is the expression of a decorator. -/
  decorating : Bool
  /-- Whether a type must not be conditional here. -/
  plainTypes : Bool
  /-- Whether values are only declared. -/
  ambient : Bool
deriving DecidableEq, Repr

namespace Ctx

/-- The beginning of a source. -/
def start (typed : Bool) : Ctx := ⟨typed, true, false, true, false, false, false, false⟩

/-- Within brackets of any kind. -/
def enclosed (c : Ctx) : Ctx := { c with inOperator := true, decorating := false }

/-- Where `in` ends an expression. -/
def withoutIn (c : Ctx) : Ctx := { c with inOperator := false }

/-- Inside a function that is or is not asynchronous or a generator. -/
def function (c : Ctx) (async generator : Bool) : Ctx :=
  { c with
    inOperator := true
    awaiting := async
    yielding := generator
    decorating := false
    plainTypes := false }

end Ctx

/-- What an expression can be on the left of an assignment. The offsets are those of defaults in
it, which are right only in a pattern. -/
inductive Target where
  | none
  | simple
  | pattern (defaults : List Nat)
deriving DecidableEq, Repr

namespace Target

/-- The target that holds both of two parts of a pattern. -/
def both : Target → Target → Target
  | .none, _ => .none
  | _, .none => .none
  | .simple, .simple => .pattern []
  | .simple, .pattern d => .pattern d
  | .pattern d, .simple => .pattern d
  | .pattern d, .pattern e => .pattern (d ++ e)

end Target

/-- What later steps ask of an expression. -/
inductive Shape where
  | name (text : Text)
  | string (value : Text)
  /-- `target = value`. -/
  | assignment
  | arrow
  | unary
  | awaiting
  /-- `a && b` or `a || b`. -/
  | logical
  /-- `a ?? b`. -/
  | coalesce
  /-- Type arguments without a call. -/
  | instantiation
  | importCall
  | other
deriving DecidableEq, Repr

/-- An expression as far as the grammar needs to know it. -/
structure Expr where
  start : Nat
  shape : Shape
  /-- What it can be on the left of an assignment. -/
  target : Target
  /-- What it can be as a part of a pattern. -/
  part : Target
deriving DecidableEq, Repr

/-- An expression that cannot be assigned to. -/
def Expr.plain (start : Nat) (shape : Shape) : Expr := ⟨start, shape, .none, .none⟩

/-- An attribute of an opening tag: its name if it is the plain word `style`, where it stands, and
its value. -/
structure Attribute where
  isStyle : Bool
  span : Span
  value : Option Span
deriving DecidableEq, Repr

/-- How the name of an element is read. -/
structure TagName where
  /-- The name as it is written, parts of it joined. -/
  written : Text
  /-- The name, if the element is rendered as itself. -/
  intrinsic : Option Text
  span : Span
deriving DecidableEq, Repr

/-- The head of an arrow function: whether it is asynchronous and whether it names the type of the
result. -/
structure ArrowHead where
  async : Bool
  returnType : Bool
deriving DecidableEq, Repr

/-- What a list of items ended with. -/
structure ListEnd where
  count : Nat
  trailingComma : Option Nat
deriving DecidableEq, Repr

/-- The beginning of a declaration of variables: what is wrong with it if nothing is taken from
`of` or `in` behind it. -/
abbrev Unset := List Diagnostic

/-- What a function belongs to. -/
inductive FunctionRole where
  | declaration
  | defaultExport
  | expression
  | method
deriving DecidableEq, Repr

/-- A name for a part of the grammar. -/
inductive Rule where
  -- lists
  | list (item : Rule) (close : Punct)
  | listFrom (item : Rule) (close : Punct)
  -- statements
  | statements (inCase : Bool)
  | statement (single : Bool)
  | block
  | functionBody
  | declarators (isConst : Bool)
  | switchCases
  -- expressions
  | expression
  | expressionRest (first : Expr)
  | assignment (returnType : Bool)
  | plainAssignment
  | binary (least : Nat)
  | binaryRest (least : Nat) (left : Expr)
  | unary
  | simpleUnary
  | leftHand
  | primary
  | memberRest (chain allowChain : Bool) (e : Expr)
  | callRest (chain : Bool) (e : Expr)
  | argument
  | arrayItems
  | objectItems
  | templateRest (tagged : Bool)
  -- patterns
  | pattern
  | patternElement
  | patternProperty
  | patternItems
  | patternProperties
  -- functions
  | parameters
  | functionType
  | dotted
  | parameterItems
  | arrowHead (returnType : Bool)
  | arrowWhole
  | arrowBody (head : ArrowHead) (returnType : Bool)
  | function (role : FunctionRole) (async : Bool)
  | methodRest (async generator : Bool)
  -- classes
  | classRest
  | heritage
  | classMembers
  | classMember
  | decorators
  -- types
  | type
  | unionType
  | unionRest (mark : Punct)
  | operatorType
  | postfixType
  | postfixRest
  | typeArguments
  | callTypeArguments
  | inferConstraint
  | typeParameter
  | typeMembers
  | tupleItem
  | enumItem
  | heritageType
  | returnType (mark : Punct)
  | typeTemplateRest
  -- markup
  | element (between : Bool)
  | children
  | attributes
  | tagMembers (written : Text)
  -- modules and declarations
  | declaration
  | importSpecifier
  | exportSpecifiers
  | importAttribute
deriving DecidableEq, Repr

/-- What a rule gives. -/
@[reducible]
def Rule.Result : Rule → Type
  | list .. => ListEnd
  | listFrom .. => ListEnd
  | declarators _ => Unset
  | expression => Expr
  | expressionRest _ => Expr
  | assignment _ => Expr
  | plainAssignment => Expr
  | binary _ => Expr
  | binaryRest .. => Expr
  | unary => Expr
  | simpleUnary => Expr
  | leftHand => Expr
  | primary => Expr
  | memberRest .. => Expr × Bool
  | callRest .. => Expr
  | arrayItems => Target
  | objectItems => Target
  | pattern => Bool
  | arrowHead _ => ArrowHead
  | arrowWhole => Expr
  | element _ => Markup
  | children => List Markup
  | attributes => List Attribute
  | tagMembers _ => Text
  | exportSpecifiers => List Diagnostic
  | _ => Unit

/-! ## Programs -/

/-- One step of a program. -/
inductive Op where
  /-- Look at a token: the current one, or one so many tokens behind it. -/
  | look (ahead : Nat)
  /-- Move on to the next token. -/
  | advance (place : Place)
  /-- Read the current token again. -/
  | reread (how : Rescan)
  /-- The offset where the token before the current one ended. -/
  | lastStop
  /-- Use a rule. -/
  | call (c : Ctx) (r : Rule)
  /-- Use a rule if it can be used; if it stops, all is as before. -/
  | attempt (c : Ctx) (r : Rule)
  /-- Use a rule and take the markup it finds. -/
  | gather (c : Ctx) (r : Rule)
  /-- Use the rule for elements and add the piece of markup that it gives to what was found. -/
  | emitElement (c : Ctx)
  /-- Note something wrong and go on. -/
  | report (d : Diagnostic)
  /-- Note a default at an offset which is right only if the object around it is a pattern. -/
  | suspect (offset : Nat)
  /-- Clear the defaults at some offsets: they are in a pattern. -/
  | clear (offsets : List Nat)
  /-- Whether no arrow function begins at an offset, as an attempt has shown. -/
  | isRuledOut (offset : Nat)
  /-- Note that no arrow function begins at an offset. -/
  | ruleOut (offset : Nat)

/-- What a step answers. -/
@[reducible]
def Op.Answer : Op → Type
  | look _ => Token
  | lastStop => Nat
  | call _ r => r.Result
  | attempt _ r => Option r.Result
  | gather _ r => r.Result × List Markup
  | isRuledOut _ => Bool
  | _ => Unit

/-- A program: a result, a step with a program for each answer, or a stop. A stop without a
diagnostic is at a token that cannot stand where it does. -/
inductive Prog (α : Type) where
  | done (a : α)
  | step (op : Op) (next : op.Answer → Prog α)
  | stop (d : Option Diagnostic)

namespace Prog

/-- Go on with the result of a program. -/
def bind {α β : Type} : Prog α → (α → Prog β) → Prog β
  | done a, f => f a
  | step op next, f => step op fun answer => (next answer).bind f
  | stop d, _ => stop d

instance : Monad Prog where
  pure := done
  bind := bind

end Prog

/-! ## Steps as programs -/

/-- The program of one step. -/
def perform (op : Op) : Prog op.Answer := .step op .done

/-- Use a rule. -/
def call (c : Ctx) (r : Rule) : Prog r.Result := perform (.call c r)

/-- Use a rule for what it does only. -/
def skip (c : Ctx) (r : Rule) : Prog Unit := do
  let _ ← call c r
  return ()

/-- Use a rule if it can be used. -/
def attempt (c : Ctx) (r : Rule) : Prog (Option r.Result) := perform (.attempt c r)

/-- Use a rule and take the markup it finds. -/
def gather (c : Ctx) (r : Rule) : Prog (r.Result × List Markup) := perform (.gather c r)

/-- Use the rule for elements and add the piece of markup that it gives to what was found. -/
def emitElement (c : Ctx) : Prog Unit := perform (.emitElement c)

/-- The current token. -/
def token : Prog Token := perform (.look 0)

/-- The kind of the current token. -/
def kind : Prog TokenKind := do return (← token).kind

/-- The kind of a token behind the current one. -/
def kindAhead (n : Nat) : Prog TokenKind := do return (← perform (.look n)).kind

/-- Where the current token begins. -/
def here : Prog Nat := do return (← token).start

/-- Where the token before the current one ended. -/
def lastStop : Prog Nat := perform .lastStop

/-- The span from `start` to the end of the last token. -/
def spanFrom (start : Nat) : Prog Span := do return ⟨start, ← lastStop⟩

/-- Note something wrong at an offset. -/
def reportAt (offset : Nat) (cause : Cause) : Prog Unit := perform (.report ⟨offset, cause⟩)

/-- Note something wrong at the current token. -/
def report (cause : Cause) : Prog Unit := do reportAt (← here) cause

/-- Stop with something wrong at an offset. -/
def stopAt {α : Type} (offset : Nat) (cause : Cause) : Prog α := .stop (some ⟨offset, cause⟩)

/-- Stop with something wrong at the current token. -/
def stop {α : Type} (cause : Cause) : Prog α := do stopAt (← here) cause

/-- Stop because the current token cannot stand here. -/
def unexpected {α : Type} : Prog α := .stop none

/-- Move on, taking the current token for what it is. A keyword has no escapes. -/
def advanceIn (place : Place) : Prog Unit := do
  let t ← token
  if t.escaped then
    match t.kind with
    | .keyword _ => report .escapedKeyword
    | _ => pure ()
  perform (.advance place)

/-- Move on to the next token of code. -/
def advance : Prog Unit := advanceIn .code

/-- Move on, taking the current token for a name. -/
def advanceName : Prog Unit := perform (.advance .code)

/-- Whether the current token is a mark. -/
def at? (mark : Punct) : Prog Bool := do return (← kind) == .punct mark

/-- Whether the current token is a keyword. -/
def atWord? (word : Keyword) : Prog Bool := do return (← kind) == .keyword word

/-- Move on if the current token is a mark. -/
def eat (mark : Punct) : Prog Bool := do
  if ← at? mark then
    advance
    return true
  else return false

/-- Move on if the current token is a keyword. -/
def eatWord (word : Keyword) : Prog Bool := do
  if ← atWord? word then
    advance
    return true
  else return false

/-- Stop unless the current token is a mark. -/
def demand (mark : Punct) : Prog Unit := do
  let t ← token
  if t.kind == .punct mark then return ()
  else stopAt t.start (.expected mark.text t.kind.describe)

/-- Move on over a mark that has to stand here. -/
def expect (mark : Punct) : Prog Unit := do
  demand mark
  advance

/-- Move on over a keyword that has to stand here. -/
def expectWord (word : Keyword) : Prog Unit := do
  let t ← token
  if t.kind == .keyword word then advance
  else stopAt t.start (.expected word.text t.kind.describe)

/-- Whether a statement may end here without a semicolon. -/
def canEnd : Prog Bool := do
  let t ← token
  return t.onNewLine || t.kind == .punct .semicolon || t.kind == .punct .braceClose
    || t.kind == .endOfSource

/-- The end of a statement: a semicolon, or a place where one is understood. -/
def endStatement : Prog Unit := do
  if ← eat .semicolon then return ()
  else if ← canEnd then return ()
  else stopAt (← lastStop) .semicolonMissing

/-- Note types that stand where none may. -/
def needTypes (c : Ctx) : Prog Unit := do
  if c.typed then return () else report .typesNotAllowed

end Retouch.Script
