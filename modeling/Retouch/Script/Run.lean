import Retouch.Script.Rule

/-!
# Running programs

What the steps of a program do to the state of the reader. `Prog.run` runs a program, given what
rules do; `runRule` ties the knot for a grammar, with as many nested rules as `fuel` says.

A program moves the reader on only by `Op.advance`; an attempt that stops leaves all as it was but
for the places it has ruled out.
-/

namespace Retouch.Script

/-- The state of the reader. -/
structure State where
  /-- The current token, the text at it and the text behind it. -/
  current : Scanned
  /-- Where the token before the current one ended. -/
  lastStop : Nat
  /-- What was wrong with tokens, the latest first. -/
  faults : List Diagnostic
  /-- What else was wrong, the latest first. -/
  reports : List Diagnostic
  /-- The markup found, the latest first. -/
  found : List Markup
  /-- Defaults in objects that are right only if these are patterns. -/
  suspects : List Nat
  /-- Where no arrow function begins. -/
  ruledOut : List Nat

/-- How a program ended: with a result, or stopped. -/
inductive Outcome (α : Type) where
  | done (a : α) (s : State)
  | stopped (d : Option Diagnostic) (s : State)

namespace State

/-- The reader at the beginning of a text. -/
def start (source : Text) : State :=
  let first := scan .code (skipInterpreterLine source)
  ⟨first, 0, first.token.faults.reverse, [], [], [], []⟩

/-- The state in which `s` is the current token. -/
def withCurrent (st : State) (s : Scanned) : State :=
  { st with current := s, faults := s.token.faults.reverse ++ st.faults }

/-- The state behind the current token. -/
def advance (st : State) (place : Place) : State :=
  { st.withCurrent (scan place st.current.after) with
    lastStop := st.current.token.stop }

/-- The state in which the current token is read again. -/
def reread (st : State) (how : Rescan) : State :=
  let again := Script.rescan how st.current
  { st with
    current := again
    faults := (again.token.faults.drop st.current.token.faults.length).reverse ++ st.faults }

/-- The token that stands so many tokens behind the current one. -/
def look (st : State) (ahead : Nat) : Token :=
  go ahead st.current
where
  /-- Follow the tokens of code behind a token. -/
  go : Nat → Scanned → Token
    | 0, s => s.token
    | n + 1, s => go n (scan .code s.after)

end State

/-- Run a program. `use` says what rules do. -/
def Prog.run (use : Ctx → (r : Rule) → State → Outcome r.Result) {α : Type} :
    Prog α → State → Outcome α
  | .done a, st => .done a st
  | .stop d, st => .stopped d st
  | .step (.call c r) next, st =>
    match use c r st with
    | .done a st => (next a).run use st
    | .stopped d st => .stopped d st
  | .step (.attempt c r) next, st =>
    match use c r st with
    | .done a st => (next (some a)).run use st
    | .stopped _ failed => (next none).run use { st with ruledOut := failed.ruledOut }
  | .step (.gather c r) next, st =>
    match use c r { st with found := [] } with
    | .done a inner => (next (a, inner.found.reverse)).run use { inner with found := st.found }
    | .stopped d st => .stopped d st
  | .step (.look ahead) next, st => (next (st.look ahead)).run use st
  | .step (.advance place) next, st => (next ()).run use (st.advance place)
  | .step (.reread how) next, st => (next ()).run use (st.reread how)
  | .step .lastStop next, st => (next st.lastStop).run use st
  | .step (.emitElement c) next, st =>
    match use c (.element false) st with
    | .done m st => (next ()).run use { st with found := m :: st.found }
    | .stopped d st => .stopped d st
  | .step (.report d) next, st => (next ()).run use { st with reports := d :: st.reports }
  | .step (.suspect offset) next, st =>
    (next ()).run use { st with suspects := offset :: st.suspects }
  | .step (.clear offsets) next, st =>
    (next ()).run use { st with suspects := st.suspects.filter fun o => !offsets.contains o }
  | .step (.isRuledOut offset) next, st => (next (st.ruledOut.contains offset)).run use st
  | .step (.ruleOut offset) next, st =>
    (next ()).run use { st with ruledOut := offset :: st.ruledOut }

/-- What the rules of a grammar do, nested at most `fuel` deep. -/
def runRule (grammar : Ctx → (r : Rule) → Prog r.Result) :
    (fuel : Nat) → Ctx → (r : Rule) → State → Outcome r.Result
  | 0, _, _, st => .stopped none st
  | fuel + 1, c, r, st => (grammar c r).run (runRule grammar fuel) st

/-- What is wrong with a script: one thing at least, in the order in which it is told. -/
structure Faults where
  first : Diagnostic
  rest : List Diagnostic

/-- What is wrong, given all but the last thing. -/
def Faults.ending (before : List Diagnostic) (last : Diagnostic) : Faults :=
  match before with
  | [] => ⟨last, []⟩
  | first :: rest => ⟨first, rest ++ [last]⟩

/-- What was wrong when a program stopped at `st`. What was wrong with tokens comes first. A stop at a
token that could not be read is told by what was wrong with that. -/
def faultsOfStop (d : Option Diagnostic) (st : State) : Faults :=
  let t := st.current.token
  let unread := t.kind == .endOfSource || t.kind == .malformed
  match d, st.faults with
  | none, fault :: faults =>
    if unread then .ending (faults.reverse ++ st.reports.reverse) fault
    else .ending ((fault :: faults).reverse ++ st.reports.reverse) ⟨t.start, .unexpectedToken⟩
  | none, [] => .ending st.reports.reverse ⟨t.start, .unexpectedToken⟩
  | some d, faults => .ending (faults.reverse ++ st.reports.reverse) d

/-- What was wrong when a program was done at `st`, if anything was. -/
def faultsOfEnd? (st : State) : Option Faults :=
  match st.faults.reverse ++ st.reports.reverse
      ++ st.suspects.reverse.map fun offset => ⟨offset, .defaultOutsidePattern⟩ with
  | [] => none
  | first :: rest => some ⟨first, rest⟩

end Retouch.Script
