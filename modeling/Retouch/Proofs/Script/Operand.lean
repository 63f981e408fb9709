import Retouch.Proofs.Script.Placed

/-!
# Expressions of one operand

What the rules for expressions do at a string or an object that is all of an expression, because a
comma or a brace stands behind it: each of them hands on what the rule below it gives, from the rule for
operands (`primary`) to the one for sequences (`gives_expression`). What an operand gives is left open.
-/

namespace Retouch.Script

open Text

/-- Whether the current token ends the expression before it: a brace or a comma. -/
structure State.Closes (st : State) : Prop where
  scanned : ∃ c, st.current = scan .code c
  mark : st.current.token.kind = .punct .braceClose ∨ st.current.token.kind = .punct .comma

/-- Whether the current token begins an operand that is a string or an object. -/
def State.BeginsOperand (st : State) : Prop :=
  (∃ value, st.current.token.kind = .string value) ∨ st.current.token.kind = .punct .braceOpen

section Programs

variable {use : Use} {st : State}

/-! ## Looking at tokens -/

theorem gives_atWord? (word : Keyword) :
    (atWord? word).Gives use st fun b next =>
      b = (st.current.token.kind == .keyword word) ∧ next = st :=
  ⟨rfl, rfl⟩

theorem gives_kindAhead (n : Nat) :
    (kindAhead n).Gives use st fun k next => k = (st.look n).kind ∧ next = st := ⟨rfl, rfl⟩

theorem gives_pure {α : Type} (a : α) :
    (Pure.pure a : Prog α).Gives use st fun b next => b = a ∧ next = st := ⟨rfl, rfl⟩

theorem gives_look (n : Nat) :
    (perform (.look n)).Gives use st fun t next => t = st.look n ∧ next = st := ⟨rfl, rfl⟩

/-- What becomes of the state where a rule is used for what it does only. -/
theorem Prog.Gives.skip {c : Ctx} {r : Rule} {post : State → Prop}
    (h : (use c r st).Gives fun _ next => post next) :
    (Script.skip c r).Gives use st fun _ next => post next :=
  Prog.Gives.bind (Prog.Gives.call h) fun _ _ hnext => Prog.Gives.pure hnext

/-- A mark that does not stand here is not left behind. -/
theorem gives_eat_ne {mark : Punct} (h : st.current.token.kind ≠ .punct mark) :
    (eat mark).Gives use st fun b next => b = false ∧ next = st := by
  refine Prog.Gives.bind (gives_at? mark) ?_
  rintro b next ⟨rfl, rfl⟩
  rw [if_neg (by simpa using h)]
  exact ⟨rfl, rfl⟩

/-! ## Behind an operand -/

/-- A token that ends an expression stays as it is where an operator is looked for. -/
theorem State.Closes.reread (h : st.Closes) : st.reread .greater = st := by
  obtain ⟨⟨c, hscan⟩, hmark⟩ := h
  have hsolid : st.current.Solid := hscan ▸ Scanned.solid_scan .code c
  have hspelt : (∃ behind, st.current.atToken = '\x7d' :: behind) ∨
      ∃ behind, st.current.atToken = ',' :: behind :=
    hmark.imp (fun h => ⟨_, (hsolid.mark .braceClose h).1⟩)
      fun h => ⟨_, (hsolid.mark .comma h).1⟩
  obtain ⟨⟨token, atToken, behind⟩, lastStop, faults, reports, found, suspects, ruledOut⟩ := st
  rcases hspelt with ⟨rest, hspelt⟩ | ⟨rest, hspelt⟩
  all_goals
    obtain rfl : atToken = _ := hspelt
    simp [State.reread, rescan]

theorem closes_memberRest (c : Ctx) (chain allowChain : Bool) (e : Expr) (h : st.Closes) :
    (memberRestRule c chain allowChain e).Gives use st fun answer next =>
      answer = (e, chain) ∧ next = st := by
  refine Prog.Gives.bind gives_token ?_
  rintro t next ⟨rfl, rfl⟩
  rcases h.mark with hmark | hmark
  all_goals
    rw [hmark]
    exact ⟨rfl, rfl⟩

theorem closes_binaryRest (c : Ctx) (e : Expr) (h : st.Closes) :
    (binaryRestRule c 0 e).Gives use st fun f next => f = e ∧ next = st := by
  refine Prog.Gives.bind (gives_reread .greater) ?_
  rintro _ next rfl
  rw [h.reread]
  refine Prog.Gives.bind gives_token ?_
  rintro t next ⟨rfl, rfl⟩
  rcases h.mark with hmark | hmark
  all_goals
    rw [hmark]
    exact ⟨rfl, rfl⟩

theorem closes_expressionRest (c : Ctx) (e : Expr)
    (h : st.current.token.kind = .punct .braceClose) :
    (expressionRestRule c e).Gives use st fun f next => f = e ∧ next = st := by
  refine Prog.Gives.bind (gives_eat_ne (by rw [h]; simp)) ?_
  rintro b next ⟨rfl, rfl⟩
  exact ⟨rfl, rfl⟩

theorem closes_callRest (fuel : Nat) (c : Ctx) (e : Expr) (h : st.Closes) :
    (runRule grammar fuel c (.callRest false e) st).Gives fun f next => f = e ∧ next = st := by
  have hnone : ∀ mark, mark ≠ .braceClose → mark ≠ .comma →
      st.current.token.kind ≠ .punct mark := by
    intro mark hbrace hcomma
    rcases h.mark with hmark | hmark
    · rw [hmark]
      simpa using hbrace.symm
    · rw [hmark]
      simpa using hcomma.symm
  rcases fuel with _ | _ | fuel
  · trivial
  · trivial
  · show (callRestRule c false e).Gives (runRule grammar (fuel + 1)) st _
    refine Prog.Gives.bind (Prog.Gives.call (closes_memberRest c false true e h)) ?_
    rintro answer next ⟨rfl, hnext⟩
    subst next
    refine Prog.Gives.bind (gives_eat_ne (hnone .questionDot (by decide) (by decide))) ?_
    rintro b next ⟨rfl, rfl⟩
    refine Prog.Gives.bind (gives_at? .less) ?_
    rintro b next ⟨-, rfl⟩
    refine Prog.Gives.bind (gives_at? .shiftLeft) ?_
    rintro b next ⟨-, rfl⟩
    refine Prog.Gives.bind (gives_pure false) ?_
    rintro b next ⟨rfl, rfl⟩
    refine Prog.Gives.bind gives_kind ?_
    rintro k next ⟨-, rfl⟩
    refine Prog.Gives.bind (gives_at? .parenOpen) ?_
    rintro b next ⟨rfl, rfl⟩
    rw [show (next.current.token.kind == .punct .parenOpen) = false by
      simpa using hnone .parenOpen (by decide) (by decide)]
    exact ⟨rfl, rfl⟩

/-! ## From operands to expressions -/

section Operand

variable {post : Expr → State → Prop}

/-- What a rule gives stays if the next one leaves it as it is. -/
theorem Prog.Gives.bind_same {p : Prog Expr} {rest : Expr → Prog Expr} (h : p.Gives use st post)
    (hrest : ∀ e next, post e next → (rest e).Gives use next fun f last => f = e ∧ last = next) :
    (p >>= rest).Gives use st post := by
  refine Prog.Gives.bind h ?_
  intro e next he
  refine (hrest e next he).imp ?_
  rintro f last ⟨rfl, rfl⟩
  exact he

/-- A rule that only hands on what the one below it gives. -/
theorem gives_succ {r : Rule} {c : Ctx} {post : r.Result → State → Prop}
    (h : ∀ fuel, (grammar c r).Gives (runRule grammar fuel) st post) (fuel : Nat) :
    (runRule grammar fuel c r st).Gives post := by
  cases fuel with
  | zero => trivial
  | succ fuel => exact h fuel

variable (hprimary : ∀ fuel c, (runRule grammar fuel c .primary st).Gives post)
  (hcloses : ∀ e next, post e next → next.Closes)

include hprimary hcloses

theorem gives_leftHand (fuel : Nat) (c : Ctx) : (runRule grammar fuel c .leftHand st).Gives post := by
  refine gives_succ (fun fuel => ?_) fuel
  show (leftHandRule c).Gives (runRule grammar fuel) st post
  refine Prog.Gives.bind_same (Prog.Gives.call (hprimary fuel c)) fun e next he => ?_
  exact Prog.Gives.call (closes_callRest fuel c e (hcloses e next he))

theorem gives_updateExpression (fuel : Nat) (c : Ctx) (h : st.BeginsOperand) :
    (updateExpression c).Gives (runRule grammar fuel) st post := by
  refine Prog.Gives.bind gives_token ?_
  rintro t next ⟨rfl, rfl⟩
  have hupdate : isUpdate next.current.token.kind = false := by
    rcases h with ⟨value, h⟩ | h <;> rw [h] <;> rfl
  rw [hupdate, if_neg Bool.false_ne_true]
  refine Prog.Gives.bind (gives_kindAhead 1) ?_
  rintro k next' ⟨-, rfl⟩
  have hless : (next'.current.token.kind == .punct .less) = false := by
    rcases h with ⟨value, h⟩ | h <;> rw [h] <;> rfl
  rw [hless, Bool.false_and, if_neg Bool.false_ne_true]
  refine Prog.Gives.bind_same
    (Prog.Gives.call (gives_leftHand hprimary hcloses fuel c)) fun e next he => ?_
  refine Prog.Gives.bind gives_token ?_
  rintro t last ⟨rfl, rfl⟩
  rcases (hcloses e last he).mark with hmark | hmark
  all_goals
    rw [hmark]
    exact ⟨rfl, rfl⟩

theorem gives_simpleUnary (fuel : Nat) (c : Ctx) (h : st.BeginsOperand) :
    (runRule grammar fuel c .simpleUnary st).Gives post := by
  refine gives_succ (fun fuel => ?_) fuel
  show (simpleUnaryRule c).Gives (runRule grammar fuel) st post
  have hupdate := gives_updateExpression hprimary hcloses fuel c h
  refine Prog.Gives.bind gives_token ?_
  rintro t next ⟨rfl, rfl⟩
  rcases h with ⟨value, h⟩ | h
  all_goals
    rw [h]
    exact hupdate

theorem gives_binary (fuel : Nat) (c : Ctx) (h : st.BeginsOperand) :
    (runRule grammar fuel c (.binary 0) st).Gives post := by
  refine gives_succ (fun fuel => ?_) fuel
  show (binaryRule c 0).Gives (runRule grammar fuel) st post
  refine Prog.Gives.bind gives_token ?_
  rintro t next ⟨rfl, rfl⟩
  have hprivate : (next.current.token.kind == .privateName) = false := by
    rcases h with ⟨value, h⟩ | h <;> rw [h] <;> rfl
  rw [hprivate, Bool.and_false, if_neg Bool.false_ne_true]
  have hunary : (runRule grammar fuel c .unary next).Gives post :=
    gives_succ (r := .unary)
      (fun fuel => Prog.Gives.call (gives_simpleUnary hprimary hcloses fuel c h)) fuel
  refine Prog.Gives.bind_same (Prog.Gives.call hunary) fun e last he => ?_
  refine Prog.Gives.call (gives_succ (r := .binaryRest 0 e) (fun fuel => ?_) fuel)
  exact closes_binaryRest c e (hcloses e last he)

omit hprimary hcloses in
/-- No arrow function begins with such an operand. -/
theorem gives_noArrow (c : Ctx) (returnType : Bool) (h : st.BeginsOperand) :
    (arrowFunction? c returnType).Gives use st fun e next => e = none ∧ next = st := by
  have hnone : (parenthesisedArrow c).Gives use st fun l next => l = .noArrow ∧ next = st := by
    refine Prog.Gives.bind gives_kind ?_
    rintro k next ⟨rfl, rfl⟩
    rcases h with ⟨value, h⟩ | h
    all_goals
      rw [h]
      exact ⟨rfl, rfl⟩
  refine Prog.Gives.bind gives_here ?_
  rintro start next ⟨-, rfl⟩
  refine Prog.Gives.bind hnone ?_
  rintro l next ⟨rfl, rfl⟩
  exact ⟨rfl, rfl⟩

omit hprimary hcloses in
theorem gives_noAsyncArrow (c : Ctx) (returnType : Bool) (h : st.BeginsOperand) :
    (asyncArrow? c returnType).Gives use st fun e next => e = none ∧ next = st := by
  refine Prog.Gives.bind gives_here ?_
  rintro start next ⟨-, rfl⟩
  refine Prog.Gives.bind (gives_look 1) ?_
  rintro t next ⟨rfl, rfl⟩
  refine Prog.Gives.bind (gives_look 2) ?_
  rintro t next ⟨rfl, rfl⟩
  refine Prog.Gives.bind (gives_atWord? .async) ?_
  rintro b next ⟨rfl, rfl⟩
  rcases h with ⟨value, h⟩ | h
  all_goals
    rw [h]
    exact ⟨rfl, rfl⟩

theorem gives_assignment (fuel : Nat) (c : Ctx) (h : st.BeginsOperand) :
    (runRule grammar fuel c (.assignment true) st).Gives post := by
  refine gives_succ (fun fuel => ?_) fuel
  show (assignmentRule c true).Gives (runRule grammar fuel) st post
  refine Prog.Gives.bind (gives_atWord? .yield) ?_
  rintro b next ⟨rfl, rfl⟩
  have hyield : (next.current.token.kind == .keyword .yield) = false := by
    rcases h with ⟨value, h⟩ | h <;> rw [h] <;> rfl
  rw [hyield]
  refine Prog.Gives.bind (gives_pure false) ?_
  rintro b next ⟨rfl, rfl⟩
  refine Prog.Gives.bind (gives_noArrow c true h) ?_
  rintro e next ⟨rfl, rfl⟩
  refine Prog.Gives.bind (gives_noAsyncArrow c true h) ?_
  rintro e next ⟨rfl, rfl⟩
  refine Prog.Gives.bind_same (Prog.Gives.call (gives_binary hprimary hcloses fuel c h))
    fun e last he => ?_
  refine Prog.Gives.bind gives_token ?_
  rintro t last ⟨rfl, rfl⟩
  have hend := hcloses e last he
  -- The mark neither assigns nor asks for the other parts of a conditional expression.
  have hrest : (conditionalRest c e true).Gives (runRule grammar fuel) last
      fun f final => f = e ∧ final = last := by
    have hquestion : last.current.token.kind ≠ .punct .question := by
      rcases hend.mark with hmark | hmark <;> rw [hmark] <;> simp
    refine Prog.Gives.bind (gives_eat_ne hquestion) ?_
    rintro b final ⟨rfl, rfl⟩
    exact ⟨rfl, rfl⟩
  rcases hend.mark with hmark | hmark
  all_goals
    rw [hmark]
    cases e.shape <;> exact hrest

/-- **An operand in front of a brace is an expression.** -/
theorem gives_expression (fuel : Nat) (c : Ctx) (h : st.BeginsOperand)
    (hbrace : ∀ e next, post e next → next.current.token.kind = .punct .braceClose) :
    (runRule grammar fuel c .expression st).Gives post := by
  refine gives_succ (fun fuel => ?_) fuel
  show (expressionRule c).Gives (runRule grammar fuel) st post
  refine Prog.Gives.bind_same (Prog.Gives.call (gives_assignment hprimary hcloses fuel _ h))
    fun e next he => ?_
  refine Prog.Gives.call (gives_succ (r := .expressionRest e) (fun fuel => ?_) fuel)
  exact closes_expressionRest _ e (hbrace e next he)

end Operand

/-! ## Strings -/

/-- A string as an operand. -/
theorem gives_primary_string {value : Text} (h : st.current.token.kind = .string value) (fuel : Nat)
    (c : Ctx) : (runRule grammar fuel c .primary st).Gives fun e next =>
      e.shape = .string value ∧ next = st.advance .code := by
  refine gives_succ (fun fuel => ?_) fuel
  show (primaryRule c).Gives (runRule grammar fuel) st _
  refine Prog.Gives.bind gives_token ?_
  rintro t next ⟨rfl, rfl⟩
  rw [h]
  refine Prog.Gives.bind
    (gives_advanceIn_plain .code fun word hword => by rw [h] at hword; cases hword) ?_
  rintro _ next rfl
  exact ⟨rfl, rfl⟩

end Programs

end Retouch.Script
