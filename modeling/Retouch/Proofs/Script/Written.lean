import Retouch.Proofs.Script.Between

/-!
# Running the rules over a written text

What `Retouch.Proofs.Script.Between` says of a text between two tags where it is read, said for every
reader that comes to it: the rule for what stands between tags does not stop there, and it goes on to the
sign of the closing tag with nothing found to be wrong. The main statement is `run_children_renderText`;
the pieces that are read are `piecesOf`.

The rules are run forward here. A program that goes on with the result of another runs that one first
(`Prog.run_bind_of`), and where the tokens are known a run is evaluated.
-/

namespace Retouch.Script

open Text Cursor

/-! ## Running one step after the other -/

section Steps

variable {α β : Type} {use : Use} {st next : State}

theorem Prog.run_bind_of {p : Prog α} {a : α} (h : p.run use st = .done a next) (f : α → Prog β) :
    (p >>= f).run use st = (f a).run use next := by
  show (p.bind f).run use st = _
  rw [Prog.run_bind, h]

theorem Prog.run_call_of {c : Ctx} {r : Rule} {a : r.Result} (h : use c r st = .done a next) :
    (call c r).run use st = .done a next := by
  show Prog.run use (.step (.call c r) .done) st = _
  rw [Prog.run, h]
  rfl

theorem run_skip_of {c : Ctx} {r : Rule} {a : r.Result} (h : use c r st = .done a next) :
    (skip c r).run use st = .done () next :=
  (Prog.run_bind_of (Prog.run_call_of h) _).trans rfl

theorem run_pure (use : Use) (a : α) (st : State) : (pure a : Prog α).run use st = .done a st := rfl

theorem run_look (use : Use) (ahead : Nat) (st : State) :
    (perform (.look ahead)).run use st = .done (st.look ahead) st := rfl

theorem run_reread (use : Use) (how : Rescan) (st : State) :
    (perform (.reread how)).run use st = .done () (st.reread how) := rfl

theorem run_kind (use : Use) (st : State) : kind.run use st = .done st.current.token.kind st := rfl

theorem run_kindAhead (use : Use) (ahead : Nat) (st : State) :
    (kindAhead ahead).run use st = .done (st.look ahead).kind st := rfl

theorem run_here (use : Use) (st : State) : here.run use st = .done st.current.token.start st := rfl

theorem run_token (use : Use) (st : State) : token.run use st = .done st.current.token st := rfl

/-- The reader moves on over a token that is no word with escapes. -/
theorem run_advanceIn (use : Use) (place : Place) (h : st.current.token.escaped = false) :
    (advanceIn place).run use st = .done () (st.advance place) := by
  refine (Prog.run_bind_of (run_token use st) _).trans ?_
  rw [h]
  rfl

theorem run_expect (use : Use) {mark : Punct} (hkind : st.current.token.kind = .punct mark)
    (hescaped : st.current.token.escaped = false) :
    (expect mark).run use st = .done () (st.advance .code) := by
  have hdemand : (demand mark).run use st = .done () st := by
    refine (Prog.run_bind_of (run_token use st) _).trans ?_
    rw [hkind, beq_self_eq_true, if_pos rfl]
    rfl
  exact (Prog.run_bind_of hdemand _).trans (run_advanceIn use .code hescaped)

/-- Where nothing is wrong with the next token, only the place of the reader changes. -/
theorem State.advance_eq {place : Place} {s : Scanned} (h : scan place st.current.after = s)
    (hfaults : s.token.faults = []) :
    st.advance place = { st with current := s, lastStop := st.current.token.stop } := by
  unfold State.advance State.withCurrent
  rw [h, hfaults]
  rfl

end Steps

/-! ## The pieces of a written text -/

/-- What is read of a text that was written between two tags: one piece of text, one string literal in
braces, or nothing. -/
def piecesOf (t : Text) : List Markup :=
  if t.any isSignificant then [.literal t] else if t.isEmpty then [] else [.text t]

theorem textOf_piecesOf (t : Text) : Markup.textOf (piecesOf t) = t := by
  unfold piecesOf
  split
  · exact List.append_nil t
  · split
    · next hempty => exact (List.isEmpty_iff.1 hempty).symm
    · exact List.append_nil t

theorem isStructural_piecesOf (t : Text) : (piecesOf t).any Markup.isStructural = false := by
  unfold piecesOf
  split
  · rfl
  · split <;> rfl

/-- The reader behind a text, at the sign of the tag that stands there. -/
def State.behindText (st : State) (t tail : Text) (n : Nat) : State :=
  { st with
    current := scanChild ⟨'<' :: tail, n + byteLength (renderText t)⟩
    lastStop := if t.isEmpty then st.lastStop else n + byteLength (renderText t) }

theorem childFaults_plain {t : Text} (h : t.any isSignificant = false) (n : Nat) :
    childFaults t n = [] := by
  induction t generalizing n with
  | nil => rfl
  | cons c t ih =>
    obtain ⟨hc, ht⟩ := Bool.or_eq_false_iff.1 h
    have hsigns : (c == '>') = false ∧ (c == '\x7d') = false := by
      simp only [isSignificant, Bool.or_eq_false_iff] at hc
      simp [hc]
    rw [childFaults, ih ht, hsigns.1, hsigns.2]
    rfl

/-- Nothing is wrong with what a text begins with. -/
theorem faults_scanChild_renderText (t tail : Text) (n : Nat) :
    (scanChild ⟨renderText t ++ '<' :: tail, n⟩).token.faults = [] := by
  unfold renderText
  split
  · rfl
  · next hplain =>
    rw [Bool.not_eq_true] at hplain
    cases t with
    | nil => rfl
    | cons a t =>
      rw [scanChild_plain hplain]
      exact childFaults_plain hplain n

section Runs

variable {st : State} {t tail : Text} {n : Nat}

/-- At the sign of a closing tag there are no more pieces. -/
theorem run_children_less (fuel : Nat) (c : Ctx) (h : st.current = scanChild ⟨'<' :: tail, n⟩)
    (hslash : (scan .code ⟨tail, n + 1⟩).token.kind = .punct .slash) :
    runRule grammar (fuel + 1) c .children st = .done [] st := by
  have hless : st.current.token.kind = .punct .less := by
    rw [h]
    rfl
  have hahead : (st.look 1).kind = .punct .slash := by
    rw [← hslash]
    show (scan .code st.current.after).token.kind = _
    rw [h]
    rfl
  refine (Prog.run_bind_of (run_kind _ st) _).trans ?_
  rw [hless]
  refine (Prog.run_bind_of (run_kindAhead _ 1 st) _).trans ?_
  rw [hahead]
  rfl

/-- A piece of text. -/
theorem run_children_plain (fuel : Nat) (c : Ctx) {a : Char}
    (h : st.current = scanChild ⟨(a :: t) ++ '<' :: tail, n⟩)
    (hplain : (a :: t).any isSignificant = false)
    (hslash : (scan .code ⟨tail, n + byteLength (a :: t) + 1⟩).token.kind = .punct .slash) :
    runRule grammar (fuel + 2) c .children st = .done [.text (a :: t)]
      { st with
        current := scanChild ⟨'<' :: tail, n + byteLength (a :: t)⟩
        lastStop := n + byteLength (a :: t) } := by
  rw [scanChild_plain hplain] at h
  obtain ⟨current, lastStop, faults, reports, found, suspects, ruledOut⟩ := st
  obtain rfl : current = _ := h
  refine (Prog.run_bind_of (run_kind _ _) _).trans ?_
  refine (Prog.run_bind_of (a := ()) rfl _).trans ?_
  refine (Prog.run_bind_of (Prog.run_call_of (run_children_less fuel c rfl hslash)) _).trans ?_
  rfl

/-- The code in braces that is one string literal, from that literal on. What operators there are
depends on the place, but here stands none. -/
theorem run_containedCode_string (fuel : Nat) (c : Ctx) {value rest : Text} {here : Cursor} {m : Nat}
    (h : st.current = .of (.string value) [] false false here ⟨'\x7d' :: '<' :: rest, m⟩) :
    (containedCode c).run (runRule grammar (fuel + 10)) st = .done (.literal value)
      { st with current := scanChild ⟨'<' :: rest, m + 1⟩, lastStop := m + 1 } := by
  obtain ⟨current, lastStop, faults, reports, found, suspects, ruledOut⟩ := st
  obtain rfl : current = _ := h
  obtain ⟨typed, inOperator, yielding, awaiting, returning, decorating, plainTypes, ambient⟩ := c
  cases inOperator with
  | false => rfl
  | true => rfl

/-- A string literal in braces. -/
theorem run_children_literal (fuel : Nat) (c : Ctx)
    (h : st.current = scanChild ⟨'\x7b' :: (Json.writeString t ++ '\x7d' :: '<' :: tail), n⟩)
    (hslash : (scan .code ⟨tail, n + byteLength (Json.writeString t) + 3⟩).token.kind
      = .punct .slash) :
    runRule grammar (fuel + 11) c .children st = .done [.literal t]
      { st with
        current := scanChild ⟨'<' :: tail, n + byteLength (Json.writeString t) + 2⟩
        lastStop := n + byteLength (Json.writeString t) + 2 } := by
  have hopen : st.current.token.kind = .punct .braceOpen := by
    rw [h]
    rfl
  have hescaped : st.current.token.escaped = false := by
    rw [h]
    rfl
  -- Behind the brace stands the literal, and behind that the other brace.
  have hliteral : st.advance .code
      = { st with
          current := .of (.string t) [] false false ⟨Json.writeString t ++ '\x7d' :: '<' :: tail, n + 1⟩
            ⟨'\x7d' :: '<' :: tail, n + 1 + byteLength (Json.writeString t)⟩
          lastStop := st.current.token.stop } := by
    refine State.advance_eq ?_ rfl
    rw [h]
    exact scan_writeString t _ (n + 1)
  have hsigns : n + 1 + byteLength (Json.writeString t) + 1
      = n + byteLength (Json.writeString t) + 2 := by omega
  refine (Prog.run_bind_of (run_kind _ st) _).trans ?_
  rw [hopen]
  refine (Prog.run_bind_of (run_advanceIn _ .code hescaped) _).trans ?_
  rw [hliteral]
  refine (Prog.run_bind_of (run_containedCode_string fuel c rfl) _).trans ?_
  rw [hsigns]
  refine (Prog.run_bind_of (Prog.run_call_of (run_children_less (fuel + 9) c rfl hslash)) _).trans ?_
  rfl

/-- **A text between two tags is read.** A reader that stands where a text was written, before the sign of
a closing tag, reads the pieces of the text and stands at that sign. Nothing is wrong with the text. -/
theorem run_children_renderText (fuel : Nat) (c : Ctx)
    (h : st.current = scanChild ⟨renderText t ++ '<' :: tail, n⟩)
    (hslash : ∃ m, (scan .code ⟨tail, m⟩).token.kind = .punct .slash) :
    runRule grammar (fuel + 11) c .children st = .done (piecesOf t) (st.behindText t tail n) := by
  obtain ⟨m, hm⟩ := hslash
  have hclosing : ∀ k, (scan .code ⟨tail, k⟩).token.kind = .punct .slash :=
    kind_scan_mark rfl (by decide) hm
  unfold piecesOf State.behindText
  cases hsignificant : t.any isSignificant with
  | true =>
    obtain ⟨hrender, hlength⟩ := renderText_significant hsignificant
    have hsome : t.isEmpty = false := by
      cases t with
      | nil => cases hsignificant
      | cons => rfl
    rw [hlength, hsome, if_pos rfl, if_neg Bool.false_ne_true]
    refine run_children_literal fuel c ?_ (hclosing _)
    rw [h, hrender]
    simp
  | false =>
    rw [renderText_plain hsignificant] at h ⊢
    cases t with
    | nil =>
      obtain ⟨current, lastStop, faults, reports, found, suspects, ruledOut⟩ := st
      obtain rfl : current = _ := h
      exact run_children_less (fuel + 10) c rfl (hclosing _)
    | cons a t => exact run_children_plain (fuel + 9) c h hsignificant (hclosing _)

end Runs

end Retouch.Script
