import Retouch.Edit.Patches
import Retouch.Proofs.Patch.Origins
import Retouch.Proofs.Script.Operand
import Retouch.Proofs.Script.Quoted

/-!
# A text between two tags

How `renderText` is read where it stands between an opening tag and the sign of a closing tag: as one
piece of text, as one string literal in braces, or as nothing. The main statement is
`shows_renderText`: the text that the pieces show is the text that was written, whatever it is.
`ReadBetween.shows` says the same of an element of a source.

The expression in the braces is one operand (`gives_expression`).
-/

namespace Retouch.Script

open Text Cursor

/-! ## The literal in braces -/

/-- A string literal of data is read as one token. -/
theorem scan_literal {t body : Text} (h : Json.BodyOf t body) (rest : Text) (offset : Nat) :
    scan .code ⟨'"' :: body ++ ['"'] ++ rest, offset⟩
      = .of (.string t) [] false false ⟨'"' :: body ++ ['"'] ++ rest, offset⟩
          ⟨rest, offset + byteLength ('"' :: body ++ ['"'])⟩ := by
  have hgap : skipGap .blank ('"' :: body ++ ['"'] ++ rest) offset false
      = ⟨⟨'"' :: body ++ ['"'] ++ rest, offset⟩, false, none⟩ := rfl
  rw [← scanToken_literal h rest offset false]
  unfold scan
  dsimp only
  rw [hgap]
  rfl

/-- The literal in the braces. -/
theorem scan_writeString (t rest : Text) (offset : Nat) :
    scan .code ⟨Json.writeString t ++ rest, offset⟩
      = .of (.string t) [] false false ⟨Json.writeString t ++ rest, offset⟩
          ⟨rest, offset + byteLength (Json.writeString t)⟩ :=
  scan_literal (Json.bodyOf_flatMap_writeChar t) rest offset

/-! ## The slash of a closing tag -/

/-- Whether two parts of a gap are of one kind, wherever they began. -/
inductive GapPart.Alike : GapPart → GapPart → Prop
  | blank : Alike .blank .blank
  | lineComment : Alike .lineComment .lineComment
  | blockComment (n m : Nat) : Alike (.blockComment n) (.blockComment m)

/-- What is skipped does not depend on where the text stands. -/
theorem skipGap_offset {part other : GapPart} (h : part.Alike other) (t : Text) (n m : Nat)
    (lineEnded : Bool) :
    (skipGap part t n lineEnded).cursor.rest = (skipGap other t m lineEnded).cursor.rest ∧
      (skipGap part t n lineEnded).openComment.isSome
        = (skipGap other t m lineEnded).openComment.isSome := by
  fun_induction skipGap part t n lineEnded generalizing other m
  case case1 ih | case2 ih | case8 ih =>
    cases h
    rw [skipGap]
    exact ih (by constructor) _
  case case3 hslash hstar hline ih =>
    cases h
    rw [skipGap, if_pos hline]
    · exact ih .blank _
    · exact hslash
    · exact hstar
  case case4 hslash hstar hline hblank ih =>
    cases h
    rw [skipGap, if_neg hline, if_pos hblank]
    · exact ih .blank _
    · exact hslash
    · exact hstar
  case case5 hslash hstar hline hblank =>
    cases h
    rw [skipGap, if_neg hline, if_neg hblank]
    · exact ⟨rfl, rfl⟩
    · exact hslash
    · exact hstar
  case case6 hline ih =>
    cases h
    rw [skipGap, if_pos hline]
    exact ih .blank _
  case case7 hline ih =>
    cases h
    rw [skipGap, if_neg hline]
    exact ih .lineComment _
  case case9 hend ih =>
    cases h
    rw [skipGap]
    · exact ih (.blockComment _ _) _
    · exact hend
  case case10 =>
    cases h
    exact ⟨rfl, rfl⟩
  case case11 hblock =>
    cases h with
    | blank => exact ⟨rfl, rfl⟩
    | lineComment => exact ⟨rfl, rfl⟩
    | blockComment => exact absurd rfl (hblock _)

/-- Behind a gap without an open comment stands a token. -/
theorem scan_of_skipGap {place : Place} (hplace : place ≠ .child) {c here : Cursor} {lineEnded : Bool}
    (h : skipGap .blank c.rest c.offset false = ⟨here, lineEnded, none⟩) :
    scan place c = scanToken place here lineEnded := by
  rw [scan, if_neg (by simpa using hplace), h]

/-- Whether a character can begin nothing but a mark. -/
def beginsMark (c : Char) : Bool :=
  !isIdentifierStart c && !c.isDigit && !(['\\', '.', '"', '\'', '\x60', '#', '?'].contains c)

/-- Which mark a sign begins is told by what stands behind it. -/
theorem scanToken_sign {c : Char} (h : beginsMark c = true) (rest : Text) (offset : Nat)
    (lineEnded : Bool) :
    scanToken .code ⟨c :: rest, offset⟩ lineEnded
      = match Punct.longest? Punct.inCode (c :: rest) with
        | some mark => .of (.punct mark) [] lineEnded false ⟨c :: rest, offset⟩
            ((⟨c :: rest, offset⟩ : Cursor).skip mark.text.length)
        | none => .of .malformed [⟨offset, .unexpectedCharacter⟩] lineEnded false ⟨c :: rest, offset⟩
            ((⟨c :: rest, offset⟩ : Cursor).skip 1) := by
  simp only [beginsMark, Bool.and_eq_true, Bool.not_eq_true', List.contains_cons, List.contains_nil,
    Bool.or_false, Bool.or_eq_false_iff] at h
  obtain ⟨⟨hstart, hdigit⟩, hbackslash, hdot, hquote, hsingle, htemplate, hhash, hquestion⟩ := h
  rw [scanToken]
  cases hmark : Punct.longest? Punct.inCode (c :: rest) with
  | none =>
    simp only [hstart, hdigit, hbackslash, hdot, hquote, hsingle, htemplate, hhash, hquestion, hmark,
      Bool.false_and, Bool.or_false, Bool.false_eq_true, if_false]
  | some mark =>
    simp only [hstart, hdigit, hbackslash, hdot, hquote, hsingle, htemplate, hhash, hquestion, hmark,
      Bool.false_and, Bool.or_false, Bool.false_eq_true, if_false]

/-- A mark that a text begins with is its first token. -/
theorem scan_sign {c : Char} {rest : Text} {n : Nat} {mark : Punct}
    (hgap : skipGap .blank (c :: rest) n false = ⟨⟨c :: rest, n⟩, false, none⟩)
    (h : beginsMark c = true) (hmark : Punct.longest? Punct.inCode (c :: rest) = some mark) :
    scan .code ⟨c :: rest, n⟩
      = .of (.punct mark) [] false false ⟨c :: rest, n⟩
          ((⟨c :: rest, n⟩ : Cursor).skip mark.text.length) := by
  rw [scan_of_skipGap (by decide) hgap, scanToken_sign h, hmark]

theorem kind_scanToken_sign {c : Char} (h : beginsMark c = true) (rest : Text) (offset : Nat)
    (lineEnded : Bool) :
    (scanToken .code ⟨c :: rest, offset⟩ lineEnded).token.kind
      = ((Punct.longest? Punct.inCode (c :: rest)).map TokenKind.punct).getD .malformed := by
  rw [scanToken_sign h]
  cases Punct.longest? Punct.inCode (c :: rest) <;> rfl

/-- Such a mark is one wherever the text stands that it begins. -/
theorem kind_scan_mark {t : Text} {n : Nat} {mark : Punct} {sign : Char} {signs : Text}
    (htext : mark.text = sign :: signs) (hsign : beginsMark sign = true)
    (h : (scan .code ⟨t, n⟩).token.kind = .punct mark) (m : Nat) :
    (scan .code ⟨t, m⟩).token.kind = .punct mark := by
  obtain ⟨hrest, hopen⟩ := skipGap_offset .blank t n m false
  have hscan : ∀ k, (skipGap .blank t k false).openComment = none →
      scan .code ⟨t, k⟩
        = scanToken .code (skipGap .blank t k false).cursor (skipGap .blank t k false).lineEnded := by
    intro k hnone
    refine scan_of_skipGap (by decide) ?_
    rw [← hnone]
  have hclosed : (skipGap .blank t n false).openComment = none := by
    cases hcomment : (skipGap .blank t n false).openComment with
    | none => rfl
    | some start =>
      rw [scan, if_neg (by decide)] at h
      dsimp only at h
      rw [hcomment] at h
      cases h
  rw [hclosed] at hopen
  rw [hscan n hclosed] at h
  rw [hscan m (Option.isNone_iff_eq_none.1 (by simpa using hopen.symm))]
  -- The text at the token begins with the sign, and that is all that matters.
  have hspelt := (Scanned.solid_scanToken .code (skipGap .blank t n false).cursor
    (skipGap .blank t n false).lineEnded).mark mark h
  rw [Scanned.here_scanToken, htext] at hspelt
  generalize (skipGap .blank t n false).cursor = c at h hrest hspelt
  generalize (skipGap .blank t m false).cursor = d at hrest
  obtain ⟨r, o⟩ := c
  obtain ⟨r', o'⟩ := d
  obtain rfl : r = r' := hrest
  obtain ⟨hslash, -⟩ := hspelt
  dsimp only at hslash
  rw [hslash] at h ⊢
  exact (kind_scanToken_sign hsign _ _ _).trans ((kind_scanToken_sign hsign _ _ _).symm.trans h)

/-! ## The pieces -/

/-- A run of characters with `p` ends at the first one without. -/
theorem run_append {p : Char → Bool} {t : Text} (ht : ∀ a ∈ t, p a = true) {b : Char}
    (hb : p b = false) (rest : Text) (n : Nat) :
    (Cursor.run p ⟨t ++ b :: rest, n⟩) = (t, ⟨b :: rest, n + byteLength t⟩) := by
  induction t generalizing n with
  | nil => simp [Cursor.run, runFrom, hb]
  | cons a t ih =>
    have hrest := ih (fun c hc => ht c (List.mem_cons_of_mem a hc)) (n + a.utf8Size)
    rw [Cursor.run] at hrest ⊢
    simp only [List.cons_append, runFrom, ht a List.mem_cons_self, if_true] at hrest ⊢
    rw [hrest, byteLength_cons, Nat.add_assoc]

/-- Text without signs that mean something is one piece. -/
theorem scanChild_plain {a : Char} {t : Text} (h : (a :: t).any isSignificant = false) (tail : Text)
    (n : Nat) :
    scanChild ⟨(a :: t) ++ '<' :: tail, n⟩
      = .of (.markupText (a :: t)) (childFaults (a :: t) n) false false
          ⟨(a :: t) ++ '<' :: tail, n⟩ ⟨'<' :: tail, n + byteLength (a :: t)⟩ := by
  have hplain : ∀ c ∈ a :: t, (!(c == '<' || c == '\x7b')) = true := by
    intro c hc
    have hnone := List.any_eq_false.1 h c hc
    simp [isSignificant] at hnone
    simp [hnone]
  have hrun := run_append hplain (b := '<') (by decide) tail n
  have hfirst : a ≠ '<' ∧ a ≠ '\x7b' := by simpa using hplain a List.mem_cons_self
  unfold scanChild
  dsimp only
  split
  · next hnil => cases hnil
  · next hless => exact absurd (List.cons.inj hless).1 hfirst.1
  · next hbrace => exact absurd (List.cons.inj hbrace).1 hfirst.2
  · rw [hrun]

section Programs

variable {use : Use} {st : State} {t tail : Text} {n : Nat}

/-- At the sign of a closing tag there are no more pieces. -/
theorem gives_noChildren (c : Ctx) (h : st.current = scanChild ⟨'<' :: tail, n⟩)
    (hslash : (scan .code ⟨tail, n + 1⟩).token.kind = .punct .slash) :
    (childrenRule c).Gives use st fun pieces next => pieces = [] ∧ next = st := by
  refine Prog.Gives.bind gives_kind ?_
  rintro k next ⟨rfl, rfl⟩
  have hless : next.current.token.kind = .punct .less := by
    rw [h]
    rfl
  have hahead : (next.look 1).kind = .punct .slash := by
    rw [← hslash]
    show (scan .code next.current.after).token.kind = _
    rw [h]
    rfl
  rw [hless]
  refine Prog.Gives.bind (gives_kindAhead 1) ?_
  rintro k last ⟨rfl, rfl⟩
  rw [hahead]
  exact ⟨rfl, rfl⟩

/-- Whether pieces show a text and nothing else, and the reader stands behind them. -/
def Shows (t : Text) (behind : Cursor) (pieces : List Markup) (next : State) : Prop :=
  Markup.textOf pieces = t ∧ pieces.any Markup.isStructural = false ∧ next.current = scanChild behind

theorem shows_call_none (fuel : Nat) (c : Ctx) (h : st.current = scanChild ⟨'<' :: tail, n⟩)
    (hslash : (scan .code ⟨tail, n + 1⟩).token.kind = .punct .slash) :
    (call c .children).Gives (runRule grammar fuel) st fun pieces next => pieces = [] ∧ next = st := by
  cases fuel with
  | zero => trivial
  | succ fuel => exact Prog.Gives.call (gives_noChildren c h hslash)

/-- A piece of text. -/
theorem shows_plain (fuel : Nat) (c : Ctx) {a : Char}
    (h : st.current = scanChild ⟨(a :: t) ++ '<' :: tail, n⟩)
    (hplain : (a :: t).any isSignificant = false)
    (hslash : (scan .code ⟨tail, n + byteLength (a :: t) + 1⟩).token.kind = .punct .slash) :
    (childrenRule c).Gives (runRule grammar fuel) st
      (Shows (a :: t) ⟨'<' :: tail, n + byteLength (a :: t)⟩) := by
  rw [scanChild_plain hplain] at h
  refine Prog.Gives.bind gives_kind ?_
  rintro k next ⟨rfl, rfl⟩
  have hkind : next.current.token.kind = .markupText (a :: t) := by
    rw [h]
    rfl
  rw [hkind]
  refine Prog.Gives.bind (gives_advanceIn_plain .child fun word hword => ?_) ?_
  · rw [hkind] at hword
    cases hword
  rintro _ middle rfl
  have hcurrent : (next.advance .child).current
      = scanChild ⟨'<' :: tail, n + byteLength (a :: t)⟩ := by
    show scan .child next.current.after = _
    rw [h]
    rfl
  refine Prog.Gives.bind (shows_call_none fuel c hcurrent hslash) ?_
  rintro pieces last ⟨rfl, rfl⟩
  exact ⟨List.append_nil _, rfl, hcurrent⟩

/-- The end of code in braces. -/
theorem gives_endCode (h : st.current.token.kind = .punct .braceClose) :
    containedCode.endCode.Gives use st fun _ next => next = st.advance .child := by
  refine Prog.Gives.bind (gives_demand .braceClose) ?_
  rintro _ next ⟨rfl, -⟩
  exact gives_advanceIn_mark .child h

/-- A string literal is all of an expression that is gathered. -/
theorem gives_gather_string (fuel : Nat) (c : Ctx) {value : Text} {rest : Text} {offset : Nat}
    (h : st.current.token.kind = .string value)
    (hbrace : (st.advance .code).current = scan .code ⟨'\x7d' :: rest, offset⟩) :
    (gather c .expression).Gives (runRule grammar fuel) st fun answer next =>
      answer.1.shape = .string value ∧ next.current = (st.advance .code).current := by
  have hkind : (State.advance { st with found := [] } .code).current.token.kind
      = .punct .braceClose := congrArg (fun s => s.token.kind) hbrace
  have hcloses : ∀ (e : Expr) (next : State), e.shape = .string value ∧
      next = State.advance { st with found := [] } .code → next.Closes := by
    rintro e next ⟨-, rfl⟩
    exact ⟨⟨_, hbrace⟩, .inl (by rw [hkind])⟩
  have hliteral : State.current { st with found := [] } = st.current := rfl
  have hread := gives_expression (gives_primary_string (hliteral ▸ h)) hcloses fuel c
    (.inl ⟨value, h⟩) (by rintro e next ⟨-, rfl⟩; exact hkind)
  refine (gives_gather_of hread).imp ?_
  rintro answer next ⟨inner, ⟨hshape, rfl⟩, -, rfl⟩
  exact ⟨hshape, rfl⟩

/-- The code in braces that is one string literal. -/
theorem gives_containedCode_string (fuel : Nat) (c : Ctx) {value rest : Text} {offset : Nat}
    (h : st.current.token.kind = .string value)
    (hbrace : (st.advance .code).current = scan .code ⟨'\x7d' :: rest, offset⟩) :
    (containedCode c).Gives (runRule grammar fuel) st fun piece next =>
      piece = .literal value ∧ next.current = scanChild ⟨rest, offset + 1⟩ := by
  refine Prog.Gives.bind (gives_at? .braceClose) ?_
  rintro b next ⟨rfl, rfl⟩
  rw [h]
  refine Prog.Gives.bind (gives_eat_ne (by rw [h]; simp)) ?_
  rintro b next ⟨rfl, rfl⟩
  refine Prog.Gives.bind (gives_gather_string fuel c h hbrace) ?_
  rintro ⟨e, inside⟩ gathered ⟨hshape, hgathered⟩
  dsimp only at hshape ⊢
  have hclose : gathered.current.token.kind = .punct .braceClose := by
    rw [hgathered, hbrace]
    rfl
  refine Prog.Gives.bind (gives_endCode hclose) ?_
  rintro _ behind rfl
  rw [hshape]
  refine ⟨rfl, ?_⟩
  show scan .child gathered.current.after = _
  rw [hgathered, hbrace]
  rfl

/-- A string literal in braces. -/
theorem shows_literal (fuel : Nat) (c : Ctx)
    (h : st.current
      = scanChild ⟨'\x7b' :: (Json.writeString t ++ '\x7d' :: '<' :: tail), n⟩)
    (hslash : (scan .code ⟨tail, n + byteLength (Json.writeString t) + 3⟩).token.kind
      = .punct .slash) :
    (childrenRule c).Gives (runRule grammar fuel) st
      (Shows t ⟨'<' :: tail, n + byteLength (Json.writeString t) + 2⟩) := by
  refine Prog.Gives.bind gives_kind ?_
  rintro k next ⟨rfl, rfl⟩
  have hopen : next.current.token.kind = .punct .braceOpen := by
    rw [h]
    rfl
  rw [hopen]
  refine Prog.Gives.bind (gives_advanceIn_mark .code hopen) ?_
  rintro _ inner rfl
  -- Behind the brace stands the literal, and behind that the other brace.
  have hliteral : (next.advance .code).current
      = .of (.string t) [] false false ⟨Json.writeString t ++ '\x7d' :: '<' :: tail, n + 1⟩
          ⟨'\x7d' :: '<' :: tail, n + 1 + byteLength (Json.writeString t)⟩ := by
    show scan .code next.current.after = _
    rw [h]
    exact scan_writeString t _ (n + 1)
  have hkind : (next.advance .code).current.token.kind = .string t := by
    rw [hliteral]
    rfl
  have hbrace : ((next.advance .code).advance .code).current
      = scan .code ⟨'\x7d' :: '<' :: tail, n + 1 + byteLength (Json.writeString t)⟩ := by
    show scan .code (next.advance .code).current.after = _
    rw [hliteral]
    rfl
  refine Prog.Gives.bind (gives_containedCode_string fuel c hkind hbrace) ?_
  rintro piece behind ⟨rfl, hbehind⟩
  rw [show n + 1 + byteLength (Json.writeString t) + 1 = n + byteLength (Json.writeString t) + 2 by
    omega] at hbehind
  refine Prog.Gives.bind (shows_call_none fuel c hbehind hslash) ?_
  rintro pieces last ⟨rfl, rfl⟩
  exact ⟨List.append_nil _, rfl, hbehind⟩

/-- A text with a sign that means something stands in a literal. -/
theorem renderText_significant (h : t.any isSignificant = true) :
    renderText t = '\x7b' :: Json.writeString t ++ ['\x7d'] ∧
      byteLength (renderText t) = byteLength (Json.writeString t) + 2 := by
  have hrender : renderText t = '\x7b' :: Json.writeString t ++ ['\x7d'] := by
    rw [renderText, if_pos h]
  refine ⟨hrender, ?_⟩
  rw [hrender, byteLength_append, byteLength_cons]
  simp only [byteLength_cons, byteLength_nil,
    show ('\x7b' : Char).utf8Size = 1 from rfl, show ('\x7d' : Char).utf8Size = 1 from rfl]
  omega

/-- Any other one stands there as it is. -/
theorem renderText_plain (h : t.any isSignificant = false) : renderText t = t := by
  rw [renderText, if_neg (by simp [h])]

/-- **A text between two tags is read back.** From where a written text begins up to the sign of a
closing tag, the pieces show that text and hold no elements. -/
theorem shows_renderText (fuel : Nat) (c : Ctx)
    (h : st.current = scanChild ⟨renderText t ++ '<' :: tail, n⟩)
    (hslash : ∃ m, (scan .code ⟨tail, m⟩).token.kind = .punct .slash) :
    (runRule grammar fuel c .children st).Gives
      (Shows t ⟨'<' :: tail, n + byteLength (renderText t)⟩) := by
  obtain ⟨m, hm⟩ := hslash
  have hclosing : ∀ k, (scan .code ⟨tail, k⟩).token.kind = .punct .slash :=
    kind_scan_mark rfl (by decide) hm
  cases fuel with
  | zero => trivial
  | succ fuel =>
    show (childrenRule c).Gives (runRule grammar fuel) st _
    cases hsignificant : t.any isSignificant with
    | true =>
      obtain ⟨hrender, hlength⟩ := renderText_significant hsignificant
      rw [hlength]
      refine shows_literal fuel c ?_ (hclosing _)
      rw [h, hrender]
      simp
    | false =>
      rw [renderText_plain hsignificant] at h ⊢
      cases t with
      | nil =>
        refine (gives_noChildren c h (hclosing _)).imp ?_
        rintro pieces next ⟨rfl, rfl⟩
        exact ⟨rfl, rfl, h⟩
      | cons a t => exact shows_plain fuel c h hsignificant (hclosing _)

end Programs

/-! ## Elements of a source -/

namespace ReadBetween

variable {source before t tail : Text} {fuel : Nat} {tag : Tag} {closing : ClosingTag}
  {children : List Markup} {c : Ctx} {st next : State}

/-- A closing tag begins with its sign and a slash. -/
theorem exists_append_slash
    (h : ReadBetween source (runRule grammar fuel) tag closing children c st next) :
    ∃ before tail, source = before ++ '<' :: tail ∧ byteLength before = closing.span.start ∧
      ∃ m, (scan .code ⟨tail, m⟩).token.kind = .punct .slash := by
  have hgoes := (finds_runRule source fuel).goes c .children st h.steady
  rw [h.run] at hgoes
  obtain ⟨before, hbefore, hoffset⟩ := hgoes.steady.reached
  obtain ⟨hrest, -⟩ := hgoes.steady.solid.mark .less h.less
  have hsource : source = before ++ '<' :: next.current.behind :=
    hbefore.trans (congrArg (before ++ ·) hrest)
  have hlength : next.offset = 0 + byteLength before := hoffset
  exact ⟨before, next.current.behind, hsource, by rw [← h.behind, hlength, Nat.zero_add], _, h.slash⟩

/-- **What is written between two tags is read between them.** -/
theorem shows
    (h : ReadBetween (before ++ (renderText t ++ '<' :: tail)) (runRule grammar fuel) tag closing
      children c st next)
    (hbefore : byteLength before = tag.opening.stop)
    (hslash : ∃ m, (scan .code ⟨tail, m⟩).token.kind = .punct .slash) :
    Markup.textOf children = t ∧ children.any Markup.isStructural = false ∧
      closing.span.start = tag.opening.stop + byteLength (renderText t) := by
  obtain ⟨rest, hcurrent⟩ := h.current
  -- The reader stands behind the opening tag, so what is left is what was written there.
  have hrest : rest = renderText t ++ '<' :: tail := by
    obtain ⟨used, hused, hoffset⟩ := h.steady.reached
    rw [hcurrent, Scanned.here_scanChild] at hused hoffset
    have hlength : byteLength before = byteLength used := by
      rw [hbefore]
      simpa using hoffset
    exact (append_inj_of_byteLength_eq hused hlength).2.symm
  rw [hrest] at hcurrent
  obtain ⟨htext, hleaf, hbehind⟩ :=
    Outcome.Gives.of_done (shows_renderText fuel c hcurrent hslash) h.run
  refine ⟨htext, hleaf, ?_⟩
  rw [← h.behind, State.offset, hbehind]
  rfl

end ReadBetween

end Retouch.Script
