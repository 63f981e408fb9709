import Retouch.Proofs.Script.TargetName
import Retouch.Proofs.Script.Written

/-!
# Running the rules over an element

An element of two plain tags, each of them a name between its signs, is read as it was written, with any
text between the tags and anything behind it (`run_element`). A source that is such an element and nothing
else can be read, and its markup is the element (`parse_plainElement`).

Its name is any one part of a name that a new element can have, so the first word of it may be a keyword.
For the rules for statements and expressions it then has to be seen that no function with types begins
there (`run_angleLikeness`): behind the word stands a mark that none begins with.
-/

namespace Retouch.Script

open Text Cursor

/-! ## Names -/

/-- The sign that ends a tag ends every name. -/
theorem ends_greater (v : Text) : Ends [] ('>' :: v) :=
  ends_cons (by decide) (by decide) (by decide) [] v

/-- The token that a part of a name begins with: the word up to the first hyphen. -/
theorem scan_part {part u : Text} (h : isNamePart part = true) (hu : Ends [] u) (n : Nat) :
    let word := readWord 0 true (part ++ u) n
    scan .code ⟨part ++ u, n⟩
        = .of (wordKind word.letters) [] false word.escaped ⟨part ++ u, n⟩ word.behind ∧
      word.letters ++ (hyphenTail word.behind).1 = part ∧
      (hyphenTail word.behind).2 = ⟨u, n + byteLength part⟩ := by
  intro word
  obtain ⟨hletters, hbehind⟩ := Prod.mk.inj (hyphenWord_part h hu n)
  refine ⟨?_, hletters, hbehind⟩
  obtain ⟨c, rest, rfl, hsmall, hgap⟩ := exists_cons_of_isNamePart h
  have hstart : belongs true c = true := by
    simp [belongs, isIdentifierStart, (isAlpha_of_isSmall hsmall).1]
  have hne : word.letters.isEmpty = false := by
    show (readWord 0 true (c :: (rest ++ u)) n).letters.isEmpty = false
    rw [readWord_belongs hstart]
    rfl
  rw [List.cons_append, scan_of_skipGap (by decide) (hgap.skipGap (rest ++ u) n false), scanToken]
  dsimp only
  rw [show isIdentifierStart c = true from hstart, Bool.true_or, if_pos rfl]
  have hword : readWord 0 true (c :: (rest ++ u)) n = word := rfl
  rw [hword, if_neg (by rw [hne]; exact Bool.false_ne_true)]

theorem faults_rescan_hyphens (s : Scanned) :
    (rescan .hyphens s).token.faults = s.token.faults := by
  unfold rescan
  dsimp only
  split
  · exact List.append_nil _
  · rfl

/-- A name that is one part is read again as one word, whatever word it begins with. -/
theorem rescan_part {part u : Text} (h : isNamePart part = true) (hu : Ends [] u) (n : Nat) :
    let s := rescan .hyphens (scan .code ⟨part ++ u, n⟩)
    s.token.kind.word? = some part ∧ s.after = ⟨u, n + byteLength part⟩ ∧ s.token.faults = [] := by
  obtain ⟨hscan, hletters, hbehind⟩ := scan_part h hu n
  have hword : (scan .code ⟨part ++ u, n⟩).token.kind.word?
      = some (readWord 0 true (part ++ u) n).letters := by
    rw [hscan]
    exact word?_wordKind _
  obtain ⟨hhyphens, hafter⟩ := rescan_hyphens hword
  rw [hscan] at hhyphens hafter
  rw [hscan]
  refine ⟨hhyphens.trans (congrArg some hletters), hafter.trans hbehind, ?_⟩
  rw [faults_rescan_hyphens]
  rfl

/-- The sign of a tag is one by itself before a name. -/
theorem scan_less_part {part u : Text} (h : isNamePart part = true) (n : Nat) :
    scan .code ⟨'<' :: (part ++ u), n⟩
      = .of (.punct .less) [] false false ⟨'<' :: (part ++ u), n⟩ ⟨part ++ u, n + 1⟩ := by
  obtain ⟨a, rest, rfl, hsmall, -⟩ := exists_cons_of_isNamePart h
  have hgap : EndsGap '<' := ⟨by decide, by decide, by decide⟩
  have hne : ∀ c : Char, isSmall c = false → (c == a) = false := by
    intro c hc
    rw [beq_eq_false_iff_ne]
    rintro rfl
    rw [hsmall] at hc
    cases hc
  have hmark : Punct.longest? Punct.inCode ('<' :: (a :: rest ++ u)) = some .less := by
    simp [Punct.longest?, Punct.inCode, List.find?, Punct.text, List.isPrefixOf,
      hne '<' (by decide), hne '=' (by decide)]
  exact scan_sign (hgap.skipGap _ n false) (by decide) hmark

/-- So is the slash of a closing tag. -/
theorem scan_slash_part {part u : Text} (h : isNamePart part = true) (n : Nat) :
    scan .code ⟨'/' :: (part ++ u), n⟩
      = .of (.punct .slash) [] false false ⟨'/' :: (part ++ u), n⟩ ⟨part ++ u, n + 1⟩ := by
  obtain ⟨a, rest, rfl, hsmall, -⟩ := exists_cons_of_isNamePart h
  exact scan_slash_name (by simp [isIdentifierStart, (isAlpha_of_isSmall hsmall).1]) (rest ++ u) n

/-! ## Tags -/

section Runs

variable {use : Use} {st : State} {name t v : Text} {n : Nat}

/-- The sign that ends a tag. -/
def signAt (v : Text) (n : Nat) : Scanned :=
  .of (.punct .greater) [] false false ⟨'>' :: v, n⟩ ⟨v, n + 1⟩

theorem run_tagWord_part (h : isNamePart name = true)
    (hst : st.current = scan .code ⟨name ++ '>' :: v, n⟩) :
    tagWord.run use st = .done name
      { st with
        current := signAt v (n + byteLength name)
        lastStop := n + byteLength name } := by
  obtain ⟨hword, hafter, hfaults⟩ := rescan_part h (ends_greater v) n
  rw [← hst] at hword hafter hfaults
  have hreread : st.reread .hyphens = { st with current := rescan .hyphens st.current } := by
    unfold State.reread
    dsimp only
    rw [hfaults, List.drop_nil]
    rfl
  have hbehind : (st.reread .hyphens).advance .code
      = { st with
          current := signAt v (n + byteLength name)
          lastStop := n + byteLength name } := by
    have hstop : (rescan .hyphens st.current).token.stop = n + byteLength name :=
      congrArg Cursor.offset hafter
    rw [hreread, State.advance_eq (congrArg (scan .code) hafter) rfl, hstop]
    rfl
  have hcurrent : (st.reread .hyphens).current.token.kind.word? = some name := by
    rw [hreread]
    exact hword
  refine (Prog.run_bind_of (run_reread _ .hyphens st) _).trans ?_
  refine (Prog.run_bind_of (run_kind _ _) _).trans ?_
  rw [hcurrent]
  exact congrArg (Outcome.done name) hbehind

/-- The name in a tag that ends behind it. -/
theorem run_tagName_part (c : Ctx) (h : isNamePart name = true) (hthis : name ≠ Keyword.this.text)
    (hst : st.current = scan .code ⟨name ++ '>' :: v, n⟩) :
    (tagName c).run use st = .done ⟨name, some name, ⟨n, n + byteLength name⟩⟩
      { st with
        current := signAt v (n + byteLength name)
        lastStop := n + byteLength name } := by
  have hintrinsic : intrinsicName name = some name := by
    obtain ⟨a, rest, rfl, hsmall, -⟩ := exists_cons_of_isNamePart h
    simp [intrinsicName, (isAlpha_of_isSmall hsmall).2, isUpper_of_isSmall hsmall, hthis]
  have hstart : st.current.token.start = n := by
    rw [hst, (scan_part h (ends_greater _) n).1]
    rfl
  refine (Prog.run_bind_of (run_here _ st) _).trans ?_
  refine (Prog.run_bind_of (run_tagWord_part h hst) _).trans ?_
  rw [hstart, ← hintrinsic]
  rfl

/-- The tags of an element that is written plainly, from `n` on, with a text between them. -/
def plainTag (name t : Text) (n : Nat) : Tag :=
  let nameSpan : Span := ⟨n + 1, n + 1 + byteLength name⟩
  let opening : Span := ⟨n, nameSpan.stop + 1⟩
  let closing := opening.stop + byteLength (renderText t)
  let closingName : Span := ⟨closing + 1 + 1, closing + 1 + 1 + byteLength name⟩
  { name := some name
    span := ⟨n, closingName.stop + 1⟩
    opening := opening
    nameSpan := nameSpan
    closing := some ⟨⟨closing, closingName.stop + 1⟩, closingName⟩
    style := none
    insertAt := nameSpan.stop }

/-- Behind an opening tag stands what was written there. -/
theorem advance_signAt (hst : st.current = signAt (renderText t ++ '<' :: v) n) :
    st.advance .child
      = { st with current := scanChild ⟨renderText t ++ '<' :: v, n + 1⟩, lastStop := n + 1 } := by
  have hstop : st.current.token.stop = n + 1 := by
    rw [hst]
    rfl
  have hcurrent : scan .child st.current.after = scanChild ⟨renderText t ++ '<' :: v, n + 1⟩ := by
    rw [hst]
    rfl
  rw [State.advance_eq hcurrent (faults_scanChild_renderText t v (n + 1)), hstop]

/-- The two signs that a closing tag begins with. -/
theorem run_closingStart (h : isNamePart name = true)
    (hst : st.current = scanChild ⟨'<' :: '/' :: (name ++ '>' :: v), n⟩) :
    closingStart.run use st = .done ()
      { st with current := scan .code ⟨name ++ '>' :: v, n + 1 + 1⟩, lastStop := n + 1 + 1 } := by
  have hname := (scan_part h (ends_greater v) (n + 1 + 1)).1
  obtain ⟨current, lastStop, faults, reports, found, suspects, ruledOut⟩ := st
  obtain rfl : current = _ := hst
  refine (Prog.run_bind_of (run_expect use rfl rfl) _).trans ?_
  rw [State.advance_eq (scan_slash_part h (n + 1)) rfl]
  refine (run_expect use rfl rfl).trans ?_
  rw [State.advance_eq hname rfl, ← hname]
  rfl

/-- An element behind the first sign of its opening tag: its name, no attributes, what was written between
the tags, and the same name again. -/
theorem run_elementRest (fuel : Nat) (c : Ctx) (between : Bool) (h : isNamePart name = true)
    (hthis : name ≠ Keyword.this.text)
    (hst : st.current
      = scan .code ⟨name ++ '>' :: (renderText t ++ '<' :: '/' :: (name ++ '>' :: v)), n + 1⟩) :
    (elementRest c between n).run (runRule grammar (fuel + 11)) st
      = .done (.element (plainTag name t n) [] (piecesOf t))
        { (st.withCurrent (scan (if between then .child else .code)
            ⟨v, (plainTag name t n).span.stop⟩)) with
          lastStop := (plainTag name t n).span.stop } := by
  have htypes : ∀ (use : Use) (st' : State), st'.current.token.kind = .punct .greater →
      (elementRest.typeArgumentsOfTag c).run use st' = .done [] st' := by
    intro use st' hkind
    refine (Prog.run_bind_of (run_kind use st') _).trans ?_
    rw [hkind, show (c.typed && (TokenKind.punct .greater == .punct .less
      || TokenKind.punct .greater == .punct .shiftLeft)) = false from Bool.and_false _]
    rfl
  have hslash : ∃ m, (scan .code ⟨'/' :: (name ++ '>' :: v), m⟩).token.kind = .punct .slash :=
    ⟨0, congrArg (fun s => s.token.kind) (scan_slash_part h 0)⟩
  refine (Prog.run_bind_of (run_tagName_part c h hthis hst) _).trans ?_
  refine (Prog.run_bind_of (htypes _ _ rfl) _).trans ?_
  refine (Prog.run_bind_of (a := ([], [])) rfl _).trans ?_
  dsimp only
  refine (Prog.run_bind_of (a := false) rfl _).trans ?_
  rw [if_neg Bool.false_ne_true]
  refine (Prog.run_bind_of (a := ()) rfl _).trans ?_
  refine (Prog.run_bind_of (a := (plainTag name t n).opening) rfl _).trans ?_
  rw [if_pos rfl, advance_signAt rfl]
  refine (Prog.run_bind_of (Prog.run_call_of (run_children_renderText fuel _ rfl hslash)) _).trans ?_
  refine (Prog.run_bind_of (run_here _ _) _).trans ?_
  refine (Prog.run_bind_of (run_closingStart h rfl) _).trans ?_
  refine (Prog.run_bind_of (run_tagName_part c h hthis rfl) _).trans ?_
  refine (Prog.run_bind_of (a := ()) rfl _).trans ?_
  rw [beq_self_eq_true, if_pos rfl]
  rfl

/-- A piece of source: an element of two plain tags with a text between them. -/
def plainElement (name t : Text) : Text :=
  '<' :: (name ++ '>' :: (renderText t ++ '<' :: '/' :: (name ++ ['>'])))

/-- The sign that begins a tag. -/
def lessAt (behind : Text) (n : Nat) : Scanned :=
  .of (.punct .less) [] false false ⟨'<' :: behind, n⟩ ⟨behind, n + 1⟩

/-- **An element is read as it was written**, whatever stands behind it. -/
theorem run_element (fuel : Nat) (c : Ctx) (between : Bool) (h : isNamePart name = true)
    (hthis : name ≠ Keyword.this.text)
    (hst : st.current
      = lessAt (name ++ '>' :: (renderText t ++ '<' :: '/' :: (name ++ '>' :: v))) n) :
    runRule grammar (fuel + 12) c (.element between) st
      = .done (.element (plainTag name t n) [] (piecesOf t))
        { (st.withCurrent (scan (if between then .child else .code)
            ⟨v, (plainTag name t n).span.stop⟩)) with
          lastStop := (plainTag name t n).span.stop } := by
  generalize hbehind : renderText t ++ '<' :: '/' :: (name ++ '>' :: v) = behind at hst
  obtain ⟨hname, -⟩ := scan_part h (ends_greater behind) (n + 1)
  have hword : (scan .code ⟨name ++ '>' :: behind, n + 1⟩).token.kind.word?
      = some (readWord 0 true (name ++ '>' :: behind) (n + 1)).letters := by
    rw [hname]
    exact word?_wordKind _
  have hgreater : ((scan .code ⟨name ++ '>' :: behind, n + 1⟩).token.kind == .punct .greater)
      = false := by
    rw [beq_eq_false_iff_ne]
    intro hsign
    rw [hsign] at hword
    cases hword
  obtain ⟨current, lastStop, faults, reports, found, suspects, ruledOut⟩ := st
  obtain rfl : current = _ := hst
  refine (Prog.run_bind_of (run_here _ _) _).trans ?_
  refine (Prog.run_bind_of (run_expect _ rfl rfl) _).trans ?_
  rw [State.advance_eq hname rfl, ← hname]
  refine (Prog.run_bind_of (run_kind _ _) _).trans ?_
  dsimp only
  rw [hgreater, if_neg Bool.false_ne_true, TokenKind.isWord, hword, if_pos Option.isSome_some, ← hbehind]
  exact run_elementRest fuel c.enclosed between h hthis rfl

/-! ## An element alone -/

/-- Behind the word that a name begins with stands a mark that continues or ends the tag. -/
theorem exists_mark_behind_part (h : isNamePart name = true) :
    ∃ mark, (scan .code (scan .code ⟨name ++ '>' :: v, n⟩).after).token.kind = .punct mark ∧
      mark ≠ .comma ∧ mark ≠ .assign := by
  obtain ⟨hscan, -, hbehind⟩ := scan_part h (ends_greater v) n
  have hafter : (scan .code ⟨name ++ '>' :: v, n⟩).after
      = (readWord 0 true (name ++ '>' :: v) n).behind := by
    rw [hscan]
    rfl
  rw [hafter]
  generalize (readWord 0 true (name ++ '>' :: v) n).behind = c at hbehind
  obtain ⟨rest, k⟩ := c
  unfold hyphenTail at hbehind
  split at hbehind
  · next more hrest =>
    obtain rfl : rest = '-' :: more := hrest
    obtain ⟨mark, hmark⟩ : ∃ mark, Punct.longest? Punct.inCode ('-' :: more) = some mark :=
      Option.isSome_iff_exists.1 (List.find?_isSome.2 ⟨.minus, by decide, rfl⟩)
    have hspelt := List.find?_some hmark
    have hgap : EndsGap '-' := ⟨by decide, by decide, by decide⟩
    refine ⟨mark, ?_, ?_, ?_⟩
    · rw [scan_sign (hgap.skipGap more k false) (by decide) hmark]
      rfl
    · rintro rfl
      cases hspelt
    · rintro rfl
      cases hspelt
  · rw [show Cursor.mk rest k = ⟨'>' :: v, n + byteLength name⟩ from hbehind]
    exact ⟨.greater, rfl, by decide, by decide⟩

/-- No arrow function with types begins where such a mark stands behind the first word. -/
theorem run_angleLikeness {mark : Punct} (h : (st.look 2).kind = .punct mark)
    (hcomma : mark ≠ .comma) (hassign : mark ≠ .assign) :
    (angleLikeness 0).run use st = .done .noArrow st := by
  refine (Prog.run_bind_of (run_kindAhead use 1 st) _).trans ?_
  cases hconst : (st.look 1).kind == .keyword .const with
  | true =>
    rw [if_pos rfl]
    refine (Prog.run_bind_of (run_kindAhead use 2 st) _).trans ?_
    rw [h]
    rfl
  | false =>
    rw [if_neg Bool.false_ne_true]
    refine (Prog.run_bind_of (run_kindAhead use 1 st) _).trans ?_
    split
    · rfl
    · refine (Prog.run_bind_of (run_kindAhead use 2 st) _).trans ?_
      rw [h]
      cases mark <;> first | rfl | contradiction

/-- Whether the reader stands at an element where an expression may begin: at the sign of its tag, with
a word behind it and a mark behind that. -/
structure State.BeginsElement (st : State) : Prop where
  less : st.current.token.kind = .punct .less
  word : (st.look 1).kind.isWord = true
  mark : ∃ mark, (st.look 2).kind = .punct mark ∧ mark ≠ .comma ∧ mark ≠ .assign

/-- The reader at the end of a source. -/
def State.atEnd (stop : Nat) (found : List Markup) : State :=
  ⟨.of .endOfSource [] false false ⟨[], stop⟩ ⟨[], stop⟩, stop, [], [], found, [], []⟩

section Alone

variable {fuel : Nat} {piece : Markup} {stop : Nat} (hst : st.BeginsElement)
  (helement : ∀ c, runRule grammar fuel c (.element false) st = .done piece (.atEnd stop []))
include hst helement

theorem run_simpleUnary_element (c : Ctx) : runRule grammar (fuel + 1) c .simpleUnary st
    = .done (.plain st.current.token.start .other) (.atEnd stop [piece]) := by
  have hemit : (emitElement c).run (runRule grammar fuel) st = .done () (.atEnd stop [piece]) := by
    show Prog.run (runRule grammar fuel) (.step (.emitElement c) .done) st = _
    rw [Prog.run, helement c]
    rfl
  have hupdate : (updateExpression c).run (runRule grammar fuel) st
      = .done (.plain st.current.token.start .other) (.atEnd stop [piece]) := by
    refine (Prog.run_bind_of (run_token _ st) _).trans ?_
    rw [hst.less, if_neg (by decide)]
    refine (Prog.run_bind_of (run_kindAhead _ 1 st) _).trans ?_
    rw [hst.word, Bool.true_or, Bool.and_true, if_pos (beq_self_eq_true _)]
    exact (Prog.run_bind_of hemit _).trans rfl
  refine (Prog.run_bind_of (run_token _ st) _).trans ?_
  rw [hst.less, if_neg (by decide)]
  exact (Prog.run_bind_of (run_pure _ false st) _).trans hupdate

theorem run_binary_element (c : Ctx) : runRule grammar (fuel + 3) c (.binary 0) st
    = .done (.plain st.current.token.start .other) (.atEnd stop [piece]) := by
  have hunary : runRule grammar (fuel + 2) c .unary st
      = .done (.plain st.current.token.start .other) (.atEnd stop [piece]) :=
    Prog.run_call_of (run_simpleUnary_element hst helement c)
  refine (Prog.run_bind_of (run_token _ st) _).trans ?_
  rw [hst.less, show (TokenKind.punct .less == .privateName) = false from rfl, Bool.and_false,
    if_neg Bool.false_ne_true]
  refine (Prog.run_bind_of (Prog.run_call_of hunary) _).trans ?_
  rfl

theorem run_assignment_element (c : Ctx) : runRule grammar (fuel + 4) c (.assignment true) st
    = .done (.plain st.current.token.start .other) (.atEnd stop [piece]) := by
  have hword : ∀ word : Keyword, (atWord? word).run (runRule grammar (fuel + 3)) st = .done false st := by
    intro word
    refine (Prog.run_bind_of (run_kind _ st) _).trans ?_
    rw [hst.less]
    rfl
  have harrow : (arrowFunction? c true).run (runRule grammar (fuel + 3)) st = .done none st := by
    obtain ⟨mark, hmark, hcomma, hassign⟩ := hst.mark
    have hlikeness : (parenthesisedArrow c).run (runRule grammar (fuel + 3)) st = .done .noArrow st := by
      refine (Prog.run_bind_of (run_kind _ st) _).trans ?_
      rw [hst.less]
      exact run_angleLikeness hmark hcomma hassign
    refine (Prog.run_bind_of (run_here _ st) _).trans ?_
    refine (Prog.run_bind_of hlikeness _).trans ?_
    rfl
  have hasync : (asyncArrow? c true).run (runRule grammar (fuel + 3)) st = .done none st := by
    refine (Prog.run_bind_of (run_here _ st) _).trans ?_
    refine (Prog.run_bind_of (run_look _ 1 st) _).trans ?_
    refine (Prog.run_bind_of (run_look _ 2 st) _).trans ?_
    refine (Prog.run_bind_of (hword .async) _).trans ?_
    rfl
  refine (Prog.run_bind_of (hword .yield) _).trans ?_
  refine (Prog.run_bind_of (run_pure _ false st) _).trans ?_
  refine (Prog.run_bind_of harrow _).trans ?_
  refine (Prog.run_bind_of hasync _).trans ?_
  refine (Prog.run_bind_of (Prog.run_call_of (run_binary_element hst helement c)) _).trans ?_
  rfl

/-- A statement that is an element and nothing else. -/
theorem run_statements_element (c : Ctx) : runRule grammar (fuel + 7) c (.statements false) st
    = .done () (.atEnd stop [piece]) := by
  have hexpression : runRule grammar (fuel + 5) c .expression st
      = .done (.plain st.current.token.start .other) (.atEnd stop [piece]) := by
    refine (Prog.run_bind_of (Prog.run_call_of
      (run_assignment_element hst helement { c with decorating := false })) _).trans ?_
    rfl
  have hstatement : runRule grammar (fuel + 6) c (.statement false) st
      = .done () (.atEnd stop [piece]) := by
    refine (Prog.run_bind_of (run_token _ st) _).trans ?_
    refine (Prog.run_bind_of (run_look _ 1 st) _).trans ?_
    rw [hst.less]
    refine (Prog.run_bind_of (Prog.run_call_of hexpression) _).trans ?_
    rfl
  refine (Prog.run_bind_of (run_kind _ st) _).trans ?_
  rw [hst.less]
  refine (Prog.run_bind_of (run_skip_of hstatement) _).trans ?_
  rfl

end Alone

/-- **A source of one element.** It is read as that element, whatever text stands in it. -/
theorem parse_plainElement (typed : Bool) (h : isNamePart name = true)
    (hthis : name ≠ Keyword.this.text) :
    parse typed (plainElement name t) = .ok [.element (plainTag name t 0) [] (piecesOf t)] := by
  generalize hbehind : renderText t ++ '<' :: '/' :: (name ++ ['>']) = behind
  have hsource : plainElement name t = '<' :: (name ++ '>' :: behind) := by
    rw [← hbehind]
    rfl
  have hstart : State.start (plainElement name t)
      = ⟨lessAt (name ++ '>' :: behind) 0, 0, [], [], [], [], []⟩ := by
    rw [hsource]
    show State.mk (scan .code ⟨'<' :: (name ++ '>' :: behind), 0⟩) 0
      (scan .code ⟨'<' :: (name ++ '>' :: behind), 0⟩).token.faults.reverse [] [] [] [] = _
    rw [scan_less_part h 0]
    rfl
  have hbegins : (State.start (plainElement name t)).BeginsElement := by
    rw [hstart]
    refine ⟨rfl, ?_, exists_mark_behind_part h⟩
    show (scan .code ⟨name ++ '>' :: behind, 1⟩).token.kind.isWord = true
    rw [(scan_part h (ends_greater _) 1).1]
    exact congrArg Option.isSome (word?_wordKind _)
  obtain ⟨fuel, hfuel⟩ : ∃ fuel, depthFor (plainElement name t).length = fuel + 12 + 7 :=
    ⟨depthFor (plainElement name t).length - 19, by unfold depthFor; omega⟩
  have helement : ∀ c, runRule grammar (fuel + 12) c (.element false) (State.start (plainElement name t))
      = .done (.element (plainTag name t 0) [] (piecesOf t))
          (.atEnd (plainTag name t 0).span.stop []) := by
    intro c
    rw [hstart]
    refine (run_element fuel c false h hthis (v := []) (by rw [hbehind])).trans ?_
    rfl
  have hstatements := run_statements_element hbegins helement (.start typed)
  have hscript : (script typed).run (runRule grammar (fuel + 12 + 7)) (.start (plainElement name t))
      = .done () (.atEnd (plainTag name t 0).span.stop
          [.element (plainTag name t 0) [] (piecesOf t)]) :=
    (Prog.run_bind_of (run_skip_of hstatements) _).trans rfl
  rw [parse, hfuel, hscript]
  rfl

end Runs

end Retouch.Script
