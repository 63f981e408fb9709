import Retouch.Proofs.Script.Found
import Retouch.Script.Grammar

/-!
# Document order is textual order

The elements that reading a script finds are those of its text, one behind the other. The main
statement is `inOrder_parse`: listed in document order they begin at increasing offsets, and at each
of these offsets stands the sign `<`. In particular no two elements begin at one offset.

What any program finds stands in order (`passes`), given that the rules for markup give what
they should (`Behaves`). These rules are looked at here, and `behaves_runRule` says that all rules
behave so, nested however deep.
-/

namespace Retouch.Script

open Text

section Programs

variable {source : Text} {use : Use} {st : State}

/-! ## Steps that only move on -/

theorem moves_token : token.Moves source use := fun _ h => .refl h

theorem moves_kind : kind.Moves source use := .bind moves_token fun _ => .pure _

theorem moves_kindAhead (n : Nat) : (kindAhead n).Moves source use :=
  .bind (p := perform (.look n)) (fun _ h => .refl h) fun _ => .pure _

theorem moves_here : here.Moves source use := .bind moves_token fun _ => .pure _

theorem moves_lastStop : lastStop.Moves source use := fun _ h => .refl h

theorem moves_spanFrom (start : Nat) : (spanFrom start).Moves source use :=
  .bind moves_lastStop fun _ => .pure _

theorem moves_reportAt (offset : Nat) (cause : Cause) : (reportAt offset cause).Moves source use :=
  fun _ h => ⟨.of_eq h rfl rfl, rfl⟩

theorem moves_report (cause : Cause) : (report cause).Moves source use :=
  .bind moves_here fun _ => moves_reportAt _ _

theorem moves_reread (how : Rescan) : (perform (.reread how)).Moves source use :=
  fun _ h => ⟨.reread h how, rfl⟩

theorem moves_step (place : Place) : (perform (.advance place)).Moves source use :=
  fun _ h => ⟨.advance h place, rfl⟩

theorem moves_advanceName : advanceName.Moves source use := moves_step .code

theorem moves_advanceIn (place : Place) : (advanceIn place).Moves source use := by
  refine .bind moves_token fun t => .ite ?_ (moves_step place)
  split
  · exact .bind (moves_report _) fun _ => moves_step place
  · exact moves_step place

theorem moves_advance : advance.Moves source use := moves_advanceIn .code

theorem moves_at? (mark : Punct) : (at? mark).Moves source use := .bind moves_kind fun _ => .pure _

theorem moves_eat (mark : Punct) : (eat mark).Moves source use :=
  .bind (moves_at? mark) fun _ => .ite (.bind moves_advance fun _ => .pure _) (.pure _)

theorem moves_demand (mark : Punct) : (demand mark).Moves source use :=
  .bind moves_token fun _ => .ite (.pure _) (.stop _)

theorem moves_expect (mark : Punct) : (expect mark).Moves source use :=
  .bind (moves_demand mark) fun _ => moves_advance

theorem moves_endTag (between : Bool) : (endTag between).Moves source use :=
  .bind (moves_demand _) fun _ => moves_advanceIn _

theorem moves_closingStart : closingStart.Moves source use :=
  .bind (moves_expect _) fun _ => moves_expect _

theorem moves_endCode : containedCode.endCode.Moves source use :=
  .bind (moves_demand _) fun _ => moves_advanceIn _

theorem moves_tagWord : tagWord.Moves source use := by
  refine .bind (moves_reread _) fun _ => .bind moves_kind fun k => ?_
  split
  · exact .bind moves_advanceName fun _ => .pure _
  · exact .stop _

theorem moves_callTagMembers (hb : Behaves source use) (c : Ctx) (written : Text) :
    (call c (.tagMembers written)).Moves source use :=
  .call hb (hb.tagMembers c written)

theorem moves_tagMembersRule (hb : Behaves source use) (c : Ctx) (written : Text) :
    (tagMembersRule c written).Moves source use := by
  refine .bind (moves_eat _) fun _ => .ite ?_ (.pure _)
  refine .bind moves_here fun _ => .bind moves_tagWord fun word => ?_
  have hrest := moves_callTagMembers hb c (written ++ '.' :: word)
  exact .ite (.bind (moves_reportAt _ _) fun _ => hrest) hrest

theorem moves_tagName (hb : Behaves source use) (c : Ctx) : (tagName c).Moves source use := by
  refine .bind moves_here fun start => .bind moves_tagWord fun word => ?_
  refine .bind (moves_eat _) fun _ => .ite ?_ ?_
  · exact .bind moves_tagWord fun _ => .bind (moves_spanFrom _) fun _ => .pure _
  · refine .bind (moves_at? _) fun _ => .ite ?_ (.bind (moves_spanFrom _) fun _ => .pure _)
    exact .bind (moves_callTagMembers hb c word) fun _ => .bind (moves_spanFrom _) fun _ => .pure _

/-! ## The sign that begins a tag -/

theorem gives_token : token.Gives use st fun t next => t = st.current.token ∧ next = st :=
  ⟨rfl, rfl⟩

theorem gives_kind : kind.Gives use st fun k next => k = st.current.token.kind ∧ next = st :=
  ⟨rfl, rfl⟩

theorem gives_here : here.Gives use st fun n next => n = st.offset ∧ next = st := ⟨rfl, rfl⟩

theorem gives_demand (mark : Punct) :
    (demand mark).Gives use st fun _ next => next = st ∧ st.current.token.kind = .punct mark := by
  refine Prog.Gives.bind gives_token ?_
  rintro t next ⟨rfl, rfl⟩
  split
  · rename_i hmark
    exact ⟨rfl, eq_of_beq hmark⟩
  · trivial

theorem gives_expectLess (h : st.Sound source) :
    (expect .less).Gives use st fun _ next =>
      st.Moved source next ∧ st.offset < next.offset ∧ st.current.token.kind = .punct .less := by
  refine Prog.Gives.bind (gives_demand .less) ?_
  rintro - next ⟨rfl, hless⟩
  refine Prog.Gives.bind gives_token ?_
  rintro t last ⟨rfl, rfl⟩
  have hmoved : last.Moved source (last.advance .code) := ⟨.advance h .code, rfl⟩
  have hlt := State.offset_lt_advance h hless .code
  -- A sign is no keyword, so it is left behind at once.
  rw [hless]
  split
  · exact ⟨hmoved, hlt, rfl⟩
  · exact ⟨hmoved, hlt, rfl⟩

/-! ## Between tags -/

/-- Pieces that stand where the reader was moved over. -/
def PiecesBetween (source : Text) (st : State) (pieces : List Markup) (next : State) : Prop :=
  st.Moved source next ∧ InOrder source st.offset next.offset pieces

/-- Pieces without elements stand anywhere. -/
theorem PiecesBetween.of_nil {pieces : List Markup} {next : State} (h : st.Moved source next)
    (hstarts : starts pieces = []) : PiecesBetween source st pieces next :=
  ⟨h, (InOrder.nil source _ _).congr hstarts⟩

/-- Pieces behind a place that the reader has moved to. -/
theorem PiecesBetween.after {middle next : State} {pieces : List Markup}
    (h : st.Moved source middle) (hpieces : PiecesBetween source middle pieces next) :
    PiecesBetween source st pieces next :=
  ⟨h.trans hpieces.1, hpieces.2.mono h.le (Nat.le_refl _)⟩

/-- The reader moves on behind pieces. -/
theorem PiecesBetween.before {middle next : State} {pieces : List Markup}
    (hpieces : PiecesBetween source st pieces middle) (h : middle.Moved source next) :
    PiecesBetween source st pieces next :=
  ⟨hpieces.1.trans h, hpieces.2.mono (Nat.le_refl _) h.le⟩

/-- Pieces and those behind them. -/
theorem PiecesBetween.append {middle next : State} {pieces more : List Markup}
    (hpieces : PiecesBetween source st pieces middle)
    (hmore : PiecesBetween source middle more next) :
    PiecesBetween source st (pieces ++ more) next :=
  ⟨hpieces.1.trans hmore.1, hpieces.2.append hmore.2 hpieces.1.le hmore.1.le⟩

theorem gives_callChildren (hb : Behaves source use) (c : Ctx) (h : st.Sound source) :
    (call c .children).Gives use st (PiecesBetween source st) := by
  refine Prog.Gives.call (((hb.passes c .children st h).and (hb.children c st h)).imp ?_)
  rintro pieces next ⟨hpassed, hfound, horder⟩
  exact ⟨⟨hpassed, hfound⟩, horder⟩

theorem gives_callElement (hb : Behaves source use) (c : Ctx) (between : Bool)
    (h : st.Sound source) :
    (call c (.element between)).Gives use st fun piece => PiecesBetween source st [piece] := by
  have helement := hb.element c between st h
  refine Prog.Gives.call (((hb.passes c (.element between) st h).and helement).imp ?_)
  rintro piece next ⟨hpassed, hfound, horder⟩
  exact ⟨⟨hpassed, hfound⟩, horder⟩

theorem gives_containedCode (hb : Behaves source use) (c : Ctx) (h : st.Sound source) :
    (containedCode c).Gives use st fun piece => PiecesBetween source st [piece] := by
  apply Prog.Gives.bind (moves_at? .braceClose st h)
  intro closed next hnext
  split
  · apply Prog.Gives.bind (moves_endCode next hnext.sound)
    intro _ last hlast
    exact .of_nil (hnext.trans hlast) (starts_code [])
  · apply Prog.Gives.bind (moves_eat .ellipsis next hnext.sound)
    intro spread inner hinner
    refine Prog.Gives.bind (gives_gather hb c .expression hinner.sound) ?_
    rintro ⟨e, inside⟩ behind ⟨hpassed, hfound, horder⟩
    apply Prog.Gives.bind (moves_endCode behind hpassed.sound)
    intro _ last hlast
    have hinside : PiecesBetween source st inside last :=
      .after (hnext.trans hinner) (.before ⟨⟨hpassed, hfound⟩, horder⟩ hlast)
    split
    · exact .of_nil hinside.1 (starts_literal _)
    · exact ⟨hinside.1, hinside.2.congr (starts_code inside)⟩

theorem gives_childrenRule (hb : Behaves source use) (c : Ctx) (h : st.Sound source) :
    (childrenRule c).Gives use st (PiecesBetween source st) := by
  refine Prog.Gives.bind gives_kind ?_
  rintro k next ⟨-, rfl⟩
  split
  · apply Prog.Gives.bind (moves_advanceIn .child next h)
    intro _ middle hmiddle
    apply Prog.Gives.bind (gives_callChildren hb c hmiddle.sound)
    intro rest last hrest
    exact .append (.of_nil hmiddle (starts_text _)) hrest
  · apply Prog.Gives.bind (moves_advance next h)
    intro _ inner hinner
    apply Prog.Gives.bind (gives_containedCode hb c hinner.sound)
    intro piece middle hpiece
    apply Prog.Gives.bind (gives_callChildren hb c hpiece.1.sound)
    intro rest last hrest
    exact .append (.after hinner hpiece) hrest
  · apply Prog.Gives.bind (moves_kindAhead 1 next h)
    intro k inner hinner
    split
    · exact .of_nil hinner starts_nil
    · apply Prog.Gives.bind (gives_callElement hb c true hinner.sound)
      intro piece middle hpiece
      apply Prog.Gives.bind (gives_callChildren hb c hpiece.1.sound)
      intro rest last hrest
      exact .append (.after hinner hpiece) hrest
  · trivial

/-! ## Elements -/

theorem gives_fragmentRest (hb : Behaves source use) (c : Ctx) (between : Bool)
    (h : st.Sound source) :
    (fragmentRest c between).Gives use st fun piece => PiecesBetween source st [piece] := by
  apply Prog.Gives.bind (moves_endTag true st h)
  intro _ inner hinner
  apply Prog.Gives.bind (gives_callChildren hb c hinner.sound)
  intro children next hchildren
  apply Prog.Gives.bind (moves_closingStart next hchildren.1.sound)
  intro _ middle hmiddle
  apply Prog.Gives.bind (moves_endTag between middle hmiddle.sound)
  intro _ last hlast
  have hall := (PiecesBetween.after hinner hchildren).before (hmiddle.trans hlast)
  exact ⟨hall.1, hall.2.congr (starts_fragment children)⟩

theorem gives_typeArgumentsOfTag (hb : Behaves source use) (c : Ctx) (h : st.Sound source) :
    (elementRest.typeArgumentsOfTag c).Gives use st (PiecesBetween source st) := by
  refine Prog.Gives.bind gives_kind ?_
  rintro k next ⟨-, rfl⟩
  split
  · refine Prog.Gives.bind (gives_gather hb c .typeArguments h) ?_
    rintro ⟨_, inside⟩ last ⟨hpassed, hfound, horder⟩
    exact ⟨⟨hpassed, hfound⟩, horder⟩
  · exact .of_nil (.refl h) starts_nil

/-- The pieces of an element stand behind the sign with which it begins, so the element begins at
that sign. -/
theorem gives_elementRest (hb : Behaves source use) (c : Ctx) (between : Bool) {start : Nat}
    (h : st.Sound source) (hlt : start < st.offset)
    (hopen : ∃ before rest, source = before ++ '<' :: rest ∧ byteLength before = start) :
    (elementRest c between start).Gives use st fun piece next =>
      st.Moved source next ∧ InOrder source start next.offset [piece] := by
  have helement : ∀ {tag : Tag} {inside children : List Markup} {next : State},
      tag.span.start = start → PiecesBetween source st (inside ++ children) next →
        st.Moved source next ∧ InOrder source start next.offset [.element tag inside children] := by
    rintro tag inside children next rfl hpieces
    exact ⟨hpieces.1, hpieces.2.element hlt hpieces.1.le hopen⟩
  apply Prog.Gives.bind (moves_tagName hb c st h)
  intro name named hnamed
  apply Prog.Gives.bind (gives_typeArgumentsOfTag hb c hnamed.sound)
  intro inTypes typed htyped
  refine Prog.Gives.bind (gives_gather hb c .attributes htyped.1.sound) ?_
  rintro ⟨attributes, inAttributes⟩ attributed ⟨hpassed, hfound, horder⟩
  have hinside : PiecesBetween source st (inTypes ++ inAttributes) attributed :=
    (htyped.append ⟨⟨hpassed, hfound⟩, horder⟩).after hnamed
  apply Prog.Gives.bind (moves_eat .slash attributed hpassed.sound)
  intro closed slashed hslashed
  split
  · apply Prog.Gives.bind (moves_endTag between slashed hslashed.sound)
    intro _ ended hended
    apply Prog.Gives.bind (moves_spanFrom start ended hended.sound)
    intro opening last hlast
    refine helement rfl ?_
    rw [List.append_nil]
    exact hinside.before ((hslashed.trans hended).trans hlast)
  · apply Prog.Gives.bind (moves_endTag true slashed hslashed.sound)
    intro _ ended hended
    apply Prog.Gives.bind (moves_spanFrom start ended hended.sound)
    intro opening opened hopened
    have hopening := hinside.before ((hslashed.trans hended).trans hopened)
    apply Prog.Gives.bind (gives_callChildren hb c hopened.sound)
    intro children inner hchildren
    have hpieces := hopening.append hchildren
    apply Prog.Gives.bind (moves_here inner hchildren.1.sound)
    intro closingAt a ha
    apply Prog.Gives.bind (moves_closingStart a ha.sound)
    intro _ b hb'
    apply Prog.Gives.bind (moves_tagName hb c b hb'.sound)
    intro closingName d hd
    apply Prog.Gives.bind (moves_endTag between d hd.sound)
    intro _ e he
    have hclosed : inner.Moved source e := ((ha.trans hb').trans hd).trans he
    split
    · apply Prog.Gives.bind (moves_spanFrom closingAt e he.sound)
      intro closing last hlast
      exact helement rfl (hpieces.before (hclosed.trans hlast))
    · apply Prog.Gives.bind (moves_reportAt _ _ e he.sound)
      intro _ told htold
      apply Prog.Gives.bind (moves_spanFrom closingAt told htold.sound)
      intro closing last hlast
      exact helement rfl (hpieces.before ((hclosed.trans htold).trans hlast))

theorem gives_elementRule (hb : Behaves source use) (c : Ctx) (between : Bool)
    (h : st.Sound source) :
    (elementRule c between).Gives use st fun piece => PiecesBetween source st [piece] := by
  refine Prog.Gives.bind gives_here ?_
  rintro start first ⟨rfl, rfl⟩
  apply Prog.Gives.bind (gives_expectLess h)
  rintro _ next ⟨hnext, hlt, hless⟩
  refine Prog.Gives.bind gives_kind ?_
  rintro k last ⟨-, rfl⟩
  split
  · apply (gives_fragmentRest hb c.enclosed between hnext.sound).imp
    intro piece last hpiece
    exact .after hnext hpiece
  · split
    · have hopen := State.exists_append_less h hless
      refine (gives_elementRest hb c.enclosed between hnext.sound hlt hopen).imp ?_
      exact fun piece last hpiece => ⟨hnext.trans hpiece.1, hpiece.2⟩
    · trivial

end Programs

/-! ## The whole grammar -/

/-- All rules behave as they should, however deep they are nested. -/
theorem behaves_runRule (source : Text) (fuel : Nat) : Behaves source (runRule grammar fuel) := by
  induction fuel with
  | zero => exact ⟨fun _ _ _ _ => trivial, fun _ _ _ _ => trivial, fun _ _ _ => trivial,
      fun _ _ _ _ => trivial⟩
  | succ fuel ih =>
    refine ⟨fun c r st h => passes ih (grammar c r) h, fun c between st h => ?_,
      fun c st h => ?_, fun c written st h => ?_⟩
    · refine (gives_elementRule ih c between h).imp fun piece next hpiece => ?_
      exact ⟨hpiece.1.found, hpiece.2⟩
    · exact (gives_childrenRule ih c h).imp fun pieces next hpieces => ⟨hpieces.1.found, hpieces.2⟩
    · exact (moves_tagMembersRule ih c written st h).imp fun _ next hnext => hnext.found

/-- The markup of a source is what is found where its script is done. -/
theorem exists_done_of_parse {typed : Bool} {source : Text} {markup : List Markup}
    (h : parse typed source = .ok markup) :
    ∃ a last, (script typed).run (runRule grammar (depthFor source.length)) (.start source)
      = .done a last ∧ last.found.reverse = markup := by
  unfold parse at h
  split at h
  · next a last hrun =>
    split at h
    · cases h
    · exact ⟨a, last, hrun, Except.ok.inj h⟩
  · cases h

/-- **Document order is textual order.** The elements of a script begin one behind the other, each
with the sign `<`. -/
theorem inOrder_parse {typed : Bool} {source : Text} {markup : List Markup}
    (h : parse typed source = .ok markup) :
    InOrder source 0 (byteLength source) markup := by
  obtain ⟨a, last, hdone, rfl⟩ := exists_done_of_parse h
  have hpassed := (passes (behaves_runRule source (depthFor source.length)) (script typed)
    (State.sound_start source)).of_done hdone
  obtain ⟨new, hnew, horder⟩ := hpassed.found
  have hfound : last.found = new := hnew.trans (List.append_nil new)
  rw [hfound]
  exact horder.mono (Nat.zero_le _) hpassed.sound.offset_le

end Retouch.Script
