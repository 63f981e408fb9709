import Retouch.Proofs.Script.Operand

/-!
# How attributes were read

A tag holds only the last style attribute of an element and where it stands. Here it is followed back to
the rule for attributes, which has read it at the place where it begins (`exists_attributeRead`): they are
read one after another, and between them the reader stands behind those before (`exists_between`).

The rules for markup in code leave the reader at a token of code, behind the token that was read last
(`State.Fresh`); so each attribute begins with such a token. The rules are gone through once for all that
can be said in this way of the reader behind a part of a tag (`HoldsBehind`).
-/

namespace Retouch.Script

open Text

/-- Whether the current token was read as code, behind the one before it. -/
def State.Fresh (source : Text) (st : State) : Prop :=
  ∃ before rest, source = before ++ rest ∧ byteLength before = st.lastStop ∧
    st.current = scan .code ⟨rest, st.lastStop⟩

/-- How an attribute was read: by the rule for attributes with a name, where it begins. -/
def AttributeRead (source : Text) (a : Attribute) : Prop :=
  ∃ fuel c st next, State.Steady source st ∧ st.Fresh source ∧ st.offset = a.span.start ∧
    (namedAttribute c st.offset).run (runRule grammar fuel) st = .done a next

/-- What follows the name of an attribute. -/
def attributeRest (c : Ctx) (isStyle : Bool) (start : Nat) : Prog Attribute := do
  if ← at? .assign then
    advanceIn .attribute
    let valueStart ← here
    attributeValue c
    return ⟨isStyle, ← spanFrom start, some (← spanFrom valueStart)⟩
  else return ⟨isStyle, ← spanFrom start, none⟩

/-- An attribute with a name is its name and what follows that. -/
theorem namedAttribute_eq (c : Ctx) (start : Nat) : namedAttribute c start = (do
    let word ← tagWord
    let namespaced ← eat .colon
    if namespaced then
      let _ ← tagWord
      attributeRest c false start
    else attributeRest c (word == "style".toList) start) := by
  unfold namedAttribute
  congr 1
  funext word
  congr 1
  funext namespaced
  cases namespaced <;> rfl

/-! ## Behind the parts of a tag -/

/-- Whether the current token was read, wherever that was. -/
def State.Read (st : State) : Prop := ∃ c, st.current.ReadAt c

/-- Whether the current token is one with which a part of a tag can end: a mark, or a word or a string that
was read. -/
inductive State.CanEnd (st : State) : Prop where
  | mark {mark : Punct} (h : st.current.token.kind = .punct mark) : st.CanEnd
  | word (hread : st.Read) (h : st.current.token.kind.isWord = true) : st.CanEnd
  | string (hread : st.Read) {value : Text} (h : st.current.token.kind = .string value) : st.CanEnd

/-- Whether something holds of the reader in code behind every token with which a part of a tag can end.
It is something about the current token, which was read, and the end of the one before it. -/
structure HoldsBehind (source : Text) (P : State → Prop) : Prop where
  behind : ∀ {st : State}, st.Steady source → st.CanEnd → P (st.advance .code)
  congr : ∀ {st next : State}, P st → next.current = st.current → next.lastStop = st.lastStop → P next
  read : ∀ {st : State}, P st → st.Read

theorem State.read_advance (st : State) (place : Place) : (st.advance place).Read := ⟨_, .scan place⟩

theorem State.Read.reread {st : State} (h : st.Read) (how : Rescan) : (st.reread how).Read :=
  h.imp fun _ hread => hread.rescan how

/-- The reader is at a token of code. -/
theorem holdsBehind_fresh (source : Text) : HoldsBehind source (State.Fresh source) where
  behind {st} h _ := by
    obtain ⟨before, hsource, hoffset⟩ := h.reached.trans h.token.leadsTo
    have hstop : st.current.token.stop = 0 + byteLength before := hoffset
    refine ⟨before, st.current.behind, hsource, ?_, rfl⟩
    show byteLength before = st.current.token.stop
    omega
  congr {st next} h hcurrent hlast := by
    unfold State.Fresh
    rw [hcurrent, hlast]
    exact h
  read {st} h := by
    obtain ⟨before, rest, -, -, hcurrent⟩ := h
    exact ⟨⟨rest, st.lastStop⟩, hcurrent ▸ Scanned.ReadAt.scan .code⟩

section Programs

variable {source : Text} {use : Use} {st : State}

namespace HoldsBehind

variable {P : State → Prop} (hP : HoldsBehind source P)

include hP

theorem after_advance (h : st.Steady source) (hends : st.CanEnd) :
    advance.Gives use st fun _ next => P next := by
  have hreported : ∀ d, P (State.advance { st with reports := d :: st.reports } .code) := fun d =>
    hP.congr (hP.behind h hends) rfl rfl
  refine Prog.Gives.bind gives_token ?_
  rintro t next ⟨rfl, rfl⟩
  split
  · split
    · exact hreported _
    · exact hP.behind h hends
  · exact hP.behind h hends

theorem after_expect (mark : Punct) (h : st.Steady source) :
    (expect mark).Gives use st fun _ next => P next := by
  refine (gives_expect mark).imp ?_
  rintro _ next ⟨rfl, hmark⟩
  exact hP.behind h (.mark hmark)

theorem after_tagWord (h : st.Steady source) (hread : st.Read) :
    tagWord.Gives use st fun _ next => P next := by
  refine gives_tagWord_eq.imp ?_
  rintro word next ⟨hword, rfl⟩
  have hkind : (st.reread .hyphens).current.token.kind.word? = some word := hword
  refine hP.behind (State.Walked.reread h .hyphens).steady (.word (hread.reread .hyphens) ?_)
  rw [TokenKind.isWord, hkind]
  rfl

/-- A mark may be left behind. -/
theorem after_eat (mark : Punct) (h : st.Steady source) (hst : P st) :
    (eat mark).Gives use st fun _ next => P next ∧ next.Steady source := by
  refine (gives_eat mark).imp ?_
  rintro _ next (⟨-, hmark, rfl⟩ | ⟨-, -, rfl⟩)
  · exact ⟨hP.behind h (.mark hmark), (State.Walked.advance h .code).steady⟩
  · exact ⟨hst, h⟩

/-- An element in code ends with a sign behind which the reader is in code. -/
theorem after_elementRule (fuel : Nat) (c : Ctx) (h : st.Steady source) :
    (elementRule c false).Gives (runRule grammar fuel) st fun _ next => P next := by
  have hf := finds_runRule source fuel
  -- Whatever stands before it, the last sign is left behind in code.
  have hend : ∀ next, st.Went source (Known source) next →
      (endTag false).Gives (runRule grammar fuel) next fun _ last => P last := by
    intro next hnext
    refine Prog.Gives.bind (gives_demand .greater) ?_
    rintro _ last ⟨rfl, hmark⟩
    exact hP.after_advance hnext.steady (.mark hmark)
  have hsteps : ∀ {α : Type} (p : Prog α) next, st.Went source (Known source) next →
      p.Gives (runRule grammar fuel) next fun _ last => st.Went source (Known source) last :=
    fun p next hnext => (goes hf p hnext.steady).imp fun _ _ hlast => hnext.trans hlast
  refine Prog.Gives.bind (hsteps here st (.of_walked (.refl h))) ?_
  intro start s hs
  refine Prog.Gives.bind (hsteps (expect .less) s hs) ?_
  intro _ s hs
  refine Prog.Gives.bind (hsteps kind s hs) ?_
  intro k s hs
  split
  · refine Prog.Gives.bind (hsteps (endTag true) s hs) ?_
    intro _ s hs
    refine Prog.Gives.bind (hsteps (call c.enclosed .children) s hs) ?_
    intro children s hs
    refine Prog.Gives.bind (hsteps closingStart s hs) ?_
    intro _ s hs
    exact Prog.Gives.bind (hend s hs) fun _ last hlast => hlast
  · split
    · refine Prog.Gives.bind (hsteps (tagName c.enclosed) s hs) ?_
      intro name s hs
      refine Prog.Gives.bind (hsteps (elementRest.typeArgumentsOfTag c.enclosed) s hs) ?_
      intro inTypes s hs
      refine Prog.Gives.bind (hsteps (gather c.enclosed .attributes) s hs) ?_
      rintro ⟨attributes, inAttributes⟩ s hs
      refine Prog.Gives.bind (hsteps (eat .slash) s hs) ?_
      intro slash s hs
      split
      · refine Prog.Gives.bind (hend s hs) ?_
        intro _ last hlast
        exact Prog.Gives.bind (gives_spanFrom start) fun _ _ hspan => hspan.2 ▸ hlast
      · refine Prog.Gives.bind (hsteps (endTag true) s hs) ?_
        intro _ s hs
        refine Prog.Gives.bind (hsteps (spanFrom start) s hs) ?_
        intro opening s hs
        refine Prog.Gives.bind (hsteps (call c.enclosed .children) s hs) ?_
        intro children s hs
        refine Prog.Gives.bind (hsteps here s hs) ?_
        intro closingAt s hs
        refine Prog.Gives.bind (hsteps closingStart s hs) ?_
        intro _ s hs
        refine Prog.Gives.bind (hsteps (tagName c.enclosed) s hs) ?_
        intro closingName s hs
        refine Prog.Gives.bind (hend s hs) ?_
        intro _ last hlast
        split
        · exact Prog.Gives.bind (gives_spanFrom closingAt) fun _ _ hspan => hspan.2 ▸ hlast
        · refine Prog.Gives.bind (gives_reportAt _ _) ?_
          rintro _ told rfl
          refine Prog.Gives.bind (gives_spanFrom closingAt) ?_
          rintro _ _ ⟨-, rfl⟩
          exact hP.congr hlast rfl rfl
    · trivial

theorem after_emitElement (fuel : Nat) (c : Ctx) (h : st.Steady source) :
    (emitElement c).Gives (runRule grammar fuel) st fun _ next => P next := by
  have helement : (runRule grammar fuel c (.element false) st).Gives fun _ next => P next :=
    gives_succ (r := .element false) (fun fuel => hP.after_elementRule fuel c h) fuel
  exact Prog.Gives.emitElement (helement.imp fun _ _ hinner => hP.congr hinner rfl rfl)

/-- A program that ends with a mark of code. -/
theorem after_bind_expect {α : Type} (fuel : Nat) (p : Prog α) (mark : Punct) (h : st.Steady source) :
    (p >>= fun _ => expect mark).Gives (runRule grammar fuel) st fun _ next => P next :=
  Prog.Gives.bind (goes (finds_runRule source fuel) p h) fun _ _ hnext => hP.after_expect mark hnext.steady

theorem after_attributeValue (fuel : Nat) (c : Ctx) (h : st.Steady source) (hread : st.Read) :
    (attributeValue c).Gives (runRule grammar fuel) st fun _ next => P next := by
  refine Prog.Gives.bind gives_kind ?_
  rintro k next ⟨rfl, rfl⟩
  split
  · next value hvalue => exact hP.after_advance h (.string hread hvalue)
  · next hbrace =>
    refine Prog.Gives.bind gives_here ?_
    rintro start next ⟨-, rfl⟩
    refine Prog.Gives.bind (gives_advanceIn_mark .code hbrace) ?_
    rintro _ inner rfl
    have hinner := (State.Walked.advance h .code).steady
    refine Prog.Gives.bind (gives_at? .braceClose) ?_
    rintro b begun ⟨rfl, rfl⟩
    split
    · next hclose =>
      refine Prog.Gives.bind (hP.after_advance hinner (.mark (eq_of_beq hclose))) ?_
      rintro _ closed hclosed
      refine (gives_reportAt _ _).imp ?_
      rintro _ told rfl
      exact hP.congr hclosed rfl rfl
    · exact hP.after_bind_expect fuel (skip c.enclosed .expression) .braceClose hinner
  · exact hP.after_emitElement fuel c h
  · trivial

theorem after_attributeRest (fuel : Nat) (c : Ctx) (isStyle : Bool) (start : Nat) (h : st.Steady source)
    (hst : P st) :
    (attributeRest c isStyle start).Gives (runRule grammar fuel) st fun _ next => P next := by
  refine Prog.Gives.bind (gives_at? .assign) ?_
  rintro b next ⟨rfl, rfl⟩
  split
  · next hassign =>
    refine Prog.Gives.bind (gives_advanceIn_mark .attribute (eq_of_beq hassign)) ?_
    rintro _ inner rfl
    have hinner := (State.Walked.advance h .attribute).steady
    refine Prog.Gives.bind gives_here ?_
    rintro valueStart begun ⟨-, rfl⟩
    refine Prog.Gives.bind (hP.after_attributeValue fuel c hinner (next.read_advance .attribute)) ?_
    rintro _ valued hvalued
    refine Prog.Gives.bind (gives_spanFrom start) ?_
    rintro span last ⟨-, rfl⟩
    exact Prog.Gives.bind (gives_spanFrom valueStart) fun _ _ hspan => hspan.2 ▸ hvalued
  · exact Prog.Gives.bind (gives_spanFrom start) fun _ _ hspan => hspan.2 ▸ hst

theorem after_namedAttribute (fuel : Nat) (c : Ctx) (start : Nat) (h : st.Steady source) (hread : st.Read) :
    (namedAttribute c start).Gives (runRule grammar fuel) st fun _ next => P next := by
  have hf := finds_runRule source fuel
  rw [namedAttribute_eq]
  refine Prog.Gives.bind ((goes hf tagWord h).and (hP.after_tagWord h hread)) ?_
  rintro word worded ⟨hworded, hst⟩
  refine Prog.Gives.bind (hP.after_eat .colon hworded.steady hst) ?_
  rintro namespaced eaten ⟨heaten, hsteady⟩
  split
  · refine Prog.Gives.bind ((goes hf tagWord hsteady).and (hP.after_tagWord hsteady (hP.read heaten))) ?_
    rintro tail tailed ⟨htailed, htail⟩
    exact hP.after_attributeRest fuel c _ start htailed.steady htail
  · exact hP.after_attributeRest fuel c _ start hsteady heaten

theorem after_spreadAttribute (fuel : Nat) (c : Ctx) (start : Nat) (h : st.Steady source) :
    (spreadAttribute c start).Gives (runRule grammar fuel) st fun a next =>
      a.isStyle = false ∧ P next := by
  have hf := finds_runRule source fuel
  refine Prog.Gives.bind (goes hf advance h) ?_
  intro _ inner hinner
  refine Prog.Gives.bind (goes hf (expect .ellipsis) hinner.steady) ?_
  intro _ dotted hdotted
  refine Prog.Gives.bind (goes hf (skip c.enclosed .expression) hdotted.steady) ?_
  intro _ valued hvalued
  refine Prog.Gives.bind (hP.after_expect .braceClose hvalued.steady) ?_
  intro _ closed hclosed
  exact Prog.Gives.bind (gives_spanFrom start) fun _ _ hspan => ⟨rfl, hspan.2 ▸ hclosed⟩

/-- Attributes are a part of a tag, and each of them is one. -/
theorem after_attributes (fuel : Nat) (c : Ctx) (h : st.Steady source) (hst : P st) :
    (runRule grammar fuel c .attributes st).Gives fun _ next => P next := by
  induction fuel generalizing st with
  | zero => trivial
  | succ fuel ih =>
    show (attributesRule c).Gives (runRule grammar fuel) st _
    have hf := finds_runRule source fuel
    have hspread := (hP.after_spreadAttribute fuel c st.offset h).imp fun _ _ hnext => hnext.2
    have hnamed := hP.after_namedAttribute fuel c st.offset h (hP.read hst)
    refine gives_attributesRule_of (fun _ => (goes hf _ h).and hspread) ((goes hf _ h).and hnamed) ?_
      fun _ => hst
    rintro first middle ⟨hmiddle, hbehind⟩
    exact ih hmiddle.steady hbehind

/-- So is a name that an element is rendered under. -/
theorem after_tagName (c : Ctx) (h : st.Steady source) (hread : st.Read) :
    (tagName c).Gives use st fun name next => ∀ word, name.intrinsic = some word → P next := by
  have hspan : ∀ {name : Span → TagName} {start : Nat} {next : State}, P next →
      (do return name (← spanFrom start) : Prog TagName).Gives use next fun _ last => P last :=
    fun hnext => Prog.Gives.bind (gives_spanFrom _) fun _ _ hspan => hspan.2 ▸ hnext
  refine Prog.Gives.bind gives_here ?_
  rintro start next ⟨rfl, rfl⟩
  refine Prog.Gives.bind ((gives_tagWord h).and (hP.after_tagWord h hread)) ?_
  rintro word worded ⟨⟨hworded, -⟩, hst⟩
  refine Prog.Gives.bind (hP.after_eat .colon hworded.steady hst) ?_
  rintro colon eaten ⟨heaten, hsteady⟩
  split
  · refine Prog.Gives.bind (hP.after_tagWord hsteady (hP.read heaten)) ?_
    intro tail tailed htailed
    exact (hspan htailed).imp fun _ _ hlast _ _ => hlast
  · refine Prog.Gives.bind (gives_at? .dot) ?_
    rintro dot looked ⟨-, rfl⟩
    split
    · refine Prog.Gives.bind (Outcome.gives_eq _) ?_
      intro written membered _
      refine Prog.Gives.bind (gives_spanFrom next.offset) ?_
      rintro span last -
      intro name hname
      cases hname
    · exact (hspan heaten).imp fun _ _ hlast _ _ => hlast

/-- So are type arguments. -/
theorem after_typeArgumentsOfTag (fuel : Nat) (c : Ctx) (h : st.Steady source) (hst : P st) :
    (elementRest.typeArgumentsOfTag c).Gives (runRule grammar fuel) st fun _ next =>
      next.Steady source ∧ P next := by
  have hrule : ∀ {inner : State}, inner.Steady source →
      (runRule grammar fuel c .typeArguments inner).Gives fun _ next => P next := by
    intro inner hinner
    refine gives_succ (r := .typeArguments) (fun fuel => ?_) fuel
    show (typeArgumentsRule c).Gives (runRule grammar fuel) inner _
    have hf := finds_runRule source fuel
    refine Prog.Gives.bind (goes hf (perform (.reread .less)) hinner) ?_
    intro _ s hs
    refine Prog.Gives.bind (goes hf (expect .less) hs.steady) ?_
    intro _ s hs
    refine Prog.Gives.bind (goes hf (typeList c .type) hs.steady) ?_
    intro _ s hs
    exact hP.after_expect .greater hs.steady
  refine Outcome.Gives.and
    ((goes (finds_runRule source fuel) (elementRest.typeArgumentsOfTag c) h).imp
      fun _ _ hnext => hnext.steady) ?_
  refine Prog.Gives.bind gives_kind ?_
  rintro k next ⟨rfl, rfl⟩
  split
  · have hsteady : State.Steady source { next with found := [] } := h.congr rfl rfl
    refine Prog.Gives.bind (gives_gather_of (hrule hsteady)) ?_
    rintro ⟨_, inside⟩ last ⟨inner, hinner, -, rfl⟩
    exact hP.congr hinner rfl rfl
  · exact hst

end HoldsBehind

/-! ## Attributes -/

/-- The first one of attributes begins with the current token, and a style attribute was read there. Behind
it the others are read. -/
theorem gives_attributes_rest (fuel : Nat) (c : Ctx) (h : st.Steady source) (hfresh : st.Fresh source) :
    (runRule grammar fuel c .attributes st).Gives fun attributes last =>
      ∀ a others, attributes = a :: others → a.span.start = st.offset ∧
        (a.isStyle = true → AttributeRead source a) ∧ ∃ fuel' middle, middle.Steady source ∧
          middle.Fresh source ∧ middle.lastStop = a.span.stop ∧
            runRule grammar fuel' c .attributes middle = .done others last := by
  have hP := holdsBehind_fresh source
  refine gives_succ (r := .attributes) (fun fuel => ?_) fuel
  show (attributesRule c).Gives (runRule grammar fuel) st _
  have hf := finds_runRule source fuel
  have hspread : (spreadAttribute c st.offset).Gives (runRule grammar fuel) st fun a middle =>
      a.span = ⟨st.offset, middle.lastStop⟩ ∧ (a.isStyle = true → AttributeRead source a) ∧
        middle.Steady source ∧ middle.Fresh source := by
    refine ((gives_spreadAttribute hf c h).and (hP.after_spreadAttribute fuel c _ h)).imp ?_
    rintro a middle ⟨⟨hmiddle, hspans⟩, hplain, hbehind⟩
    refine ⟨hspans.span, fun hstyle => ?_, hmiddle.steady, hbehind⟩
    rw [hplain] at hstyle
    cases hstyle
  have hnamed : (namedAttribute c st.offset).Gives (runRule grammar fuel) st fun a middle =>
      a.span = ⟨st.offset, middle.lastStop⟩ ∧ (a.isStyle = true → AttributeRead source a) ∧
        middle.Steady source ∧ middle.Fresh source := by
    refine (((gives_namedAttribute hf c h).and
      (hP.after_namedAttribute fuel c _ h (hP.read hfresh))).and (Outcome.gives_eq _)).imp ?_
    rintro a middle ⟨⟨⟨hmiddle, hspans⟩, hbehind⟩, hrun⟩
    exact ⟨hspans.span, fun _ => ⟨fuel, c, st, middle, h, hfresh, by rw [hspans.span], hrun⟩,
      hmiddle.steady, hbehind⟩
  refine gives_attributesRule_of (fun _ => hspread) hnamed ?_ fun _ _ _ hnone => by cases hnone
  rintro first middle ⟨hspan, hstyle, hmiddle, hbehind⟩
  refine (Outcome.gives_eq _).imp ?_
  rintro rest last hrun a others hcons
  obtain ⟨rfl, rfl⟩ := List.cons.inj hcons
  exact ⟨by rw [hspan], hstyle, fuel, middle, hmiddle, hbehind, by rw [hspan], hrun⟩

/-- **Between attributes** the reader stands behind the ones before, and reads the others from there. -/
theorem exists_between {first others : List Attribute} {fuel : Nat} {c : Ctx} {last : State}
    (h : st.Steady source) (hfresh : st.Fresh source)
    (hrun : runRule grammar fuel c .attributes st = .done (first ++ others) last) :
    ∃ fuel' middle, middle.Steady source ∧ middle.Fresh source ∧
      middle.lastStop = attributesEnd st.lastStop first ∧
      runRule grammar fuel' c .attributes middle = .done others last := by
  induction first generalizing fuel st with
  | nil => exact ⟨fuel, st, h, hfresh, rfl, hrun⟩
  | cons a first ih =>
    obtain ⟨-, -, fuel', middle, hmiddle, hbehind, hstop, hrest⟩ :=
      (gives_attributes_rest fuel c h hfresh).of_done hrun a _ rfl
    obtain ⟨fuel'', next, hnext, hfresh', hend, hothers⟩ := ih hmiddle hbehind hrest
    exact ⟨fuel'', next, hnext, hfresh', by rw [hend, hstop, attributesEnd_cons], hothers⟩

end Programs

/-! ## Elements of a source -/

variable {source : Text} {tag : Tag} {children : List Markup} {style : StyleAttribute}

/-- The last style attribute is one of the attributes. -/
theorem exists_mem_of_lastStyle {attributes : List Attribute} (h : lastStyle attributes = some style) :
    ⟨true, style.span, style.value⟩ ∈ attributes := by
  obtain ⟨⟨isStyle, span, value⟩, ha, rfl⟩ := Option.map_eq_some_iff.1 h
  have hstyle : isStyle = true := List.find?_some ha
  subst hstyle
  exact List.mem_reverse.1 (List.mem_of_find?_eq_some ha)

section Opening

variable {P : State → Prop} {fuel start : Nat} {o : Opening} {name : Text}

/-- What holds behind the parts of a tag holds behind a name that an element is rendered under. -/
theorem Opening.Read.holds_named (h : o.Read source (runRule grammar fuel) start)
    (hname : o.name.intrinsic = some name) (hP : HoldsBehind source P) :
    o.named.Steady source ∧ P o.named := by
  have hf := finds_runRule source fuel
  obtain ⟨before, rest, -, -, hcurrent⟩ := h.begins
  have hread : o.begun.Read := ⟨⟨rest, start + 1⟩, hcurrent ▸ Scanned.ReadAt.scan .code⟩
  exact ⟨((goes hf (tagName o.c) h.steady).of_done h.name).steady,
    (hP.after_tagName o.c h.steady hread).of_done h.name name hname⟩

/-- It holds behind type arguments. -/
theorem Opening.Read.holds_typed (h : o.Read source (runRule grammar fuel) start)
    (hname : o.name.intrinsic = some name) (hP : HoldsBehind source P) :
    o.typed.Steady source ∧ P o.typed := by
  obtain ⟨hsteady, hnamed⟩ := h.holds_named hname hP
  obtain ⟨inTypes, htyped⟩ := h.typed
  exact (hP.after_typeArgumentsOfTag fuel o.c hsteady hnamed).of_done htyped

/-- The attributes are read in a steady state. -/
theorem Opening.Read.steady_attributes (h : o.Read source (runRule grammar fuel) start)
    (hname : o.name.intrinsic = some name) : State.Steady source { o.typed with found := [] } :=
  (h.holds_typed hname (holdsBehind_fresh source)).1.congr rfl rfl

/-- The attributes stand in a row, up to where the reader stands behind them. -/
theorem Opening.Read.inRow (h : o.Read source (runRule grammar fuel) start)
    (hname : o.name.intrinsic = some name) :
    InRow source o.typed.offset o.ended.lastStop o.attributes ∧
      o.ended.lastStop = attributesEnd o.typed.lastStop o.attributes :=
  ((finds_runRule source fuel).attributes o.c _ (h.steady_attributes hname)).of_done h.attributes

/-- Without attributes a new one goes behind the name. -/
theorem Opening.Gave.insertAt_of_nil (h : o.Gave tag) (hnone : o.attributes = []) :
    tag.insertAt = tag.nameSpan.stop := by
  rw [h.insertAt, h.nameSpan, hnone]
  rfl

/-- Else it goes behind what was read of them. -/
theorem Opening.Read.insertAt_eq (h : o.Read source (runRule grammar fuel) start)
    (hname : o.name.intrinsic = some name) (hgave : o.Gave tag) (hsome : o.attributes ≠ []) :
    tag.insertAt = o.ended.lastStop := by
  obtain ⟨first, others, hcons⟩ := List.exists_cons_of_ne_nil hsome
  rw [hgave.insertAt, (h.inRow hname).2, hcons, attributesEnd_cons]
  exact attributesEnd_cons o.name.span.stop first others

/-- It holds behind the attributes. -/
theorem Opening.Read.holds_ended (h : o.Read source (runRule grammar fuel) start)
    (hname : o.name.intrinsic = some name) (hP : HoldsBehind source P) : P o.ended := by
  have htyped := (h.holds_typed hname hP).2
  exact (hP.after_attributes fuel o.c (h.steady_attributes hname)
    (hP.congr htyped rfl rfl)).of_done h.attributes

/-- The name of a tag ends with the last token of it. -/
theorem Opening.Read.stop_named (h : o.Read source (runRule grammar fuel) start) :
    o.named.lastStop = o.name.span.stop := by
  have hname := (gives_tagName (finds_runRule source fuel) o.c h.steady).of_done h.name
  rw [hname.2.1]

/-- Behind a name that an element is rendered under the reader stands at a token of code. -/
theorem Opening.Read.fresh_named (h : o.Read source (runRule grammar fuel) start)
    (hname : o.name.intrinsic = some name) :
    o.named.Steady source ∧ o.named.Fresh source ∧ o.named.lastStop = o.name.span.stop := by
  obtain ⟨hsteady, hfresh⟩ := h.holds_named hname (holdsBehind_fresh source)
  exact ⟨hsteady, hfresh, h.stop_named⟩

/-- So it does behind type arguments. -/
theorem Opening.Read.fresh_typed (h : o.Read source (runRule grammar fuel) start)
    (hname : o.name.intrinsic = some name) : o.typed.Steady source ∧ o.typed.Fresh source :=
  h.holds_typed hname (holdsBehind_fresh source)

/-- So it is between the attributes of an opening tag. -/
theorem Opening.Read.exists_between {first others : List Attribute}
    (h : o.Read source (runRule grammar fuel) start) (hname : o.name.intrinsic = some name)
    (hattributes : o.attributes = first ++ others) :
    ∃ fuel' st, State.Steady source st ∧ st.Fresh source ∧
      st.lastStop = attributesEnd o.typed.lastStop first ∧
      runRule grammar fuel' o.c .attributes st = .done others o.ended := by
  have hfresh : State.Fresh source { o.typed with found := [] } :=
    (holdsBehind_fresh source).congr (h.fresh_typed hname).2 rfl rfl
  have hrun := h.attributes
  rw [hattributes] at hrun
  exact (Script.exists_between (h.steady_attributes hname) hfresh hrun :)

end Opening

/-- **The last style attribute of an element was read** where it begins. -/
theorem exists_attributeRead (h : Known source (tag, children)) {name : Text}
    (hname : tag.name = some name) (hstyle : tag.style = some style) :
    AttributeRead source ⟨true, style.span, style.value⟩ := by
  obtain ⟨fuel, o, hread, hgave⟩ := h.way
  obtain ⟨first, others, hattributes⟩ :=
    List.append_of_mem (exists_mem_of_lastStyle (hgave.style.symm.trans hstyle))
  obtain ⟨fuel', st, hsteady, hfresh, -, hrun⟩ :=
    hread.exists_between (hgave.name.symm.trans hname) hattributes
  exact ((gives_attributes_rest fuel' o.c hsteady hfresh).of_done hrun _ _ rfl).2.1 rfl

end Retouch.Script
