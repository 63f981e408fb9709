import Retouch.Proofs.Script.Reach
import Retouch.Script.Run

/-!
# What programs find

A program moves the reader on and finds elements only in the text that it moves over: `passes` says
so of every program, given that it holds of the rules that the program uses (`Behaves`). Nothing of
the grammar is needed for that.

* `InOrder` - elements that begin one behind the other in a part of a source.
* `State.Passed` - what may become of the state of the reader.
* `Outcome.Gives` and `Prog.Gives` - what holds where a program is done, with one lemma for a
  program that goes on with the result of another (`Gives.bind`).
* `Prog.Moves` - a program that adds nothing to what was found.
-/

namespace Retouch.Script

open Text Cursor

/-! ## Elements in order -/

/-- Where the elements of some markup begin, in document order. -/
def starts (found : List Markup) : List Nat :=
  (Markup.elementsOfAll found).map fun element => element.1.span.start

/-- Whether elements begin one behind the other at offsets of a source from `low` up to `high`, each
with the sign `<`. -/
structure InOrder (source : Text) (low high : Nat) (found : List Markup) : Prop where
  increasing : (starts found).Pairwise (· < ·)
  within : ∀ n ∈ starts found, low ≤ n ∧ n < high
  opens : ∀ n ∈ starts found, ∃ before rest, source = before ++ '<' :: rest ∧ byteLength before = n

@[simp] theorem starts_nil : starts [] = [] := rfl

theorem starts_append (found more : List Markup) :
    starts (found ++ more) = starts found ++ starts more := by
  simp [starts, Markup.elementsOfAll_append]

/-- An element begins before all that it holds. -/
theorem starts_element (tag : Tag) (inside children : List Markup) :
    starts [.element tag inside children] = tag.span.start :: starts (inside ++ children) := by
  simp [starts, Markup.elementsOfAll, Markup.elements, Markup.elementsOfAll_append]

theorem starts_fragment (children : List Markup) : starts [.fragment children] = starts children := by
  simp [starts, Markup.elementsOfAll, Markup.elements]

theorem starts_text (raw : Text) : starts [.text raw] = [] := rfl

theorem starts_literal (value : Text) : starts [.literal value] = [] := rfl

theorem starts_code (inside : List Markup) : starts [.code inside] = starts inside := by
  simp [starts, Markup.elementsOfAll, Markup.elements]

namespace InOrder

variable {source : Text} {low middle high : Nat} {found more : List Markup}

theorem nil (source : Text) (low high : Nat) : InOrder source low high [] :=
  ⟨by simp, by simp, by simp⟩

/-- Only where the elements begin matters. -/
theorem congr (h : InOrder source low high found) (hstarts : starts more = starts found) :
    InOrder source low high more :=
  ⟨hstarts ▸ h.increasing, hstarts ▸ h.within, hstarts ▸ h.opens⟩

/-- Elements stay in order in a wider part of the source. -/
theorem mono {low' high' : Nat} (h : InOrder source low high found) (hlow : low' ≤ low)
    (hhigh : high ≤ high') : InOrder source low' high' found := by
  refine ⟨h.increasing, ?_, h.opens⟩
  intro n hn
  have := h.within n hn
  omega

/-- Elements of one part of a source and those of the part behind it. -/
theorem append (hfound : InOrder source low middle found) (hmore : InOrder source middle high more)
    (hlow : low ≤ middle) (hhigh : middle ≤ high) : InOrder source low high (found ++ more) := by
  constructor
  · rw [starts_append, List.pairwise_append]
    refine ⟨hfound.increasing, hmore.increasing, ?_⟩
    intro a ha b hb
    have := hfound.within a ha
    have := hmore.within b hb
    omega
  · intro n hn
    rw [starts_append, List.mem_append] at hn
    rcases hn with hn | hn
    · have := hfound.within n hn
      omega
    · have := hmore.within n hn
      omega
  · intro n hn
    rw [starts_append, List.mem_append] at hn
    rcases hn with hn | hn
    · exact hfound.opens n hn
    · exact hmore.opens n hn

/-- An element around others that stand behind the sign with which it begins. -/
theorem element {tag : Tag} {inside children : List Markup}
    (h : InOrder source middle high (inside ++ children)) (hbegin : tag.span.start < middle)
    (hend : middle ≤ high)
    (hopen : ∃ before rest, source = before ++ '<' :: rest ∧ byteLength before = tag.span.start) :
    InOrder source tag.span.start high [.element tag inside children] := by
  constructor
  · rw [starts_element, List.pairwise_cons]
    refine ⟨?_, h.increasing⟩
    intro n hn
    have := h.within n hn
    omega
  · intro n hn
    rw [starts_element, List.mem_cons] at hn
    rcases hn with rfl | hn
    · omega
    · have := h.within n hn
      omega
  · intro n hn
    rw [starts_element, List.mem_cons] at hn
    rcases hn with rfl | hn
    · exact hopen
    · exact h.opens n hn

end InOrder

/-! ## States -/

namespace State

/-- Where the current token begins. -/
def offset (st : State) : Nat := st.current.token.start

/-- Whether a state is one of reading a source: the current token is sound and stands in it. -/
structure Sound (source : Text) (st : State) : Prop where
  reached : LeadsTo ⟨source, 0⟩ st.current.here
  token : st.current.Sound

/-- What may become of a state: the reader has moved on, and what was found meanwhile stands in the
text between. -/
structure Passed (source : Text) (st next : State) : Prop where
  sound : next.Sound source
  le : st.offset ≤ next.offset
  found : ∃ new, next.found = new ++ st.found ∧ InOrder source st.offset next.offset new.reverse

variable {source : Text} {st next last : State}

/-- Nothing has happened that concerns the current token or what was found. -/
theorem Passed.of_eq (h : st.Sound source) (hcurrent : next.current = st.current)
    (hfound : next.found = st.found) : Passed source st next := by
  have hoffset : next.offset = st.offset := by rw [offset, offset, hcurrent]
  refine ⟨⟨hcurrent ▸ h.reached, hcurrent ▸ h.token⟩, Nat.le_of_eq hoffset.symm, [], hfound, ?_⟩
  exact .nil _ _ _

theorem Passed.trans (h : Passed source st next) (hlast : Passed source next last) :
    Passed source st last := by
  obtain ⟨new, hnew, horder⟩ := h.found
  obtain ⟨newer, hnewer, horder'⟩ := hlast.found
  refine ⟨hlast.sound, Nat.le_trans h.le hlast.le, newer ++ new, ?_, ?_⟩
  · rw [hnewer, hnew, List.append_assoc]
  · rw [List.reverse_append]
    exact horder.append horder' h.le hlast.le

/-- The reader moves on behind the current token. -/
theorem Passed.advance (h : st.Sound source) (place : Place) :
    Passed source st (st.advance place) := by
  have hnext : st.current.here.LeadsTo (scan place st.current.after).here :=
    h.token.leadsTo.trans (Scanned.leadsTo_scan place _)
  refine ⟨⟨h.reached.trans hnext, Scanned.sound_scan place _⟩, hnext.offset_le, [], rfl, ?_⟩
  exact .nil _ _ _

/-- The current token begins within the source. -/
theorem Sound.offset_le (h : st.Sound source) : st.offset ≤ byteLength source := by
  obtain ⟨used, hsource, hoffset⟩ := h.reached
  have hused : source = used ++ st.current.atToken := hsource
  have hoffset' : st.offset = 0 + byteLength used := hoffset
  rw [hused, byteLength_append]
  omega

/-- The sign that begins a tag is left behind. -/
theorem offset_lt_advance (h : st.Sound source) (hless : st.current.token.kind = .punct .less)
    (place : Place) : st.offset < (st.advance place).offset := by
  obtain ⟨-, -, hlt⟩ := h.token.less hless
  exact Nat.lt_of_lt_of_le hlt (Scanned.leadsTo_scan place st.current.after).offset_le

/-- The sign that begins a tag stands in the source. -/
theorem exists_append_less (h : st.Sound source) (hless : st.current.token.kind = .punct .less) :
    ∃ before rest, source = before ++ '<' :: rest ∧ byteLength before = st.offset := by
  obtain ⟨rest, hrest, -⟩ := h.token.less hless
  obtain ⟨before, hbefore, hoffset⟩ := h.reached
  refine ⟨before, rest, ?_, ?_⟩
  · exact hbefore.trans (congrArg (before ++ ·) hrest)
  · simpa [offset, Scanned.here, eq_comm] using hoffset

theorem Passed.reread (h : st.Sound source) (how : Rescan) :
    Passed source st (st.reread how) := by
  have hhere : (rescan how st.current).here = st.current.here := Scanned.here_rescan how _
  have hoffset : (st.reread how).offset = st.offset := congrArg Cursor.offset hhere
  refine ⟨⟨?_, Scanned.sound_rescan how h.token⟩, Nat.le_of_eq hoffset.symm, [], rfl, .nil _ _ _⟩
  exact (congrArg (LeadsTo ⟨source, 0⟩) hhere).mpr h.reached

/-- Reading begins in a sound state. -/
theorem sound_start (source : Text) : (State.start source).Sound source :=
  ⟨(leadsTo_skipInterpreterLine source).trans (Scanned.leadsTo_scan .code _), Scanned.sound_scan .code _⟩

end State

/-! ## What holds where a program is done -/

/-- What holds of the result and the state if something is done and has not stopped. -/
def Outcome.Gives {α : Type} : Outcome α → (α → State → Prop) → Prop
  | .done a last, post => post a last
  | .stopped .., _ => True

/-- What rules do, for the programs that use them. -/
abbrev Use := Ctx → (r : Rule) → State → Outcome r.Result

/-- What holds of the result and the state if a program that begins at `st` is done. -/
def Prog.Gives {α : Type} (use : Use) (p : Prog α) (st : State) (post : α → State → Prop) : Prop :=
  (p.run use st).Gives post

section Gives

variable {α β : Type} {use : Use} {st : State}

theorem Outcome.Gives.imp {o : Outcome α} {post weaker : α → State → Prop} (h : o.Gives post)
    (himp : ∀ a last, post a last → weaker a last) : o.Gives weaker := by
  cases o with
  | done a last => exact himp a last h
  | stopped d last => trivial

theorem Outcome.Gives.and {o : Outcome α} {p q : α → State → Prop} (hp : o.Gives p)
    (hq : o.Gives q) : o.Gives fun a last => p a last ∧ q a last := by
  cases o with
  | done a last => exact ⟨hp, hq⟩
  | stopped d last => trivial

/-- What was done is what was done. -/
theorem Outcome.gives_eq (o : Outcome α) : o.Gives fun a last => o = .done a last := by
  cases o with
  | done a last => rfl
  | stopped d last => trivial

theorem Outcome.Gives.of_done {o : Outcome α} {post : α → State → Prop} {a : α} {last : State}
    (h : o.Gives post) (hdone : o = .done a last) : post a last := by
  subst hdone
  exact h

theorem Prog.Gives.of_done {p : Prog α} {post : α → State → Prop} {a : α} {last : State}
    (h : p.Gives use st post) (hdone : p.run use st = .done a last) : post a last :=
  Outcome.Gives.of_done h hdone

/-- A program that goes on with the result of another runs it first. -/
theorem Prog.run_bind (p : Prog α) (f : α → Prog β) :
    (p.bind f).run use st =
      match p.run use st with
      | .done a next => (f a).run use next
      | .stopped d next => .stopped d next := by
  induction p generalizing st with
  | done a => rfl
  | stop d => rfl
  | step op next ih =>
    cases op with
    | call c r | gather c r | emitElement c =>
      simp only [Prog.bind, Prog.run]
      split
      · exact ih _
      · rfl
    | attempt c r =>
      simp only [Prog.bind, Prog.run]
      split
      · exact ih _
      · exact ih _
    | _ => exact ih _

theorem Prog.Gives.imp {p : Prog α} {post weaker : α → State → Prop} (h : p.Gives use st post)
    (himp : ∀ a last, post a last → weaker a last) : p.Gives use st weaker :=
  Outcome.Gives.imp h himp

theorem Prog.Gives.pure {a : α} {post : α → State → Prop} (h : post a st) :
    (Pure.pure a : Prog α).Gives use st post := h

theorem Prog.Gives.bind {p : Prog α} {f : α → Prog β} {middle : α → State → Prop}
    {post : β → State → Prop} (h : p.Gives use st middle)
    (hf : ∀ a next, middle a next → (f a).Gives use next post) : (p >>= f).Gives use st post := by
  show ((p.bind f).run use st).Gives post
  rw [Prog.run_bind]
  cases hrun : p.run use st with
  | done a next => exact hf a next (h.of_done hrun)
  | stopped d next => trivial

theorem Prog.Gives.call {c : Ctx} {r : Rule} {post : r.Result → State → Prop}
    (h : (use c r st).Gives post) : (Script.call c r).Gives use st post := by
  show (Prog.run use (.step (.call c r) .done) st).Gives post
  rw [Prog.run]
  cases hrun : use c r st with
  | done a next => exact h.of_done hrun
  | stopped d next => trivial

/-- An attempt that fails leaves the state as it was, but for the places where no arrow function
begins. -/
theorem Prog.Gives.attempt {c : Ctx} {r : Rule} {post : Option r.Result → State → Prop}
    (h : (use c r st).Gives fun a next => post (some a) next)
    (hfailed : ∀ ruledOut, post none { st with ruledOut := ruledOut }) :
    (Script.attempt c r).Gives use st post := by
  show (Prog.run use (.step (.attempt c r) .done) st).Gives post
  rw [Prog.run]
  cases hrun : use c r st with
  | done a next => exact h.of_done hrun
  | stopped d failed => exact hfailed failed.ruledOut

/-- What a rule finds while it is used to gather is given, and not found. -/
theorem Prog.Gives.gather {c : Ctx} {r : Rule} {post : r.Result × List Markup → State → Prop}
    (h : (use c r { st with found := [] }).Gives fun a inner =>
      post (a, inner.found.reverse) { inner with found := st.found }) :
    (Script.gather c r).Gives use st post := by
  show (Prog.run use (.step (.gather c r) .done) st).Gives post
  rw [Prog.run]
  cases hrun : use c r { st with found := [] } with
  | done a inner => exact h.of_done hrun
  | stopped d last => trivial

/-- The element that is read is put with what was found. -/
theorem Prog.Gives.emitElement {c : Ctx} {post : Unit → State → Prop}
    (h : (use c (.element false) st).Gives fun piece inner =>
      post () { inner with found := piece :: inner.found }) :
    (Script.emitElement c).Gives use st post := by
  show (Prog.run use (.step (.emitElement c) .done) st).Gives post
  rw [Prog.run]
  cases hrun : use c (.element false) st with
  | done piece inner => exact h.of_done hrun
  | stopped d last => trivial

end Gives

/-! ## All programs -/

/-- What rules do to the state of the reader, and what those give that belong to markup. -/
structure Behaves (source : Text) (use : Use) : Prop where
  passes : ∀ c r st, st.Sound source → (use c r st).Gives fun _ next => st.Passed source next
  element : ∀ c between st, st.Sound source →
    (use c (.element between) st).Gives fun piece next =>
      next.found = st.found ∧ InOrder source st.offset next.offset [piece]
  children : ∀ c st, st.Sound source →
    (use c .children st).Gives fun pieces next =>
      next.found = st.found ∧ InOrder source st.offset next.offset pieces
  tagMembers : ∀ c written st, st.Sound source →
    (use c (.tagMembers written) st).Gives fun _ next => next.found = st.found

section Passes

variable {source : Text} {use : Use} {st : State}

/-- What is gathered while a rule is used, and the state behind it. -/
theorem gives_gather (hb : Behaves source use) (c : Ctx) (r : Rule) (h : st.Sound source) :
    (gather c r).Gives use st fun answer next =>
      st.Passed source next ∧ next.found = st.found ∧
        InOrder source st.offset next.offset answer.2 := by
  have hbegun : State.Sound source { st with found := [] } := ⟨h.reached, h.token⟩
  refine Prog.Gives.gather ((hb.passes c r _ hbegun).imp fun a inner hinner => ?_)
  obtain ⟨new, hnew, horder⟩ := hinner.found
  have hfound : inner.found = new := by simpa using hnew
  refine ⟨⟨⟨hinner.sound.reached, hinner.sound.token⟩, hinner.le, [], rfl, .nil _ _ _⟩, rfl, ?_⟩
  rw [hfound]
  exact horder

theorem gives_emitElement (hb : Behaves source use) (c : Ctx) (h : st.Sound source) :
    (emitElement c).Gives use st fun _ next => st.Passed source next := by
  refine Prog.Gives.emitElement (((hb.passes c _ st h).and (hb.element c false st h)).imp ?_)
  rintro piece inner ⟨hpassed, hfound, horder⟩
  exact ⟨⟨hpassed.sound.reached, hpassed.sound.token⟩, hpassed.le, [piece],
    congrArg (piece :: ·) hfound, horder⟩

theorem gives_attempt (hb : Behaves source use) (c : Ctx) (r : Rule) (h : st.Sound source) :
    (attempt c r).Gives use st fun _ next => st.Passed source next :=
  Prog.Gives.attempt (hb.passes c r st h) fun _ => .of_eq h rfl rfl

/-- One step of a program. -/
theorem passes_perform (hb : Behaves source use) (op : Op) (h : st.Sound source) :
    (perform op).Gives use st fun _ next => st.Passed source next := by
  cases op with
  | call c r => exact Prog.Gives.call (hb.passes c r st h)
  | attempt c r => exact gives_attempt hb c r h
  | gather c r => exact (gives_gather hb c r h).imp fun _ _ hnext => hnext.1
  | emitElement c => exact gives_emitElement hb c h
  | advance place => exact .advance h place
  | reread how => exact .reread h how
  | _ => exact .of_eq h rfl rfl

/-- **Programs move on.** Where a program is done, the reader stands where it stood or behind, and
what it found meanwhile stands between, in order. -/
theorem passes {α : Type} (hb : Behaves source use) (p : Prog α) (h : st.Sound source) :
    p.Gives use st fun _ next => st.Passed source next := by
  induction p generalizing st with
  | done a => exact .of_eq h rfl rfl
  | stop d => trivial
  | step op next ih =>
    show ((perform op).bind next).Gives use st _
    apply Prog.Gives.bind (passes_perform hb op h)
    intro answer middle hmiddle
    exact (ih answer hmiddle.sound).imp fun _ last hlast => hmiddle.trans hlast

end Passes

/-! ## Programs that add nothing to what was found -/

/-- The reader has moved on, and what was found is what was found before. -/
structure State.Moved (source : Text) (st next : State) : Prop where
  passed : st.Passed source next
  found : next.found = st.found

/-- Whether a program only moves the reader on, wherever it begins. -/
def Prog.Moves {α : Type} (source : Text) (use : Use) (p : Prog α) : Prop :=
  ∀ st, st.Sound source → p.Gives use st fun _ next => st.Moved source next

section Moves

variable {α β : Type} {source : Text} {use : Use} {st next last : State}

namespace State.Moved

theorem refl (h : st.Sound source) : st.Moved source st := ⟨.of_eq h rfl rfl, rfl⟩

theorem trans (h : st.Moved source next) (hlast : next.Moved source last) :
    st.Moved source last :=
  ⟨h.passed.trans hlast.passed, hlast.found.trans h.found⟩

theorem sound (h : st.Moved source next) : next.Sound source := h.passed.sound

theorem le (h : st.Moved source next) : st.offset ≤ next.offset := h.passed.le

end State.Moved

namespace Prog.Moves

theorem pure (a : α) : (Pure.pure a : Prog α).Moves source use := fun _ h => .refl h

theorem stop (d : Option Diagnostic) : (Prog.stop d : Prog α).Moves source use :=
  fun _ _ => trivial

theorem bind {p : Prog α} {f : α → Prog β} (hp : p.Moves source use)
    (hf : ∀ a, (f a).Moves source use) : (p >>= f).Moves source use := by
  intro st h
  apply Prog.Gives.bind (hp st h)
  intro a middle hmiddle
  exact (hf a middle hmiddle.sound).imp fun _ last hlast => hmiddle.trans hlast

theorem ite {condition : Prop} [Decidable condition] {p q : Prog α} (hp : p.Moves source use)
    (hq : q.Moves source use) : (if condition then p else q).Moves source use := by
  split
  · exact hp
  · exact hq

/-- It is enough that a rule leaves alone what was found. -/
theorem call (hb : Behaves source use) {c : Ctx} {r : Rule}
    (h : ∀ st, st.Sound source → (use c r st).Gives fun _ next => next.found = st.found) :
    (Script.call c r).Moves source use := by
  intro st hst
  refine Prog.Gives.call (((hb.passes c r st hst).and (h st hst)).imp ?_)
  exact fun _ _ hnext => ⟨hnext.1, hnext.2⟩

end Prog.Moves

end Moves

end Retouch.Script
