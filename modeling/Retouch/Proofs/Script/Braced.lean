import Retouch.Proofs.Script.Container
import Retouch.Proofs.Script.TagEnd

/-!
# Objects of strings as values of attributes

The rules of the grammar agree with `readContainer?`: where that reads an object of strings in braces,
the rule for the value of an attribute does so, too, and goes on behind the last brace
(`gives_attributeValue_container`).
-/

namespace Retouch.Script

open Text

/-! ## Tokens that were read -/

section Tokens

variable {c d : Cursor} {mark : Punct} {name value : Text}

theorem readMark?_eq_some (h : readMark? mark c = some d) :
    (scan .code c).token.kind = .punct mark ∧ (scan .code c).after = d := by
  simp only [readMark?] at h
  split at h
  · next hmark => exact ⟨hmark.1, Option.some.inj h⟩
  · cases h

theorem readName?_eq_some (h : readName? c = some (name, d)) :
    (scan .code c).token.kind = .name name ∧ (scan .code c).after = d := by
  simp only [readName?] at h
  split at h
  · next hname =>
    split at h
    · obtain ⟨rfl, rfl⟩ := Prod.mk.inj (Option.some.inj h)
      exact ⟨hname, rfl⟩
    · cases h
  · cases h

theorem readString?_eq_some (h : readString? c = some (value, d)) :
    (scan .code c).token.kind = .string value ∧ (scan .code c).after = d := by
  simp only [readString?] at h
  split at h
  · next hstring =>
    split at h
    · obtain ⟨rfl, rfl⟩ := Prod.mk.inj (Option.some.inj h)
      exact ⟨hstring, rfl⟩
    · cases h
  · cases h

/-- Only strings are read in another way behind the equals sign of an attribute. -/
theorem scanToken_attribute {here : Cursor} {sign : Char} {rest : Text} (hrest : here.rest = sign :: rest)
    (hsign : (sign == '"' || sign == '\'') = false) (lineEnded : Bool) :
    scanToken .attribute here lineEnded = scanToken .code here lineEnded := by
  simp only [scanToken, hrest, hsign, Bool.false_eq_true, if_false]

theorem scan_attribute_of_mark (h : (scan .code c).token.kind = .punct mark) :
    scan .attribute c = scan .code c := by
  have hsigns : ∃ sign rest, mark.text = sign :: rest ∧ (sign == '"' || sign == '\'') = false := by
    cases mark <;> exact ⟨_, _, rfl, by decide⟩
  obtain ⟨sign, rest, htext, hsign⟩ := hsigns
  have hspelt := ((Scanned.solid_scan .code c).mark mark h).1
  rw [Scanned.here_scan_gap .code (by decide), htext] at hspelt
  rw [scan, if_neg (by decide), scan, if_neg (by decide)]
  dsimp only
  split
  · rfl
  · exact scanToken_attribute hspelt hsign _

end Tokens

section Programs

variable {use : Use} {st : State} {c d : Cursor}

/-- The reader stands at the token behind a cursor, which is the end of the token before. -/
def State.At (st : State) (c : Cursor) : Prop := st.current = scan .code c ∧ st.lastStop = c.offset

/-- The reader moves on over a token of code. -/
theorem State.at_advance (h : st.current = scan .code c) : (st.advance .code).At (scan .code c).after := by
  obtain ⟨current, lastStop, faults, reports, found, suspects, ruledOut⟩ := st
  obtain rfl : current = scan .code c := h
  exact ⟨rfl, rfl⟩

/-- The token behind the current one. -/
theorem State.look_one (h : st.current = scan .code c) :
    st.look 1 = (scan .code (scan .code c).after).token := by
  show (scan .code st.current.after).token = _
  rw [h]

/-! ## Properties -/

/-- A string in front of a brace or comma is all of an expression. -/
theorem gives_assignment_string {value : Text} (h : st.current = scan .code c)
    (hread : readString? c = some (value, d))
    (hend : (scan .code d).token.kind = .punct .braceClose ∨ (scan .code d).token.kind = .punct .comma)
    (fuel : Nat) (ctx : Ctx) :
    (runRule grammar fuel ctx (.assignment true) st).Gives fun _ next => next.At d := by
  obtain ⟨hkind, hafter⟩ := readString?_eq_some hread
  rw [← h] at hkind
  have hat : (st.advance .code).At d := hafter ▸ State.at_advance h
  have hcloses : (st.advance .code).Closes := ⟨⟨d, hat.1⟩, by rw [hat.1]; exact hend⟩
  refine (gives_assignment (gives_primary_string hkind) ?_ fuel ctx (.inl ⟨value, hkind⟩)).imp ?_
  · rintro e next ⟨-, rfl⟩
    exact hcloses
  · rintro e next ⟨-, rfl⟩
    exact hat

/-- The name of a property. -/
theorem gives_propertyName {name : Text} (h : st.current = scan .code c)
    (hread : readName? c = some (name, d)) (ctx : Ctx) :
    (propertyName ctx false).Gives use st fun _ next => next.At d := by
  obtain ⟨hkind, hafter⟩ := readName?_eq_some hread
  rw [← h] at hkind
  have hat : (st.advance .code).At d := hafter ▸ State.at_advance h
  refine Prog.Gives.bind gives_kind ?_
  rintro k next ⟨rfl, rfl⟩
  rw [hkind]
  refine Prog.Gives.bind gives_kind ?_
  rintro k next ⟨rfl, rfl⟩
  rw [hkind]
  exact hat

theorem exists_name_of_readProperty? {property : Text × Text}
    (h : readProperty? c = some (property, d)) :
    ∃ name, (scan .code c).token.kind = .name name := by
  rw [readProperty?] at h
  simp only [Option.bind_eq_bind, Option.bind_eq_some_iff] at h
  obtain ⟨⟨name, named⟩, hname, -⟩ := h
  exact ⟨name, (readName?_eq_some hname).1⟩

/-- A property with a name and a string. -/
theorem gives_objectItem {property : Text × Text} (h : st.current = scan .code c)
    (hread : readProperty? c = some (property, d))
    (hend : (scan .code d).token.kind = .punct .braceClose ∨ (scan .code d).token.kind = .punct .comma)
    (fuel : Nat) (ctx : Ctx) :
    (objectItem ctx).Gives (runRule grammar fuel) st fun _ next => next.At d := by
  rw [readProperty?] at hread
  simp only [Option.bind_eq_bind, Option.bind_eq_some_iff, Option.pure_def, Option.some.injEq,
    Prod.mk.injEq] at hread
  obtain ⟨⟨name, named⟩, hname, marked, hmark, ⟨value, valued⟩, hvalue, rfl, rfl⟩ := hread
  obtain ⟨hkind, hafter⟩ := readName?_eq_some hname
  obtain ⟨hcolon, hbehind⟩ := readMark?_eq_some hmark
  rw [← h] at hkind
  have hlook : (st.look 1).kind = .punct .colon := by rw [State.look_one h, hafter, hcolon]
  refine Prog.Gives.bind gives_token ?_
  rintro t next ⟨rfl, rfl⟩
  refine Prog.Gives.bind (gives_look 1) ?_
  rintro t next ⟨rfl, rfl⟩
  rw [hkind, hlook]
  -- It is no accessor and no method, and its name does not stand alone.
  have haccessor : isAccessor.Gives (runRule grammar fuel) next
      fun b last => b = false ∧ last = next := by
    refine Prog.Gives.bind gives_kind ?_
    rintro k last ⟨rfl, rfl⟩
    rw [hkind]
    exact ⟨rfl, rfl⟩
  refine Prog.Gives.bind haccessor ?_
  rintro b last ⟨rfl, rfl⟩
  refine Prog.Gives.bind (gives_eat_ne (by rw [hkind]; simp)) ?_
  rintro b last ⟨rfl, rfl⟩
  refine Prog.Gives.bind (gives_propertyName h hname ctx) ?_
  rintro _ behind ⟨hbehindName, -⟩
  have hcolon' : behind.current.token.kind = .punct .colon := by rw [hbehindName, hcolon]
  refine Prog.Gives.bind gives_kind ?_
  rintro k last ⟨rfl, rfl⟩
  rw [hcolon', show (TokenKind.punct .colon == .punct .parenOpen) = false from rfl,
    show (TokenKind.punct .colon == .punct .less) = false from rfl, Bool.and_false, Bool.or_false,
    if_neg Bool.false_ne_true, if_neg (by simp)]
  refine Prog.Gives.bind (gives_expect .colon) ?_
  rintro _ last ⟨rfl, -⟩
  have hat := State.at_advance hbehindName
  rw [hbehind] at hat
  refine Prog.Gives.bind (Prog.Gives.call (gives_assignment_string hat.1 hvalue hend fuel ctx)) ?_
  rintro e last hlast
  exact hlast

/-- Properties up to the brace behind them. -/
theorem gives_objectItems {properties : List (Text × Text)} (count : Nat)
    (hread : readProperties? count c = some (properties, d))
    (hbrace : (scan .code d).token.kind = .punct .braceClose) (fuel : Nat) (ctx : Ctx)
    (h : st.current = scan .code c) :
    (runRule grammar fuel ctx .objectItems st).Gives fun _ next => next.At d := by
  induction count generalizing c st fuel properties with
  | zero => cases hread
  | succ count ih =>
    refine gives_succ (r := .objectItems) (fun fuel => ?_) fuel
    show (objectItemsRule ctx).Gives (runRule grammar fuel) st _
    rw [readProperties?] at hread
    simp only [Option.bind_eq_bind, Option.bind_eq_some_iff] at hread
    obtain ⟨⟨property, behind⟩, hproperty, hread⟩ := hread
    dsimp only at hread
    obtain ⟨name, hname⟩ := exists_name_of_readProperty? hproperty
    rw [← h] at hname
    refine Prog.Gives.bind gives_kind ?_
    rintro k next ⟨rfl, rfl⟩
    rw [hname]
    cases hcomma : readMark? .comma behind with
    | none =>
      rw [hcomma] at hread
      obtain ⟨rfl, rfl⟩ := Prod.mk.inj (Option.some.inj hread)
      refine Prog.Gives.bind (gives_objectItem h hproperty (.inl hbrace) fuel ctx) ?_
      rintro part last hlast
      refine Prog.Gives.bind gives_kind ?_
      rintro k last ⟨rfl, rfl⟩
      rw [hlast.1, hbrace]
      exact hlast
    | some rest =>
      rw [hcomma] at hread
      simp only [Option.bind_eq_some_iff, Option.pure_def, Option.some.injEq, Prod.mk.injEq] at hread
      obtain ⟨⟨others, other⟩, hothers, rfl, rfl⟩ := hread
      obtain ⟨hkind, hafter⟩ := readMark?_eq_some hcomma
      refine Prog.Gives.bind (gives_objectItem h hproperty (.inr hkind) fuel ctx) ?_
      rintro part last hlast
      refine Prog.Gives.bind gives_kind ?_
      rintro k last ⟨rfl, rfl⟩
      rw [hlast.1, hkind]
      refine Prog.Gives.bind (gives_expect .comma) ?_
      rintro _ last ⟨rfl, -⟩
      have hat := State.at_advance hlast.1
      rw [hafter] at hat
      refine Prog.Gives.bind (Prog.Gives.call (ih hothers fuel hat.1)) ?_
      rintro target last hlast
      exact hlast

/-! ## Braces -/

/-- The rules for operands, at an object of strings. -/
theorem gives_primary_object {properties : List (Text × Text)} {inner rest : Cursor} {count : Nat}
    (h : st.current = scan .code c) (hopen : readMark? .braceOpen c = some inner)
    (hread : readProperties? count inner = some (properties, rest))
    (hclose : readMark? .braceClose rest = some d) (fuel : Nat) (ctx : Ctx) :
    (runRule grammar fuel ctx .primary st).Gives fun _ next => next.At d := by
  refine gives_succ (r := .primary) (fun fuel => ?_) fuel
  show (primaryRule ctx).Gives (runRule grammar fuel) st _
  obtain ⟨hkind, hbehind⟩ := readMark?_eq_some hopen
  obtain ⟨hbrace, hafter⟩ := readMark?_eq_some hclose
  rw [← h] at hkind
  refine Prog.Gives.bind gives_token ?_
  rintro t next ⟨rfl, rfl⟩
  rw [hkind]
  refine Prog.Gives.bind (gives_advanceIn_mark .code hkind) ?_
  rintro _ last rfl
  have hat := State.at_advance h
  rw [hbehind] at hat
  refine Prog.Gives.bind (Prog.Gives.call (gives_objectItems count hread hbrace fuel _ hat.1)) ?_
  rintro target last hlast
  refine Prog.Gives.bind (gives_expect .braceClose) ?_
  rintro _ last ⟨rfl, -⟩
  exact hafter ▸ State.at_advance hlast.1

/-- **The value of an attribute that is an object of strings in braces** is read up to the last brace. -/
theorem gives_attributeValue_container {properties : List (Text × Text)} (fuel : Nat) (ctx : Ctx)
    (h : st.current = scan .attribute c) (hread : readContainer? c = some (properties, d)) :
    (attributeValue ctx).Gives (runRule grammar fuel) st fun _ next => next.At d := by
  rw [readContainer?] at hread
  simp only [Option.bind_eq_bind, Option.bind_eq_some_iff, Option.pure_def, Option.some.injEq,
    Prod.mk.injEq] at hread
  obtain ⟨outer, houter, inner, hinner, ⟨properties, rest⟩, hread, closed, hclosed, last, hlast, rfl,
    rfl⟩ := hread
  obtain ⟨hkind, hafter⟩ := readMark?_eq_some houter
  obtain ⟨hopen, -⟩ := readMark?_eq_some hinner
  obtain ⟨hbrace, hbehind⟩ := readMark?_eq_some hlast
  rw [scan_attribute_of_mark hkind] at h
  rw [← h] at hkind
  refine Prog.Gives.bind gives_kind ?_
  rintro k next ⟨rfl, rfl⟩
  rw [hkind]
  refine Prog.Gives.bind gives_here ?_
  rintro start next ⟨-, rfl⟩
  refine Prog.Gives.bind (gives_advanceIn_mark .code hkind) ?_
  rintro _ begun rfl
  have hat := State.at_advance h
  rw [hafter] at hat
  rw [← hat.1] at hopen
  refine Prog.Gives.bind (gives_at? .braceClose) ?_
  rintro b begun ⟨rfl, rfl⟩
  rw [hopen, if_neg (by decide)]
  have hobject := gives_expression (gives_primary_object hat.1 hinner hread hclosed)
    (fun _ next hnext => ⟨⟨_, hnext.1⟩, .inl (by rw [hnext.1]; exact hbrace)⟩) fuel ctx.enclosed
    (.inr hopen) fun _ next hnext => by rw [hnext.1]; exact hbrace
  refine Prog.Gives.bind (Prog.Gives.skip hobject) ?_
  rintro _ valued hvalued
  refine (gives_expect .braceClose).imp ?_
  rintro _ behind ⟨rfl, -⟩
  exact hbehind ▸ State.at_advance hvalued.1

end Programs

end Retouch.Script
