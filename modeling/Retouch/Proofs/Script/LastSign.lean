import Retouch.Proofs.Script.Attributes
import Retouch.Proofs.Script.WordEnd
import Retouch.Text.Blank

/-!
# The last sign of a token

A name or an attribute does not end with a blank, so what is trimmed off the end of a tag stands behind
all of them. No blank is read in a word (`exists_readWord_firm`), a string ends with its quote, and a mark
is made of signs: `Scanned.Firm` says so of the tokens, however often they were read again.
-/

namespace Retouch

open Text

/-! ## Blanks -/

namespace Text

/-- The code points of blanks. -/
def blanks : List Nat :=
  [9, 10, 11, 12, 13, 0x20, 0x85, 0xa0, 0x1680, 0x2000, 0x2001, 0x2002, 0x2003, 0x2004, 0x2005, 0x2006,
    0x2007, 0x2008, 0x2009, 0x200a, 0x2028, 0x2029, 0x202f, 0x205f, 0x3000]

/-- A property that no blank has. -/
theorem isBlank_eq_false {p : Char → Bool} (hblanks : ∀ n ∈ blanks, p (Char.ofNat n) = false) {c : Char}
    (h : p c = true) : isBlank c = false := by
  by_contra hblank
  have hmem : c.toNat ∈ blanks := by
    simp only [isBlank, Bool.not_eq_false, Bool.or_eq_true, Bool.and_eq_true, decide_eq_true_eq,
      beq_iff_eq] at hblank
    simp only [blanks, List.mem_cons, List.not_mem_nil, or_false]
    omega
  have hnone := hblanks _ hmem
  rw [Char.ofNat_toNat, h] at hnone
  cases hnone

/-- No blank belongs to a word. -/
theorem isBlank_of_isIdentifierPart {c : Char} (h : isIdentifierPart c = true) : isBlank c = false :=
  isBlank_eq_false (by decide +kernel) h

/-- No blank is a hexadecimal digit. -/
theorem isBlank_of_hexValue {c : Char} (h : (hexValue? c).isSome = true) : isBlank c = false :=
  isBlank_eq_false (p := fun c => (hexValue? c).isSome) (by decide) h

/-- Whether the character before a place of a text is no blank. -/
def FirmAt (t : Text) (n : Nat) : Prop :=
  ∃ before c behind, t = before ++ c :: behind ∧ byteLength before + c.utf8Size = n ∧ isBlank c = false

end Text

namespace Script

open Cursor

/-! ## Words -/

/-- The digits of a number are hexadecimal. -/
theorem isSome_of_hexNumber {digits : Text} {n : Nat} (h : hexNumber? digits = some n) :
    ∀ c ∈ digits, (hexValue? c).isSome = true := by
  unfold hexNumber? at h
  generalize 0 = acc at h
  induction digits generalizing acc with
  | nil => simp
  | cons d digits ih =>
    rw [List.foldlM_cons] at h
    obtain ⟨value, hvalue, hrest⟩ := Option.bind_eq_some_iff.1 h
    obtain ⟨digit, hdigit, -⟩ := Option.map_eq_some_iff.1 hvalue
    exact List.forall_mem_cons.2 ⟨by rw [hdigit]; rfl, ih _ hrest⟩

/-- An escape is spelt without blanks. -/
theorem firm_readCodePoint {t : Text} {n length : Nat} (h : readCodePoint t = some (n, length)) :
    ∀ c ∈ t.take length, isBlank c = false := by
  unfold readCodePoint at h
  split at h
  · next rest =>
    have hdigits : ∀ c ∈ rest.takeWhile fun c => (hexValue? c).isSome, isBlank c = false := fun c hc =>
      isBlank_of_hexValue (List.all_eq_true.1 (List.all_takeWhile (l := rest)) c hc)
    have hsplit := List.prefix_iff_eq_append.1
      (List.takeWhile_prefix (l := rest) fun c => (hexValue? c).isSome)
    dsimp only at h
    generalize rest.takeWhile (fun c => (hexValue? c).isSome) = digits at h hsplit hdigits
    generalize rest.drop digits.length = behind at h hsplit
    split at h
    · cases h
    · next tail hne =>
      have hlength : digits.length + 2 = length := by
        split at h
        · split at h
          · exact (Prod.mk.inj (Option.some.inj h)).2
          · cases h
        · cases h
      have htake : ('\x7b' :: rest).take length = '\x7b' :: (digits ++ ['\x7d']) := by
        rw [← hsplit, ← hlength, List.take_succ_cons, List.take_length_add_append]
        rfl
      rw [htake]
      refine List.forall_mem_cons.2 ⟨by decide, List.forall_mem_append.2 ⟨hdigits, ?_⟩⟩
      exact List.forall_mem_singleton.2 (by decide)
    · cases h
  · obtain ⟨⟨m, rest⟩, hhex, hpair⟩ := Option.map_eq_some_iff.1 h
    obtain ⟨-, rfl⟩ := Prod.mk.inj hpair
    unfold readHex4 at hhex
    split at hhex
    · obtain ⟨value, hvalue, -⟩ := Option.map_eq_some_iff.1 hhex
      exact fun c hc => isBlank_of_hexValue (isSome_of_hexNumber hvalue c hc)
    · cases hhex

/-- A character that belongs to a word is no blank. -/
theorem isBlank_of_belongs {first : Bool} {c : Char} (h : belongs first c = true) : isBlank c = false := by
  cases first with
  | true => exact isBlank_of_isIdentifierPart (isIdentifierPart_of_isIdentifierStart h)
  | false => exact isBlank_of_isIdentifierPart h

/-- **No blank is read in a word**, if none is covered by the escape before it. -/
theorem exists_readWord_firm (covered : Nat) (first : Bool) (t : Text) (offset : Nat)
    (hcovered : ∀ c ∈ t.take covered, isBlank c = false) :
    ∃ used, Reaches ⟨t, offset⟩ used (readWord covered first t offset).behind ∧
      ∀ c ∈ used, isBlank c = false := by
  have hcons : ∀ {c : Char} {rest : Text} {offset : Nat} {d : Cursor}, isBlank c = false →
      (∃ used, Reaches ⟨rest, offset + c.utf8Size⟩ used d ∧ ∀ c ∈ used, isBlank c = false) →
      ∃ used, Reaches ⟨c :: rest, offset⟩ used d ∧ ∀ c ∈ used, isBlank c = false := by
    rintro c rest offset d hc ⟨used, hused, hfirm⟩
    exact ⟨c :: used, (Reaches.cons c rest offset).trans hused, List.forall_mem_cons.2 ⟨hc, hfirm⟩⟩
  fun_induction readWord covered first t offset
  case case2 ih =>
    obtain ⟨hc, hrest⟩ := List.forall_mem_cons.1 hcovered
    exact hcons hc (ih hrest)
  case case3 hbelongs _ ih => exact hcons (isBlank_of_belongs hbelongs) (ih (by simp))
  case case4 hback escape _ _ hpoint _ ih =>
    obtain rfl := eq_of_beq hback
    refine hcons (by decide) (ih ?_)
    exact List.forall_mem_cons.2 ⟨by decide, firm_readCodePoint hpoint⟩
  case case1 | case5 | case6 | case7 | case8 => exact ⟨[], .refl _, by simp⟩

/-! ## Tokens -/

namespace Scanned

/-- What is read of a word has no blanks, and what is read of a string ends with none. -/
structure Firm (s : Scanned) : Prop where
  word : s.token.kind.isWord = true → ∃ used, s.here.Reaches used s.after ∧ ∀ c ∈ used, isBlank c = false
  string : ∀ value, s.token.kind = .string value →
    ∃ used quote, s.here.Reaches (used ++ [quote]) s.after ∧ isBlank quote = false

/-- A token that is neither a word nor a string. -/
theorem firm_of {s : Scanned} (hword : s.token.kind.isWord = false)
    (hstring : ∀ value, s.token.kind ≠ .string value) : s.Firm where
  word h := by
    rw [hword] at h
    cases h
  string value h := absurd h (hstring value)

theorem firm_of_word {kind : TokenKind} {faults : List Diagnostic} {lineEnded escaped : Bool}
    {here after : Cursor} (hkind : kind.isWord = true) {used : Text} (h : here.Reaches used after)
    (hused : ∀ c ∈ used, isBlank c = false) : (Scanned.of kind faults lineEnded escaped here after).Firm where
  word _ := ⟨used, h, hused⟩
  string value hvalue := by
    have hvalue' : kind = .string value := hvalue
    rw [hvalue'] at hkind
    cases hkind

theorem firm_of_string {value : Text} {faults : List Diagnostic} {lineEnded escaped : Bool}
    {here after : Cursor} {used : Text} {quote : Char} (h : here.Reaches (used ++ [quote]) after)
    (hquote : isBlank quote = false) :
    (Scanned.of (.string value) faults lineEnded escaped here after).Firm where
  word hword := by cases hword
  string _ _ := ⟨used, quote, h, hquote⟩

theorem TokenRead.firm {here : Cursor} {lineEnded : Bool} {s : Scanned}
    (h : TokenRead here lineEnded s) : s.Firm := by
  cases h with
  | word _ =>
    obtain ⟨used, hused, hfirm⟩ := exists_readWord_firm 0 true here.rest here.offset (by simp)
    exact firm_of_word (isWord_wordKind _) hused hfirm
  | number =>
    rcases isNumber_readNumeral here with hkind | hkind <;> rw [hkind] <;>
      exact firm_of rfl (fun _ h => by cases h)
  | string hquote hafter =>
    exact firm_of_string hafter (by rcases hquote with rfl | rfl <;> decide)
  | endOfSource | malformed _ | template _ | privateName _ | mark _ =>
    exact firm_of rfl (fun _ h => by cases h)

theorem firm_scanChild (here : Cursor) : (scanChild here).Firm := by
  unfold scanChild
  split <;> exact firm_of rfl (fun _ h => by cases h)

/-- What is read behind a cursor is firm. -/
theorem firm_scan (place : Place) (c : Cursor) : (scan place c).Firm := by
  unfold scan
  dsimp only
  split
  · exact firm_scanChild c
  · split
    · exact firm_of rfl (fun _ h => by cases h)
    · exact (tokenRead_scanToken place _ _).firm

/-- A firm token that is read again is firm. -/
theorem firm_rescan (how : Rescan) {s : Scanned} (h : s.Firm) : (rescan how s).Firm := by
  unfold rescan
  dsimp only
  split
  · split <;> exact firm_of rfl (fun _ h => by cases h)
  · split <;> exact firm_of rfl (fun _ h => by cases h)
  · split
    · exact firm_of rfl (fun _ h => by cases h)
    · exact h
  · exact firm_of rfl (fun _ h => by cases h)
  · split
    · next word hword _ =>
      obtain ⟨used, hused, hfirm⟩ := h.word (by rw [TokenKind.isWord, hword]; rfl)
      refine firm_of_word rfl (hused.trans (reaches_run _ _)) (List.forall_mem_append.2 ⟨hfirm, ?_⟩)
      intro c hc
      have hpart := all_run _ _ c hc
      simp only [Bool.or_eq_true, beq_iff_eq] at hpart
      rcases hpart with rfl | hpart
      · decide
      · exact isBlank_of_isIdentifierPart hpart
    · exact h
  · exact h

/-- **Tokens do not end with blanks**, however often they are read again. -/
theorem ReadAt.firm {c : Cursor} {s : Scanned} (h : s.ReadAt c) : s.Firm := by
  induction h with
  | scan place => exact firm_scan place c
  | rescan how _ ih => exact firm_rescan how ih

end Scanned

/-- A mark does not end with a blank. -/
theorem Punct.exists_last (mark : Punct) : ∃ used last, mark.text = used ++ [last] ∧ isBlank last = false :=
  ⟨mark.text.dropLast, mark.text.getLastD ' ', by cases mark <;> decide⟩

/-- A part of a tag ends with a character that is no blank. -/
theorem State.CanEnd.exists_last {st : State} (h : st.CanEnd) (hsolid : st.current.Solid) :
    ∃ used last, st.current.here.Reaches (used ++ [last]) st.current.after ∧ isBlank last = false := by
  cases h with
  | @mark mark hmark =>
    obtain ⟨used, last, htext, hlast⟩ := mark.exists_last
    exact ⟨used, last, htext ▸ hsolid.mark mark hmark, hlast⟩
  | word hread hword =>
    obtain ⟨c, hread⟩ := hread
    obtain ⟨used, hused, hfirm⟩ := hread.firm.word hword
    rcases List.eq_nil_or_concat' used with rfl | ⟨first, last, rfl⟩
    · have hlt := hsolid.word hword
      have hstop : st.current.token.stop = st.current.token.start + 0 := hused.2
      omega
    · exact ⟨first, last, hused, hfirm last (by simp)⟩
  | string hread hvalue =>
    obtain ⟨c, hread⟩ := hread
    exact hread.firm.string _ hvalue

/-! ## Tags -/

/-- Behind a part of a tag the last character is no blank. -/
theorem holdsBehind_firm (source : Text) :
    HoldsBehind source fun st => FirmAt source st.lastStop ∧ st.Read where
  behind {st} h hends := by
    obtain ⟨used, last, ⟨hrest, hstop⟩, hlast⟩ := hends.exists_last h.solid
    obtain ⟨before, hsource, hoffset⟩ := h.reached
    refine ⟨⟨before ++ used, last, st.current.behind, ?_, ?_, hlast⟩, st.read_advance .code⟩
    · have hsource' : source = before ++ st.current.here.rest := hsource
      rw [hsource', hrest]
      simp [Scanned.after]
    · have hoffset' : st.current.here.offset = 0 + byteLength before := hoffset
      have hstop' : st.current.token.stop = st.current.here.offset + byteLength (used ++ [last]) := hstop
      show byteLength (before ++ used) + last.utf8Size = st.current.token.stop
      rw [hstop', hoffset', byteLength_append, byteLength_append, byteLength_cons, byteLength_nil]
      omega
  congr {st next} h hcurrent hlast := by
    unfold State.Read
    rw [hcurrent, hlast]
    exact h
  read {st} h := h.2

section Elements

variable {source : Text} {tag : Tag} {children : List Markup}

/-- **A name or an attribute does not end with a blank.** -/
theorem Known.firmAt_insertAt (h : Known source (tag, children)) {name : Text}
    (hname : tag.name = some name) : FirmAt source tag.insertAt := by
  obtain ⟨fuel, o, hread, hgave⟩ := h.way
  have hintrinsic := hgave.name.symm.trans hname
  have hP := holdsBehind_firm source
  by_cases hnone : o.attributes = []
  · rw [hgave.insertAt_of_nil hnone, hgave.nameSpan, ← hread.stop_named]
    exact (hread.holds_named hintrinsic hP).2.1
  · rw [hread.insertAt_eq hintrinsic hgave hnone]
    exact (hread.holds_ended hintrinsic hP).1

/-- A tag that is all of its element does not end with a sign right behind its attributes: a slash stands
between. -/
theorem TagRead.ne_greater (h : TagRead source tag) (hsingle : tag.closing = none) {before rest : Text}
    (hsource : source = before ++ '>' :: rest) : byteLength before ≠ tag.insertAt := by
  intro hlength
  obtain ⟨s, ⟨before', rest', hsource', hlength', hread⟩, hsolid, hends⟩ := h.ends
  obtain ⟨-, rfl⟩ := append_inj_of_byteLength_eq (hsource'.symm.trans hsource) (by omega)
  have hbehind : s.ReadAt ⟨[] ++ '>' :: rest, tag.insertAt⟩ := hread
  exact (hends.stop_of_closes hbehind hsolid (by decide)).1 hsingle

end Elements

end Script

end Retouch
