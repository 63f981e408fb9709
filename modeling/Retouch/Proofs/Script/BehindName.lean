import Retouch.Proofs.Script.StyleAttribute

/-!
# What stands behind the name of a tag

Behind the name of an element stand type arguments, its attributes or the end of its tag
(`Known.behindName`), and behind its attributes the end of its tag (`Known.kind_insertAt`). A name that
ends in a part that two texts have in common is the same in both (`Known.name_unique`).
-/

namespace Retouch.Script

open Text

/-- What the token behind the name of a tag can be. Without attributes it is the end of the tag or the
beginning of type arguments; with attributes it is one of those or the beginning of the first one, and
stands before the place for a new one. -/
structure BehindName (tag : Tag) (s : Scanned) : Prop where
  unstyled : tag.insertAt = tag.nameSpan.stop → tag.style = none
  styled : ∀ style, tag.style = some style → s.token.start ≤ style.span.start
  bare : tag.insertAt = tag.nameSpan.stop →
    s.token.kind ∈ [.punct .slash, .punct .greater, .punct .less, .punct .shiftLeft]
  attributed : tag.insertAt ≠ tag.nameSpan.stop → s.token.start < tag.insertAt ∧
    (s.token.kind.isWord = true ∨
      s.token.kind ∈ [.punct .braceOpen, .punct .less, .punct .shiftLeft])

/-- The marks that no attribute begins with are read wherever the text stands that they begin. -/
theorem kind_scan_ends {t : Text} {n : Nat} (h : (scan .code ⟨t, n⟩).token.kind ∈
      [.punct .slash, .punct .greater, .punct .less, .punct .shiftLeft]) (m : Nat) :
    (scan .code ⟨t, m⟩).token.kind ∈
      [.punct .slash, .punct .greater, .punct .less, .punct .shiftLeft] := by
  simp only [List.mem_cons, List.not_mem_nil, or_false] at h ⊢
  rcases h with hmark | hmark | hmark | hmark
  · exact .inl (kind_scan_mark rfl (by decide) hmark m)
  · exact .inr (.inl (kind_scan_mark rfl (by decide) hmark m))
  · exact .inr (.inr (.inl (kind_scan_mark rfl (by decide) hmark m)))
  · exact .inr (.inr (.inr (kind_scan_mark rfl (by decide) hmark m)))

section Programs

variable {source : Text} {st : State}

/-- Type arguments are read only if they begin here. -/
theorem kind_typeArgumentsOfTag {use : Use} (c : Ctx) :
    (elementRest.typeArgumentsOfTag c).Gives use st fun _ next =>
      next = st ∨ st.current.token.kind = .punct .less ∨ st.current.token.kind = .punct .shiftLeft := by
  refine Prog.Gives.bind gives_kind ?_
  rintro k next ⟨rfl, rfl⟩
  split
  · next hbegin =>
    simp only [Bool.and_eq_true, Bool.or_eq_true, beq_iff_eq] at hbegin
    exact (Outcome.gives_eq _).imp fun _ _ _ => .inr hbegin.2
  · exact .inl rfl

/-- There are attributes only if one begins here. -/
theorem gives_attributes_begin (fuel : Nat) (c : Ctx) (h : st.Steady source) :
    (runRule grammar fuel c .attributes st).Gives fun attributes next =>
      attributes = [] ∧ next = st ∨
        attributes ≠ [] ∧ st.offset < next.lastStop ∧
          (st.current.token.kind.isWord = true ∨ st.current.token.kind = .punct .braceOpen) := by
  refine gives_succ (r := .attributes) (fun fuel => ?_) fuel
  show (attributesRule c).Gives (runRule grammar fuel) st _
  have hf := finds_runRule source fuel
  -- What is read of the first one is not empty, and the others stand behind it.
  have hspread : st.current.token.kind = .punct .braceOpen →
      (spreadAttribute c st.offset).Gives (runRule grammar fuel) st fun _ middle =>
        middle.Steady source ∧ st.offset < middle.lastStop ∧
          (st.current.token.kind.isWord = true ∨ st.current.token.kind = .punct .braceOpen) := by
    intro hbrace
    refine Prog.Gives.bind (gives_advanceIn_mark .code hbrace) ?_
    rintro _ inner rfl
    have hinner := (State.Walked.advance h .code).steady
    refine (goes hf _ hinner).imp fun _ middle hmiddle => ⟨hmiddle.steady, ?_, .inr hbrace⟩
    exact Nat.lt_of_lt_of_le (h.solid.lt_stop hbrace) hmiddle.lastStop_le
  have hnamed : (namedAttribute c st.offset).Gives (runRule grammar fuel) st fun _ middle =>
      middle.Steady source ∧ st.offset < middle.lastStop ∧
        (st.current.token.kind.isWord = true ∨ st.current.token.kind = .punct .braceOpen) := by
    refine Prog.Gives.bind ((gives_tagWord h).and gives_tagWord_eq) ?_
    rintro word worded ⟨⟨hworded, hlt⟩, hword, -⟩
    obtain ⟨letters, hletters⟩ := exists_word_of_rescan hword
    refine (goes hf _ hworded.steady).imp fun _ middle hmiddle => ⟨hmiddle.steady, ?_, .inl ?_⟩
    · exact Nat.lt_of_lt_of_le hlt hmiddle.lastStop_le
    · rw [TokenKind.isWord, hletters]
      rfl
  refine gives_attributesRule_of hspread hnamed ?_ fun _ => .inl ⟨rfl, rfl⟩
  rintro first middle ⟨hmiddle, hlt, hkind⟩
  refine (hf.goes c .attributes middle hmiddle).imp fun attributes last hlast => ?_
  exact .inr ⟨List.cons_ne_nil _ _, Nat.lt_of_lt_of_le hlt hlast.lastStop_le, hkind⟩

end Programs

section Openings

variable {source : Text} {tag : Tag} {fuel start : Nat} {o : Opening} {name : Text}

/-- Behind the attributes a tag ends. -/
theorem Opening.Gave.kind_ended (h : o.Gave tag) :
    o.ended.current.token.kind ∈ [.punct .slash, .punct .greater] := by
  rcases h.ends with ⟨-, hslash⟩ | ⟨-, hgreater⟩
  · simp [hslash]
  · simp [hgreater]

/-- Nothing stands between a name and the attributes, unless type arguments begin there. -/
theorem Opening.Read.typed_eq_or (h : o.Read source (runRule grammar fuel) start) :
    o.typed = o.named ∨ o.named.current.token.kind = .punct .less ∨
      o.named.current.token.kind = .punct .shiftLeft := by
  obtain ⟨inTypes, htyped⟩ := h.typed
  exact (kind_typeArgumentsOfTag o.c).of_done htyped

/-- The attributes stand behind the name. -/
theorem Opening.Read.offset_named_le (h : o.Read source (runRule grammar fuel) start)
    (hname : o.name.intrinsic = some name) : o.named.offset ≤ o.typed.offset := by
  obtain ⟨inTypes, htyped⟩ := h.typed
  exact ((goes (finds_runRule source fuel) (elementRest.typeArgumentsOfTag o.c)
    (h.fresh_named hname).1).of_done htyped).le

/-- Without attributes the end of its tag stands behind a name, or type arguments. -/
theorem Opening.Read.behindName_nil (h : o.Read source (runRule grammar fuel) start)
    (hgave : o.Gave tag) (hnone : o.attributes = [])
    (hended : o.ended.current = o.typed.current) : BehindName tag o.named.current := by
  have hstyle : tag.style = none := by
    rw [hgave.style, hnone]
    rfl
  have hinsert := hgave.insertAt_of_nil hnone
  refine ⟨fun _ => hstyle, fun style hsome => ?_, fun _ => ?_, fun hne => absurd hinsert hne⟩
  · rw [hstyle] at hsome
    cases hsome
  · rcases h.typed_eq_or with htyped | hless | hshift
    · rw [← htyped, ← hended]
      exact List.mem_append_left [.punct .less, .punct .shiftLeft] hgave.kind_ended
    · simp [hless]
    · simp [hshift]

/-- With attributes the first one stands behind a name, or type arguments. -/
theorem Opening.Read.behindName_cons (h : o.Read source (runRule grammar fuel) start)
    (hname : o.name.intrinsic = some name) (hgave : o.Gave tag) (hsome : o.attributes ≠ [])
    (hlt : o.typed.offset < o.ended.lastStop)
    (hkind : o.typed.current.token.kind.isWord = true ∨
      o.typed.current.token.kind = .punct .braceOpen) : BehindName tag o.named.current := by
  obtain ⟨hrow, -⟩ := h.inRow hname
  obtain ⟨hsteady, -, hstop⟩ := h.fresh_named hname
  have hle := h.offset_named_le hname
  have hlast := hsteady.lastStop_le
  have hinsert := h.insertAt_eq hname hgave hsome
  have hbehind : tag.insertAt ≠ tag.nameSpan.stop := by
    rw [hinsert, hgave.nameSpan, ← hstop]
    omega
  refine ⟨fun hsame => absurd hsame hbehind, fun style hstyle => ?_,
    fun hsame => absurd hsame hbehind, fun _ => ⟨?_, ?_⟩⟩
  · have hmem := exists_mem_of_lastStyle (hgave.style.symm.trans hstyle)
    exact Nat.le_trans hle (hrow.within _ hmem).1.low_le
  · rw [hinsert]
    exact Nat.lt_of_le_of_lt hle hlt
  · rcases h.typed_eq_or with htyped | hless | hshift
    · rw [← htyped]
      rcases hkind with hword | hbrace
      · exact .inl hword
      · simp [hbrace]
    · simp [hless]
    · simp [hshift]

end Openings

section Elements

variable {source : Text} {tag : Tag} {children : List Markup}

/-- **What stands behind a name** was read there. -/
theorem Known.behindName (h : Known source (tag, children)) {name : Text} (hname : tag.name = some name) :
    ∃ before rest, source = before ++ rest ∧ byteLength before = tag.nameSpan.stop ∧
      BehindName tag (scan .code ⟨rest, tag.nameSpan.stop⟩) := by
  obtain ⟨fuel, o, hread, hgave⟩ := h.way
  have hintrinsic := hgave.name.symm.trans hname
  obtain ⟨-, ⟨before, rest, hsource, hbefore, hcurrent⟩, hstop⟩ := hread.fresh_named hintrinsic
  have hstop' : tag.nameSpan.stop = o.named.lastStop := by rw [hgave.nameSpan, hstop]
  rw [hstop']
  refine ⟨before, rest, hsource, hbefore, ?_⟩
  rw [← hcurrent]
  have hattributes := (gives_attributes_begin fuel o.c (hread.steady_attributes hintrinsic)).of_done
    hread.attributes
  rcases hattributes with ⟨hnone, hended⟩ | ⟨hsome, hlt, hkind⟩
  · have hcurrent' : o.ended.current = o.typed.current := by rw [hended]
    exact hread.behindName_nil hgave hnone hcurrent'
  · exact hread.behindName_cons hintrinsic hgave hsome hlt hkind

/-- **What stands behind the attributes**, or behind the name if there are none: a mark that no attribute
begins with. -/
theorem Known.kind_insertAt (h : Known source (tag, children)) {name : Text}
    (hname : tag.name = some name) :
    ∃ before rest, source = before ++ rest ∧ byteLength before = tag.insertAt ∧
      (scan .code ⟨rest, tag.insertAt⟩).token.kind ∈
        [.punct .slash, .punct .greater, .punct .less, .punct .shiftLeft] := by
  by_cases hbare : tag.insertAt = tag.nameSpan.stop
  · obtain ⟨before, rest, hsource, hbefore, hbehind⟩ := h.behindName hname
    rw [hbare]
    exact ⟨before, rest, hsource, hbefore, hbehind.bare hbare⟩
  · obtain ⟨fuel, o, hread, hgave⟩ := h.way
    have hintrinsic := hgave.name.symm.trans hname
    have hsome : o.attributes ≠ [] := fun hnone => hbare (hgave.insertAt_of_nil hnone)
    obtain ⟨before, rest, hsource, hbefore, hcurrent⟩ :=
      hread.holds_ended hintrinsic (holdsBehind_fresh source)
    rw [hread.insertAt_eq hintrinsic hgave hsome]
    refine ⟨before, rest, hsource, hbefore, ?_⟩
    rw [← hcurrent]
    exact List.mem_append_left [.punct .less, .punct .shiftLeft] hgave.kind_ended

/-- The first sign behind a name, if there are attributes. -/
theorem BehindName.exists_gap {u : Text} {n : Nat} (h : BehindName tag (scan .code ⟨u, n⟩))
    (hne : tag.insertAt ≠ tag.nameSpan.stop) :
    ∃ c rest, Cursor.Gap ⟨u, n⟩ ⟨c :: rest, (scan .code ⟨u, n⟩).token.start⟩ ∧ c ∉ ['/', ':', '.'] := by
  obtain ⟨-, hkind⟩ := h.attributed hne
  have hgap : Cursor.Gap ⟨u, n⟩ (scan .code ⟨u, n⟩).here := by
    refine gap_here_of_kind (by decide) fun hmalformed => ?_
    rw [hmalformed] at hkind
    exact absurd hkind (by decide)
  have hhere := Scanned.here_scan_gap .code (by decide) ⟨u, n⟩
  have hstart : (scan .code ⟨u, n⟩).here.offset = (scan .code ⟨u, n⟩).token.start := rfl
  rcases hkind with hword | hmark
  · obtain ⟨word, hword⟩ := Option.isSome_iff_exists.1 hword
    obtain ⟨⟨c, rest, hrest, hslash⟩, hread, hnone, -⟩ := word_of_scan hword
    rw [← hhere] at hrest hread
    rw [← hread, hrest] at hnone
    have hbegins := isIdentifierStart_or_backslash hnone
    refine ⟨c, rest, ?_, ?_⟩
    · rw [← hstart, ← hrest]
      exact hgap
    · simp only [List.mem_cons, List.not_mem_nil, or_false]
      rintro (rfl | rfl | rfl)
      · exact hslash rfl
      · exact absurd hbegins (by decide)
      · exact absurd hbegins (by decide)
  · have hspelt : ∀ mark, (scan .code ⟨u, n⟩).token.kind = .punct mark →
        (scan .code ⟨u, n⟩).here.rest = mark.text ++ (scan .code ⟨u, n⟩).behind := fun mark hmark =>
      ((Scanned.solid_scan .code _).mark mark hmark).1
    simp only [List.mem_cons, List.not_mem_nil, or_false] at hmark
    rw [← hstart]
    generalize (scan .code ⟨u, n⟩).here = here at hgap hspelt
    obtain ⟨t, o⟩ := here
    rcases hmark with hmark | hmark | hmark
    · obtain rfl := hspelt _ hmark
      exact ⟨'\x7b', _, hgap, by decide⟩
    · obtain rfl := hspelt _ hmark
      exact ⟨'<', _, hgap, by decide⟩
    · obtain rfl := hspelt _ hmark
      exact ⟨'<', _, hgap, by decide⟩

end Elements

section Added

variable {source edited before u v : Text} {element again : Tag × List Markup} {name other : Text}

/-- What stands behind the sign of a tag, up to a later place of the text. -/
theorem exists_behind_sign {l u toSign rest : Text} {n : Nat} (hcut : toSign ++ '<' :: rest = l ++ u)
    (hlength : byteLength toSign = n) (hl : n + 1 ≤ byteLength l) :
    ∃ gap, l = toSign ++ '<' :: gap ∧ rest = gap ++ u ∧ n + 1 + byteLength gap = byteLength l := by
  have hsign : byteLength ['<'] = 1 := rfl
  have hjoined : toSign ++ ['<'] ++ rest = l ++ u := by rw [← hcut, List.append_assoc]; rfl
  obtain ⟨gap, rfl, rfl⟩ := exists_eq_append_of_byteLength_le hjoined (by
    rw [byteLength_append, hsign]
    omega)
  refine ⟨gap, by simp, rfl, ?_⟩
  rw [byteLength_append, byteLength_append, hsign, hlength]

/-- What stands behind a sign is told by its place. -/
theorem eq_behind_sign {toSign rest toSign' rest' : Text}
    (h : toSign' ++ '<' :: rest' = toSign ++ '<' :: rest)
    (hlength : byteLength toSign' = byteLength toSign) : rest' = rest :=
  (List.cons.inj (append_inj_of_byteLength_eq h hlength).2).2

/-- A name ends before a character that goes on with no word. -/
theorem Known.stop_name (h : Known source element) (hname : element.1.name = some name)
    (hsource : source = before ++ u) (hbefore : byteLength before = element.1.nameSpan.stop) {d : Char}
    {rest : Text} (hu : u = d :: rest) : isIdentifierPart d = false ∧ d ≠ '-' := by
  obtain ⟨toSign, behind, hcut, hlength, hread⟩ := h.read.name
  have hlow := Nat.le_trans h.placed.nameSpan.low_le h.placed.nameSpan.le
  obtain ⟨p, -, rfl, hp⟩ := exists_behind_sign (hcut.symm.trans hsource) hlength (by omega)
  exact (hread name hname).stop (hbefore.symm.trans hp.symm) hu

/-- Names at one place of two texts that are the same up to the end of the first one. -/
theorem Known.exists_nameReads (h : Known source element) (hagain : Known edited again)
    (hname : element.1.name = some name) (hother : again.1.name = some other)
    (hsource : source = before ++ u) (hedited : edited = before ++ v)
    (hbefore : byteLength before = element.1.nameSpan.stop)
    (hstart : again.1.span.start = element.1.span.start) :
    ∃ p, NameRead ⟨p ++ u, element.1.span.start + 1⟩ name element.1.nameSpan ∧
      NameRead ⟨p ++ v, element.1.span.start + 1⟩ other again.1.nameSpan ∧
      element.1.span.start + 1 + byteLength p = element.1.nameSpan.stop := by
  obtain ⟨toSign, rest, hcut, hlength, hread⟩ := h.read.name
  obtain ⟨toSign', rest', hcut', hlength', hread'⟩ := hagain.read.name
  have hlow := Nat.le_trans h.placed.nameSpan.low_le h.placed.nameSpan.le
  obtain ⟨p, rfl, rfl, hp⟩ := exists_behind_sign (hcut.symm.trans hsource) hlength (by omega)
  obtain rfl : rest' = p ++ v := @eq_behind_sign toSign _ _ _ (by
    rw [← hcut', hedited, List.append_assoc, List.cons_append]) (by omega)
  have hnow := hread' other hother
  rw [hstart] at hnow
  exact ⟨p, hread name hname, hnow, hp.trans hbefore⟩

/-- **Names that end in a common part** of two texts, behind signs at one place, are one name. -/
theorem Known.name_unique (h : Known source element) (hagain : Known edited again)
    (hname : element.1.name = some name) (hother : again.1.name = some other)
    (hsource : source = before ++ u) (hedited : edited = before ++ v)
    (hstart : again.1.span.start = element.1.span.start)
    (hstop : element.1.nameSpan.stop ≤ byteLength before)
    (hstop' : again.1.nameSpan.stop ≤ byteLength before) :
    other = name ∧ again.1.nameSpan = element.1.nameSpan := by
  obtain ⟨toSign, rest, hcut, hlength, hread⟩ := h.read.name
  obtain ⟨toSign', rest', hcut', hlength', hread'⟩ := hagain.read.name
  have hlow := Nat.le_trans h.placed.nameSpan.low_le h.placed.nameSpan.le
  obtain ⟨p, rfl, rfl, hp⟩ := exists_behind_sign (hcut.symm.trans hsource) hlength (by omega)
  obtain rfl : rest' = p ++ v := @eq_behind_sign toSign _ _ _ (by
    rw [← hcut', hedited, List.append_assoc, List.cons_append]) (by omega)
  have hnow := hread' other hother
  rw [hstart] at hnow
  obtain ⟨hsame, hspan⟩ := (hread name hname).unique hnow ⟨p, rfl, rfl, rfl, hp⟩ hstop hstop'
  exact ⟨hsame.symm, hspan.symm⟩

end Added

end Retouch.Script
