import Retouch.Proofs.Script.PlainElement
import Retouch.Proofs.Site.Spans

/-!
# A rendered text is read as itself

What `renderText` writes for a text, and that this is read as the text wherever it stands between two
tags: by the rule for what stands there (`Script.run_children_renderText`), and so by the sites of a
source. The literal that is written for a text with special signs is one of data; that it is a literal
of scripts with the same value is `Script.scan_writeString`.
-/

namespace Retouch

open Text Script

/-! ## The literal -/

namespace Script

/-- Whether a text is a string literal in double quotes, without raw line breaks, that has a value in a
script: read as one token, whatever stands behind it. -/
structure IsLiteralOf (t literal : Text) : Prop where
  quoted : ∃ body, literal = '"' :: body ++ ['"']
  unbroken : '\n' ∉ literal ∧ '\r' ∉ literal
  value : ∀ rest offset, scan .code ⟨literal ++ rest, offset⟩
    = .of (.string t) [] false false ⟨literal ++ rest, offset⟩
        ⟨rest, offset + byteLength literal⟩

/-- **What stands for a text between quotes is a literal with that value**, whatever the text is. -/
theorem isLiteralOf_of_bodyOf {t body : Text} (h : Json.BodyOf t body) :
    IsLiteralOf t ('"' :: body ++ ['"']) := by
  have hcontrol : ∀ d ∈ '"' :: body ++ ['"'], 0x20 ≤ d.toNat := by
    intro d hd
    rcases List.mem_append.1 hd with hd | hd
    · rcases List.mem_cons.1 hd with rfl | hd
      · decide
      · exact h.le_of_mem hd
    · rw [List.mem_singleton.1 hd]
      decide
  refine ⟨⟨body, rfl⟩, ⟨fun hbreak => ?_, fun hbreak => ?_⟩, scan_literal h⟩
  · exact absurd (hcontrol _ hbreak) (by decide)
  · exact absurd (hcontrol _ hbreak) (by decide)

/-- So is what is written for it. -/
theorem isLiteralOf_writeString (t : Text) : IsLiteralOf t (Json.writeString t) :=
  isLiteralOf_of_bodyOf (Json.bodyOf_flatMap_writeChar t)

end Script

/-! ## Sites -/

section Sites

variable {dialect : Dialect} {source : Text} {found : List Site}

/-- An element with a rendered text between its tags shows that text. -/
theorem Site.shows_renderText (h : sites dialect source = .ok found) {site : Site}
    (hsite : site ∈ found) {before behind t : Text}
    (hsource : source = before ++ (renderText t ++ behind))
    (hbetween : site.between
      = some ⟨byteLength before, byteLength before + byteLength (renderText t)⟩) :
    site.text = t ∧ site.isLeaf = true := by
  obtain ⟨closing, hclosing, hspan⟩ := Option.map_eq_some_iff.1 hbetween
  obtain ⟨hbefore, hstop⟩ := Span.mk.inj hspan
  obtain ⟨children, hstands⟩ := exists_stands h hsite
  obtain ⟨fuel, c, st, next, hread⟩ := hstands.known.between closing hclosing
  obtain ⟨toClosing, tail, hcut, hlength, hslash⟩ := hread.exists_append_slash
  -- The closing tag begins where the rendered text ends.
  obtain ⟨-, rfl⟩ : toClosing = before ++ renderText t ∧ '<' :: tail = behind := by
    refine append_inj_of_byteLength_eq ?_ ?_
    · rw [← hcut, hsource, List.append_assoc]
    · rw [hlength, hstop, byteLength_append]
  rw [hsource] at hread
  obtain ⟨htext, hleaf, -⟩ := hread.shows hbefore.symm hslash
  exact ⟨hstands.text.trans htext, by rw [hstands.isLeaf, hleaf]; rfl⟩

/-- **The site of a source that is one element.** -/
theorem sites_plainElement (dialect : Dialect) {name : Text} (h : isNamePart name = true)
    (hthis : name ≠ Keyword.this.text) (t : Text) :
    sites dialect (plainElement name t) = .ok [⟨.of name 0, name, plainTag name t 0, t, true⟩] := by
  have hsite : Site.ofElements .empty
      (Markup.elementsOfAll [.element (plainTag name t 0) [] (piecesOf t)])
        = [⟨.of name 0, name, plainTag name t 0, t, true⟩] := by
    have hnested : Markup.elementsOfAll (piecesOf t) = [] := by
      unfold piecesOf
      split
      · rfl
      · split <;> rfl
    have helements : Markup.elementsOfAll [.element (plainTag name t 0) [] (piecesOf t)]
        = [(plainTag name t 0, piecesOf t)] := by
      simp only [Markup.elementsOfAll, Markup.elements, hnested, List.append_nil]
    rw [helements]
    show [Site.mk (.of name 0) name (plainTag name t 0) (Markup.textOf (piecesOf t))
      (!(piecesOf t).any Markup.isStructural)] = _
    rw [textOf_piecesOf, isStructural_piecesOf]
    rfl
  rw [sites, parse_plainElement dialect.typed h hthis]
  exact congrArg Except.ok hsite

/-- **A text is read as it was written.** Without special signs it stands as it is, as one piece of text
or as nothing; with such signs it is one string literal in braces that has the text as its value. A reader
behind an opening tag reads exactly these pieces, notes nothing, and stands at the sign of the closing tag.
Every element of a source with the rendered text between its tags shows the text, and the element that is
written with any plain name around it is read. -/
theorem renderText_read (t : Text) :
    (t.any isSignificant = false →
      renderText t = t ∧ piecesOf t = if t = [] then [] else [.text t]) ∧
    (t.any isSignificant = true →
      ∃ literal, renderText t = '\x7b' :: literal ++ ['\x7d'] ∧ IsLiteralOf t literal ∧
        piecesOf t = [.literal t]) ∧
    (∀ fuel c st tail n, st.current = scanChild ⟨renderText t ++ '<' :: tail, n⟩ →
      (∃ m, (scan .code ⟨tail, m⟩).token.kind = .punct .slash) →
        st.current.token.faults = [] ∧
          runRule grammar (fuel + 11) c .children st = .done (piecesOf t) (st.behindText t tail n)) ∧
    Markup.textOf (piecesOf t) = t ∧
    (∀ dialect source found, sites dialect source = .ok found → ∀ site ∈ found, ∀ before behind,
      source = before ++ (renderText t ++ behind) →
        site.between = some ⟨byteLength before, byteLength before + byteLength (renderText t)⟩ →
          site.text = t ∧ site.isLeaf = true) ∧
    ∀ dialect name, isNamePart name = true → name ≠ Keyword.this.text →
      sites dialect (plainElement name t) = .ok [⟨.of name 0, name, plainTag name t 0, t, true⟩] := by
  refine ⟨fun h => ⟨renderText_plain h, ?_⟩, fun h => ?_, ?_, textOf_piecesOf t, ?_, ?_⟩
  · rw [piecesOf, h, if_neg Bool.false_ne_true]
    cases t <;> rfl
  · exact ⟨_, (renderText_significant h).1, isLiteralOf_writeString t, if_pos h⟩
  · intro fuel c st tail n hst hslash
    exact ⟨hst ▸ faults_scanChild_renderText t tail n, run_children_renderText fuel c hst hslash⟩
  · exact fun dialect source found h site hsite before behind => site.shows_renderText h hsite
  · exact fun dialect name h hthis => sites_plainElement dialect h hthis t

/-- A text with a quote, a backslash and a line break, in a paragraph. -/
theorem renderText_read_quoted :
    let t := "a\"\\\n".toList
    let reader : State := ⟨scanChild ⟨renderText t ++ "</p>".toList, 3⟩, 3, [], [], [], [], []⟩
    let site : Site := ⟨.of ['p'] 0, ['p'], plainTag ['p'] t 0, t, true⟩
    (∃ literal, renderText t = '\x7b' :: literal ++ ['\x7d'] ∧ IsLiteralOf t literal) ∧
      runRule grammar 11 (.start true) .children reader
        = .done [.literal t] (reader.behindText t "/p>".toList 3) ∧
      sites .tsx (plainElement ['p'] t) = .ok [site] ∧ site.text = t := by
  intro t reader site
  obtain ⟨-, hliteral, hrun, -, hsites, hplain⟩ := renderText_read t
  obtain ⟨literal, hrender, his, hpieces⟩ := hliteral (by decide)
  have hfound : sites .tsx (plainElement ['p'] t) = .ok [site] :=
    hplain .tsx ['p'] (by decide) (by decide)
  refine ⟨⟨literal, hrender, his⟩, ?_, hfound, ?_⟩
  · rw [← hpieces]
    exact (hrun 0 (.start true) reader "/p>".toList 3 rfl ⟨0, rfl⟩).2
  · exact (hsites .tsx _ _ hfound site List.mem_cons_self "<p>".toList "</p>".toList rfl rfl).1

end Sites

end Retouch
