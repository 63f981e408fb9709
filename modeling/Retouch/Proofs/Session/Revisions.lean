import Retouch.Proofs.Session.Run

/-!
# Revisions

Documents come one after the other: `Document.Succeeds` says that one can come after another. Along a
run of a session they do (`succeeds_after`), so a revision has one text.

The main statement is `revision_of_run`. The revision counts how often the text has changed, whatever
changed it; two moments with one revision have one text; and what is pushed is the document of the
moment, in the order of the revisions.
-/

namespace Retouch

/-! ## Documents in order -/

/-- Whether a document can come after another: its revision is no smaller, it has the same text if
its revision is the same, and another text if its revision is the next. -/
structure Document.Succeeds (newer older : Document) : Prop where
  le : older.revision ≤ newer.revision
  same : older.revision = newer.revision → older.text = newer.text
  other : older.revision + 1 = newer.revision → older.text ≠ newer.text

theorem Document.Succeeds.refl (d : Document) : d.Succeeds d :=
  ⟨Nat.le_refl _, fun _ => rfl, fun heq => absurd heq (Nat.succ_ne_self _)⟩

/-- Another text makes a document that can come after all that the old one could come after. -/
theorem Document.Succeeds.replace {newer older : Document} (h : newer.Succeeds older) (text : Text) :
    (newer.replace text).Succeeds older := by
  have hle := h.le
  have hrevision := newer.replace_revision text
  have htext := newer.replace_text text
  by_cases hunchanged : text = newer.text
  · rw [if_pos hunchanged] at hrevision
    constructor
    · omega
    · intro heq
      rw [htext, hunchanged]
      exact h.same (by omega)
    · intro heq
      rw [htext, hunchanged]
      exact h.other (by omega)
  · rw [if_neg hunchanged] at hrevision
    constructor
    · omega
    · intro heq
      omega
    · intro heq holder
      have hsame : older.text = newer.text := h.same (by omega)
      rw [htext] at holder
      exact hunchanged (holder.symm.trans hsame)

namespace Session

/-! ## The moments of a run -/

/-- The session behind the first `n` operations of a run. -/
def after (s : Session) (operations : List Operation) (n : Nat) : Session := s.run (operations.take n)

/-- What the operation behind the first `n` ones of a run pushes, if there is one. -/
def pushed? (s : Session) (operations : List Operation) (n : Nat) : Option Document :=
  operations[n]?.bind fun o => ((s.after operations n).perform o).pushed

/-- All that a run pushes, in order. -/
def pushes (s : Session) (operations : List Operation) : List Document :=
  (List.range operations.length).filterMap (s.pushed? operations)

/-- How often the first `n` operations of a run change the text. -/
def changes (s : Session) (operations : List Operation) (n : Nat) : Nat :=
  (List.range n).countP fun k =>
    (s.after operations (k + 1)).source ≠ (s.after operations k).source

variable (s : Session) (operations : List Operation)

/-- The next operation is done with the session of the moment. -/
theorem after_succ {n : Nat} {o : Operation} (h : operations[n]? = some o) :
    s.after operations (n + 1) = ((s.after operations n).perform o).session := by
  rw [after, List.take_add_one, h, run_append]
  rfl

/-- Behind the last operation nothing happens. -/
theorem after_succ_of_none {n : Nat} (h : operations[n]? = none) :
    s.after operations (n + 1) = s.after operations n := by
  rw [after, List.take_add_one, h, Option.toList_none, List.append_nil]
  rfl

/-- From one moment to the next the document gets a text, its own if nothing changes. -/
theorem document_after_succ (n : Nat) : ∃ text,
    (s.after operations (n + 1)).document = (s.after operations n).document.replace text := by
  cases ho : operations[n]? with
  | none =>
    rw [after_succ_of_none s operations ho]
    exact ⟨(s.after operations n).source, (if_pos rfl).symm⟩
  | some o =>
    rw [after_succ s operations ho]
    exact document_perform _ o

/-! ## What one operation does to the revision -/

/-- **One operation** raises the revision by one if it changes the text, and not at all otherwise. -/
theorem revision_after_succ (n : Nat) : (s.after operations (n + 1)).document.revision
    = (s.after operations n).document.revision
      + if (s.after operations (n + 1)).source = (s.after operations n).source then 0 else 1 := by
  obtain ⟨text, htext⟩ := document_after_succ s operations n
  unfold source
  rw [htext, Document.replace_text, Document.replace_revision]

/-! ## What a run does to the revision -/

/-- The document of a moment comes after those of the moments before. -/
theorem succeeds_after {m n : Nat} (h : m ≤ n) :
    (s.after operations n).document.Succeeds (s.after operations m).document := by
  induction h with
  | refl => exact .refl _
  | @step n _ ih =>
    obtain ⟨text, htext⟩ := document_after_succ s operations n
    rw [htext]
    exact ih.replace text

/-- The revision counts the changes of the text. -/
theorem revision_after (n : Nat) : (s.after operations n).document.revision
    = s.document.revision + s.changes operations n := by
  induction n with
  | zero => rfl
  | succ n ih =>
    rw [revision_after_succ, ih, changes, changes, List.range_succ, List.countP_append,
      List.countP_singleton, Nat.add_assoc]
    by_cases hsame : (s.after operations (n + 1)).source = (s.after operations n).source <;>
      simp [hsame]

/-- Two moments with one revision have one text. -/
theorem source_of_revision_eq {m n : Nat} (h : (s.after operations m).document.revision
    = (s.after operations n).document.revision) :
    (s.after operations m).source = (s.after operations n).source := by
  rcases Nat.le_total m n with hle | hle
  · exact (succeeds_after s operations hle).same h
  · exact ((succeeds_after s operations hle).same h.symm).symm

/-! ## What a run pushes -/

/-- What is pushed is the document behind the operation that pushes it. -/
theorem document_of_pushed {n : Nat} {document : Document}
    (h : s.pushed? operations n = some document) :
    document = (s.after operations (n + 1)).document := by
  obtain ⟨o, ho, hpushed⟩ := Option.bind_eq_some_iff.1 h
  rw [after_succ s operations ho]
  exact pushed_perform hpushed

/-- Documents are pushed in the order in which they come. -/
theorem pairwise_pushes : (s.pushes operations).Pairwise fun older newer => newer.Succeeds older := by
  refine List.pairwise_filterMap.2 (List.pairwise_lt_range.imp ?_)
  intro m n hlt older holder newer hnewer
  rw [document_of_pushed s operations holder, document_of_pushed s operations hnewer]
  exact succeeds_after s operations (Nat.succ_le_succ (Nat.le_of_lt hlt))

/-- **A revision identifies one text.** In every run, of whatever operations and whether they fail or
not: the revision counts the changes of the text, rising by one with each and never otherwise; two
moments with one revision have one text; and what is pushed is the document of the moment, so that the
revisions pushed never fall. -/
theorem revision_of_run (config : Config) (operations : List Operation) :
    (∀ n, ((start config).after operations (n + 1)).document.revision
      = ((start config).after operations n).document.revision
        + if ((start config).after operations (n + 1)).source
            = ((start config).after operations n).source then 0 else 1) ∧
    (∀ n, ((start config).after operations n).document.revision
      = (start config).changes operations n) ∧
    (∀ m n, ((start config).after operations m).document.revision
        = ((start config).after operations n).document.revision →
      ((start config).after operations m).source = ((start config).after operations n).source) ∧
    (∀ n document, (start config).pushed? operations n = some document →
      document = ((start config).after operations (n + 1)).document) ∧
    ((start config).pushes operations).Pairwise
      fun older newer => older.revision ≤ newer.revision := by
  refine ⟨fun n => revision_after_succ _ _ n, ?_, fun m n h => source_of_revision_eq _ _ h,
    fun n document h => document_of_pushed _ _ h, (pairwise_pushes _ _).imp fun h => h.le⟩
  intro n
  exact (revision_after _ _ n).trans (Nat.zero_add _)

/-- A text that comes back has another revision. -/
example : ((start ⟨.tsx, "a".toList, true⟩).pushes
    [.updatePreview, .setSource "b".toList, .sync, .setSource "a".toList, .updatePreview,
      .setSource "a".toList, .updatePreview])
      = [⟨"a".toList, 0⟩, ⟨"a".toList, 2⟩, ⟨"a".toList, 2⟩] := by
  decide +kernel

end Session

end Retouch
