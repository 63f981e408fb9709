import Retouch.Proofs.Session.Run

/-!
# The selected element

What is selected in a session is an element of its source. An operation either leaves both the
selection and the source as they are, or selects an element that it has found in the source, or selects
nothing (`selection_perform`). The main statement is `selection_of_run`: it stays so whatever the host
does, and every element of the source can be selected.
-/

namespace Retouch

/-- Whether a source can be read and has an element with an address. -/
def IsElement (dialect : Dialect) (source : Text) (address : Address) : Prop :=
  ∃ found, addresses dialect source = .ok found ∧ address ∈ found

namespace Session

/-! ## What the controls and a choice do -/

/-- Choosing an element selects it exactly if it is one of the source. Otherwise nothing changes. -/
theorem select_cases (s : Session) (address : Address) :
    (IsElement s.config.dialect s.source address ∧
      (s.select address).1 = { s with selection := some address }) ∨
    ¬ IsElement s.config.dialect s.source address ∧ (s.select address).1 = s := by
  unfold select addresses IsElement
  cases hfound : Retouch.addresses s.config.dialect s.source with
  | error cause =>
    right
    constructor
    · rintro ⟨found, hok, -⟩
      cases hok
    · rfl
  | ok found =>
    dsimp only [Except.mapError]
    by_cases hmem : address ∈ found
    · left
      rw [if_pos hmem]
      exact ⟨⟨found, rfl, hmem⟩, rfl⟩
    · right
      rw [if_neg hmem]
      refine ⟨?_, rfl⟩
      rintro ⟨_, hok, hother⟩
      exact hmem (Except.ok.inj hok ▸ hother)

/-! ## What an operation does to the dialect -/

/-- **One operation** leaves the configuration as it is. -/
theorem config_perform (s : Session) (o : Operation) :
    (s.perform o).session.config = s.config := by
  cases o with
  | select address =>
    rw [perform, Effect.session_ofAnswer]
    rcases s.select_cases address with ⟨-, hselect⟩ | ⟨-, hselect⟩
    · rw [hselect]
    · rw [hselect]
  | applyStyle => rw [perform, Effect.session_ofAnswer, applyStyle_fst]
  | applyHeading heading => rw [perform, Effect.session_ofAnswer, applyHeading_fst]
  | sync =>
    rw [perform, Effect.session_ofAnswer]
    rcases s.sync_cases with ⟨-, hsync⟩ | ⟨cause, -, hsync⟩ | ⟨outcome, -, hsync⟩
    · rw [hsync]
    · rw [hsync]
      rfl
    · rw [hsync]
      rfl
  | _ => rfl

/-- **A run** leaves the configuration as it is. -/
theorem config_run (s : Session) (operations : List Operation) :
    (s.run operations).config = s.config := by
  induction operations generalizing s with
  | nil => rfl
  | cons o rest ih => exact (ih _).trans (config_perform s o)

/-! ## What an operation does to the selection -/

/-- **The three ways of an operation with the selection.** Nothing is selected behind it, or it leaves
the selection and the document as they are, or it selects an element of the document. -/
theorem selection_perform (s : Session) (o : Operation) :
    (s.perform o).session.selection = none ∨
    ((s.perform o).session.selection = s.selection ∧
      (s.perform o).session.document = s.document) ∨
    ∃ address, IsElement s.config.dialect s.source address ∧
      (s.perform o).session.selection = some address ∧
        (s.perform o).session.document = s.document := by
  cases o with
  | setSource text => exact .inl rfl
  | clearSelection => exact .inl rfl
  | select address =>
    right
    rw [perform, Effect.session_ofAnswer]
    rcases s.select_cases address with ⟨helement, hselect⟩ | ⟨-, hselect⟩
    · right
      rw [hselect]
      exact ⟨address, helement, rfl, rfl⟩
    · left
      rw [hselect]
      exact ⟨rfl, rfl⟩
  | applyStyle =>
    right; left
    rw [perform, Effect.session_ofAnswer, applyStyle_fst]
    exact ⟨rfl, rfl⟩
  | applyHeading heading =>
    right; left
    rw [perform, Effect.session_ofAnswer, applyHeading_fst]
    exact ⟨rfl, rfl⟩
  | sync =>
    rw [perform, Effect.session_ofAnswer]
    rcases s.sync_cases with ⟨-, hsync⟩ | ⟨cause, -, hsync⟩ | ⟨outcome, -, hsync⟩
    · right; left
      rw [hsync]
      exact ⟨rfl, rfl⟩
    · -- the document is as it was, so what was selected in it still is an element
      right; left
      rw [hsync]
      exact ⟨rfl, rfl⟩
    · left
      rw [hsync]
      rfl
  | _ => exact .inr (.inl ⟨rfl, rfl⟩)

/-! ## The invariant -/

/-- Whether what is selected, if anything is, is an element of the source. -/
def SelectsElement (s : Session) : Prop :=
  ∀ address, s.selection = some address → IsElement s.config.dialect s.source address

/-- **One operation** leaves an element of the source selected, or nothing. -/
theorem selectsElement_perform {s : Session} (h : s.SelectsElement) (o : Operation) :
    (s.perform o).session.SelectsElement := by
  intro address hselected
  have hconfig := config_perform s o
  rcases selection_perform s o with hnone | ⟨hkept, hdocument⟩ | ⟨chosen, helement, hchosen, hdocument⟩
  · rw [hnone] at hselected
    cases hselected
  · rw [hconfig, source, hdocument]
    exact h address (hkept ▸ hselected)
  · rw [hconfig, source, hdocument]
    obtain rfl := Option.some.inj (hchosen.symm.trans hselected)
    exact helement

/-- **A run** leaves an element of the source selected, or nothing. -/
theorem selectsElement_run {s : Session} (h : s.SelectsElement) (operations : List Operation) :
    (s.run operations).SelectsElement := by
  induction operations generalizing s with
  | nil => exact h
  | cons o rest ih => exact ih (selectsElement_perform h o)

/-- At its start a session has nothing selected. -/
theorem selectsElement_start (config : Config) : (start config).SelectsElement := by
  intro address hselected
  cases hselected

/-- **The selection is always valid.** Whatever was done with a session, if something is selected, the
source can be read and the selection is one of its elements. And nothing else is kept from being
selected: an address is selected when it is chosen exactly if it is one of an element. -/
theorem selection_of_run (config : Config) (operations : List Operation) (address : Address) :
    (((start config).run operations).selection = some address →
      IsElement config.dialect ((start config).run operations).source address) ∧
    ((((start config).run operations).perform (.select address)).session.selection = some address ↔
      IsElement config.dialect ((start config).run operations).source address) := by
  have hconfig : ((start config).run operations).config = config := config_run (start config) operations
  have hvalid := selectsElement_run (selectsElement_start config) operations
  generalize (start config).run operations = s at hconfig hvalid ⊢
  subst hconfig
  refine ⟨hvalid address, ?_⟩
  rw [perform, Effect.session_ofAnswer]
  rcases s.select_cases address with ⟨helement, hselect⟩ | ⟨hnone, hselect⟩
  · rw [hselect]
    exact iff_of_true rfl helement
  · rw [hselect]
    exact iff_of_false (fun hselected => hnone (hvalid address hselected)) hnone

/-- A sync writes over the element that was to be selected next. The one around it is selected, and
stays so when there is nothing left to sync. -/
theorem selection_of_run_overwritten :
    let config : Config := ⟨.tsx, "<div><p>a</p></div>".toList, true⟩
    let div : Address := .of "div".toList 0
    let p : Address := .of "p".toList 0
    let operations : List Operation := [.select p, .record (.text ⟨div, "b".toList⟩), .sync, .select p,
      .select div, .sync]
    ((start config).run operations).source = "<div>b</div>".toList ∧
      ((start config).run operations).selection = some div ∧
        IsElement .tsx ((start config).run operations).source div := by
  intro config div p operations
  have hsource : ((start config).run operations).source = "<div>b</div>".toList := by decide +kernel
  have hselected : ((start config).run operations).selection = some div := by decide +kernel
  exact ⟨hsource, hselected, (selection_of_run config operations div).1 hselected⟩

end Session

end Retouch
