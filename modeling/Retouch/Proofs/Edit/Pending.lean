import Mathlib.Data.List.Nodup
import Retouch.Edit.Buffer

/-!
# The edits that wait are a map in the order of insertion

A buffer holds one edit for each element (`EditBuffer.Distinct`), in the order in which the elements
were first edited. What it holds is told by the order of its addresses and by the edit that is found
for each of them (`eq_of_findEdit`), so every operation is described by what it does to these two:
recording by `map_address_put` and `findEdit_put`, putting back by `map_address_merge` and
`findEdit_merge`.

The main statements are about the buffers that any sequence of operations leads to.
`ordered_of_run` says that such a buffer is an insertion-ordered map under every operation, and
`restore_drained_of_run` that putting drained edits back is as if they had never been drained: what
was recorded in between could have been recorded before.
-/

namespace Retouch

namespace EditBuffer

/-! ## What is found -/

/-- The edit that is found for an element is of that element. -/
theorem address_of_findEdit {address : Address} {edits : List PendingEdit} {edit : PendingEdit}
    (h : findEdit address edits = some edit) : edit.address = address := by
  simpa using List.find?_some h

theorem findEdit_eq_none_iff {address : Address} {edits : List PendingEdit} :
    findEdit address edits = none ↔ address ∉ edits.map PendingEdit.address := by
  simp [findEdit, List.find?_eq_none]

theorem isSome_findEdit_iff {address : Address} {edits : List PendingEdit} :
    (findEdit address edits).isSome = true ↔ address ∈ edits.map PendingEdit.address := by
  simp [findEdit, List.find?_isSome]

@[simp] theorem findEdit_nil (address : Address) : findEdit address [] = none := rfl

theorem findEdit_cons (address : Address) (edit : PendingEdit) (edits : List PendingEdit) :
    findEdit address (edit :: edits)
      = if edit.address = address then some edit else findEdit address edits := by
  by_cases h : edit.address = address <;> simp [findEdit, h]

theorem findEdit_append (address : Address) (left right : List PendingEdit) :
    findEdit address (left ++ right) = (findEdit address left).or (findEdit address right) :=
  List.find?_append

/-- Taking out an edit of one element leaves those of the others. -/
theorem findEdit_eraseP {address other : Address} (h : other ≠ address) (edits : List PendingEdit) :
    findEdit other (edits.eraseP fun e => e.address = address) = findEdit other edits := by
  induction edits with
  | nil => rfl
  | cons edit edits ih =>
    by_cases hedit : edit.address = address
    · simp [hedit, findEdit_cons, Ne.symm h]
    · simp [hedit, findEdit_cons, ih]

/-! ## One edit for each element -/

/-- Whether no two edits wait for one element. -/
def Distinct (edits : List PendingEdit) : Prop := (edits.map PendingEdit.address).Nodup

theorem distinct_nil : Distinct [] := List.nodup_nil

/-- Edits are told by the order of their elements and by what is found for each of them. -/
theorem eq_of_findEdit {left right : List PendingEdit} (hdistinct : Distinct left)
    (horder : left.map PendingEdit.address = right.map PendingEdit.address)
    (hfind : ∀ address, findEdit address left = findEdit address right) : left = right := by
  induction left generalizing right with
  | nil => simpa using horder.symm
  | cons edit left ih =>
    cases right with
    | nil => simp at horder
    | cons other right =>
      simp only [List.map_cons, List.cons.injEq] at horder
      obtain ⟨hsame, horder⟩ := horder
      obtain ⟨hnew, hdistinct⟩ := List.nodup_cons.1 hdistinct
      have hhead := hfind edit.address
      simp only [findEdit_cons, hsame, if_true] at hhead
      obtain rfl := Option.some.inj hhead
      rw [ih hdistinct horder fun address => ?_]
      -- Behind the first edit nothing is found for its element, on either side.
      by_cases haddress : edit.address = address
      · subst haddress
        rw [findEdit_eq_none_iff.2 hnew, findEdit_eq_none_iff.2 (horder ▸ hnew)]
      · simpa [findEdit_cons, haddress] using hfind address

/-! ## Recording -/

/-- Recording keeps one edit for each element. -/
theorem distinct_put (edit : PendingEdit) {edits : List PendingEdit} (h : Distinct edits) :
    Distinct (put edit edits) := by
  unfold Distinct at h ⊢
  rw [map_address_put]
  split
  · exact h
  · next hnew =>
    refine List.nodup_append.2 ⟨h, List.nodup_singleton _, ?_⟩
    rintro a ha b hb rfl
    rw [List.mem_singleton] at hb
    exact hnew (hb ▸ ha)

/-- What is built by recording keeps one edit for each element. -/
theorem distinct_foldl_record (edits : List PendingEdit) (b : EditBuffer) (h : Distinct b.pending) :
    Distinct (edits.foldl record b).pending := by
  induction edits generalizing b with
  | nil => exact h
  | cons edit rest ih => exact ih (b.record edit) (distinct_put edit h)

/-- An edit of a new element goes behind all others. -/
theorem put_of_findEdit_none {edit : PendingEdit} {edits : List PendingEdit}
    (h : findEdit edit.address edits = none) : put edit edits = edits ++ [edit] := by
  induction edits with
  | nil => rfl
  | cons old edits ih =>
    by_cases hold : old.address = edit.address
    · simp [findEdit_cons, hold] at h
    · rw [findEdit_cons, if_neg hold] at h
      rw [put, if_neg hold, ih h, List.cons_append]

/-- Any other edit takes the place of the one that waits for its element. -/
theorem exists_put_of_findEdit {edit old : PendingEdit} {edits : List PendingEdit}
    (h : findEdit edit.address edits = some old) :
    ∃ before after, edits = before ++ old :: after ∧ put edit edits = before ++ edit :: after := by
  induction edits with
  | nil => cases h
  | cons first edits ih =>
    by_cases hfirst : first.address = edit.address
    · rw [findEdit_cons, if_pos hfirst] at h
      obtain rfl := Option.some.inj h
      exact ⟨[], edits, rfl, by simp [put, hfirst]⟩
    · rw [findEdit_cons, if_neg hfirst] at h
      obtain ⟨before, after, rfl, hput⟩ := ih h
      exact ⟨first :: before, after, rfl, by simp [put, hfirst, hput]⟩

/-- Writing over the first edit of an element is recording another one in its place. -/
theorem set_of_findIdx? {edit : PendingEdit} {edits : List PendingEdit} {place : Nat}
    (h : (edits.findIdx? fun old => old.address = edit.address) = some place) :
    edits.set place edit = put edit edits ∧ edits[place]? = findEdit edit.address edits := by
  induction edits generalizing place with
  | nil => simp at h
  | cons first edits ih =>
    rw [List.findIdx?_cons] at h
    by_cases hfirst : first.address = edit.address
    · obtain rfl : 0 = place := by simpa [hfirst] using h
      simp [put, findEdit_cons, hfirst]
    · obtain ⟨place, hplace, rfl⟩ : ∃ i,
          (edits.findIdx? fun old => old.address = edit.address) = some i ∧ i + 1 = place := by
        simpa [hfirst] using h
      simp [put, findEdit_cons, hfirst, ih hplace]

/-- Recording gives back the edit that was found for the element before. -/
theorem exchange_eq (b : EditBuffer) (edit : PendingEdit) :
    b.exchange edit = (b.record edit, b.get? edit.address) := by
  unfold exchange
  split
  · next place hplace =>
    obtain ⟨hset, hfound⟩ := set_of_findIdx? hplace
    rw [hset, hfound]
    rfl
  · next hnone =>
    have hfind : findEdit edit.address b.pending = none := by
      simpa [findEdit, List.findIdx?_eq_none_iff] using hnone
    rw [record, put_of_findEdit_none hfind, get?, hfind]

/-! ## Putting back -/

/-- Edits without the one of an element. -/
theorem map_address_eraseP {edits : List PendingEdit} (h : Distinct edits) (address : Address) :
    (edits.eraseP fun e => e.address = address).map PendingEdit.address
      = (edits.map PendingEdit.address).filter (· ≠ address) := by
  have herase := h.erase_eq_filter address
  rw [List.erase_eq_eraseP', List.eraseP_map] at herase
  simpa [Function.comp_def, beq_eq_decide, bne] using herase

/-- An edit whose element has one that is kept is not put back. -/
theorem merge_cons_of_mem {edit : PendingEdit} {kept : List PendingEdit}
    (h : edit.address ∈ kept.map PendingEdit.address) (restored newer : List PendingEdit) :
    merge (edit :: restored) newer kept = merge restored newer kept := by
  rw [merge, if_pos (isSome_findEdit_iff.2 h)]

/-- Of any other element one edit is kept: the newer one if there is one, and else the one that is
put back. -/
theorem exists_merge_cons {edit : PendingEdit} {kept : List PendingEdit}
    (h : edit.address ∉ kept.map PendingEdit.address) (restored newer : List PendingEdit) :
    ∃ now, findEdit edit.address (newer ++ [edit]) = some now ∧
      merge (edit :: restored) newer kept
        = merge restored (newer.eraseP fun e => e.address = edit.address) (kept ++ [now]) := by
  rw [merge, if_neg fun hkept => h (isSome_findEdit_iff.1 hkept), findEdit_append]
  cases hnewer : findEdit edit.address newer with
  | some recent => exact ⟨recent, by simp, rfl⟩
  | none =>
    have herase : newer.eraseP (fun e => e.address = edit.address) = newer := by
      refine List.eraseP_of_forall_not fun e he hsame => ?_
      exact findEdit_eq_none_iff.1 hnewer (List.mem_map.2 ⟨e, he, by simpa using hsame⟩)
    exact ⟨edit, by simp [findEdit_cons], by rw [herase]⟩

/-- Keeping an edit of another element instead of the newer one leaves one edit for each element. -/
theorem Distinct.keep {now : PendingEdit} {kept newer : List PendingEdit}
    (h : Distinct (kept ++ newer)) (hnow : now.address ∉ kept.map PendingEdit.address) :
    Distinct (kept ++ [now] ++ newer.eraseP fun e => e.address = now.address) := by
  rw [Distinct, List.map_append] at h
  obtain ⟨hkept, hnewer, hapart⟩ := List.nodup_append.1 h
  rw [Distinct, List.map_append, List.map_append, map_address_eraseP hnewer]
  have hnow : (kept.map PendingEdit.address ++ [now].map PendingEdit.address).Nodup :=
    List.nodup_append.2 ⟨hkept, List.nodup_singleton _, by grind⟩
  -- Of the newer edits, the only one that could have been of the same element is left out.
  refine List.nodup_append.2 ⟨hnow, hnewer.filter _, ?_⟩
  grind

/-- Whatever is put back, one edit is kept for each element. -/
theorem distinct_merge (restored newer kept : List PendingEdit) (h : Distinct (kept ++ newer)) :
    Distinct (merge restored newer kept) := by
  induction restored generalizing newer kept with
  | nil => exact h
  | cons edit restored ih =>
    by_cases hkept : edit.address ∈ kept.map PendingEdit.address
    · rw [merge_cons_of_mem hkept]
      exact ih newer kept h
    · obtain ⟨now, hnow, hmerge⟩ := exists_merge_cons hkept restored newer
      have hsame := address_of_findEdit hnow
      rw [hmerge, ← hsame]
      exact ih _ _ (h.keep (hsame ▸ hkept))

/-- What is found behind edits that were put back: what was kept or recorded since, or else the first
of those put back. -/
theorem findEdit_merge (address : Address) (restored newer kept : List PendingEdit) :
    findEdit address (merge restored newer kept)
      = (findEdit address (kept ++ newer)).or (findEdit address restored) := by
  induction restored generalizing newer kept with
  | nil => simp [merge]
  | cons edit restored ih =>
    by_cases hkept : edit.address ∈ kept.map PendingEdit.address
    · rw [merge_cons_of_mem hkept, ih]
      by_cases haddress : edit.address = address
      · obtain ⟨first, hfirst⟩ := Option.isSome_iff_exists.1 (isSome_findEdit_iff.2 hkept)
        simp [findEdit_append, ← haddress, hfirst]
      · simp [findEdit_cons, haddress]
    · obtain ⟨now, hnow, hmerge⟩ := exists_merge_cons hkept restored newer
      have hsame := address_of_findEdit hnow
      have hnone := findEdit_eq_none_iff.2 hkept
      rw [hmerge, ih]
      by_cases haddress : edit.address = address
      · subst haddress
        rw [findEdit_append, findEdit_cons, if_pos rfl] at hnow
        simp [findEdit_append, findEdit_cons, hsame, hnone, hnow]
      · simp [findEdit_append, findEdit_cons, hsame, haddress, findEdit_eraseP (Ne.symm haddress)]

/-- The order behind edits that were put back: what was kept, then each element that was put back,
once, then what was recorded since. -/
theorem map_address_merge (restored newer kept : List PendingEdit) (h : Distinct (kept ++ newer)) :
    (merge restored newer kept).map PendingEdit.address
      = kept.map PendingEdit.address
        ++ ((restored.map PendingEdit.address).filter
              (· ∉ kept.map PendingEdit.address)).eraseDups
        ++ (newer.map PendingEdit.address).filter (· ∉ restored.map PendingEdit.address) := by
  induction restored generalizing newer kept with
  | nil => simp [merge]
  | cons edit restored ih =>
    by_cases hkept : edit.address ∈ kept.map PendingEdit.address
    · have hnew : edit.address ∉ newer.map PendingEdit.address := by
        rw [Distinct, List.map_append] at h
        exact List.disjoint_of_nodup_append h hkept
      rw [merge_cons_of_mem hkept, ih newer kept h, List.map_cons,
        List.filter_cons_of_neg (by simpa using hkept)]
      congr 1
      refine List.filter_congr fun address haddress => ?_
      have hne : address ≠ edit.address := fun heq => hnew (heq ▸ haddress)
      simp [hne]
    · obtain ⟨now, hnow, hmerge⟩ := exists_merge_cons hkept restored newer
      have hsame := address_of_findEdit hnow
      have hdistinct : Distinct newer := (List.nodup_append.1 (by simpa [Distinct] using h)).2.1
      rw [hmerge, ← hsame, ih _ _ (h.keep (hsame ▸ hkept)), hsame, map_address_eraseP hdistinct,
        List.map_cons, List.filter_cons_of_pos (by simpa using hkept), List.eraseDups_cons]
      simp [hsame, List.filter_filter, Bool.and_comm, beq_eq_decide]

/-- A list without repetition has nothing to leave out. -/
theorem eraseDups_of_nodup {addresses : List Address} (h : addresses.Nodup) :
    addresses.eraseDups = addresses := by
  induction addresses with
  | nil => rfl
  | cons address addresses ih =>
    obtain ⟨hnew, h⟩ := List.nodup_cons.1 h
    have hkeep : addresses.filter (fun other => !other == address) = addresses := by
      refine List.filter_eq_self.2 fun other hother => ?_
      have hne : other ≠ address := fun heq => hnew (heq ▸ hother)
      simpa using hne
    rw [List.eraseDups_cons, hkeep, ih h]

/-! ## Buffers -/

variable {b c : EditBuffer}

/-- Buffers are told by the order of the elements and by the edit of each of them. -/
theorem eq_of_get? (h : Distinct b.pending) (horder : b.addresses = c.addresses)
    (hget : ∀ address, b.get? address = c.get? address) : b = c :=
  congrArg EditBuffer.mk (eq_of_findEdit h horder hget)

/-- The order behind a record. -/
theorem addresses_record (b : EditBuffer) (edit : PendingEdit) :
    (b.record edit).addresses
      = if edit.address ∈ b.addresses then b.addresses else b.addresses ++ [edit.address] :=
  map_address_put edit b.pending

/-- The order behind a restore: each element that was put back, once, then those of the edits
recorded since. -/
theorem addresses_restore (h : Distinct b.pending) (restored : List PendingEdit) :
    (b.restore restored).addresses
      = (restored.map PendingEdit.address).eraseDups
        ++ b.addresses.filter (· ∉ restored.map PendingEdit.address) := by
  rw [restore, addresses, map_address_merge restored b.pending [] h]
  simp [addresses]

/-- An element that is edited twice by what is put back comes once, and one that waits moves to the
front. -/
example :
    let edit (tag text : Text) : PendingEdit := .text ⟨.of tag 0, text⟩
    let b : EditBuffer := ⟨[edit ['b'] ['1'], edit ['c'] ['2']]⟩
    (b.restore [edit ['a'] ['3'], edit ['c'] ['4'], edit ['a'] ['5']]).addresses
      = [.of ['a'] 0, .of ['c'] 0, .of ['b'] 0] := by decide

/-- What is found behind a restore: what was recorded since, or else the first that was put back. -/
theorem get?_restore (b : EditBuffer) (restored : List PendingEdit) (address : Address) :
    (b.restore restored).get? address = (b.get? address).or (findEdit address restored) :=
  findEdit_merge address restored b.pending []

/-- **Recording commutes with putting back.** -/
theorem restore_record (h : Distinct b.pending) (edit : PendingEdit) (restored : List PendingEdit) :
    (b.record edit).restore restored = (b.restore restored).record edit := by
  have hput : Distinct (b.record edit).pending := distinct_put edit h
  refine eq_of_get? (distinct_merge restored _ [] hput) ?_ ?_
  · rw [addresses_record, addresses_restore hput, addresses_restore h, addresses_record]
    generalize restored.map PendingEdit.address = back
    -- The element may wait already, may be among those put back, or be new.
    by_cases hold : edit.address ∈ b.addresses <;> by_cases hback : edit.address ∈ back <;>
      simp [hold, hback]
  · intro address
    rw [get?_record, get?_restore, get?_restore, get?_record]
    by_cases haddress : edit.address = address <;> simp [haddress]

/-- **Edits that are put back are as they were.** -/
theorem restore_empty {edits : List PendingEdit} (h : Distinct edits) :
    empty.restore edits = ⟨edits⟩ := by
  have hempty : Distinct empty.pending := distinct_nil
  refine eq_of_get? (distinct_merge edits [] [] hempty) ?_ ?_
  · rw [addresses_restore hempty, eraseDups_of_nodup h]
    simp [addresses]
  · intro address
    rw [get?_restore]
    simp [get?]

/-! ## Runs -/

/-- What can be done with the edits that wait. -/
inductive Operation where
  | record (edit : PendingEdit)
  | drain
  | restore (edits : List PendingEdit)
  | discard

/-- The buffer behind an operation. -/
def perform (b : EditBuffer) : Operation → EditBuffer
  | .record edit => (b.exchange edit).1
  | .drain => b.drain.1
  | .restore edits => b.restore edits
  | .discard => b.discard.1

/-- The buffer behind several operations. -/
def run (b : EditBuffer) (operations : List Operation) : EditBuffer := operations.foldl perform b

/-- An operation keeps one edit for each element. -/
theorem distinct_perform (h : Distinct b.pending) (operation : Operation) :
    Distinct (b.perform operation).pending := by
  cases operation with
  | record edit =>
    rw [perform, exchange_eq]
    exact distinct_put edit h
  | drain => exact distinct_nil
  | restore edits => exact distinct_merge edits b.pending [] h
  | discard => exact distinct_nil

/-- Operations keep one edit for each element. -/
theorem distinct_run (operations : List Operation) :
    ∀ b : EditBuffer, Distinct b.pending → Distinct (b.run operations).pending := by
  induction operations with
  | nil => intro b h; exact h
  | cons operation operations ih => intro b h; exact ih _ (distinct_perform h operation)

/-- Recording several edits commutes with putting back. -/
theorem restore_run_record (edits restored : List PendingEdit) :
    ∀ b : EditBuffer, Distinct b.pending →
      (b.run (edits.map .record)).restore restored
        = (b.restore restored).run (edits.map .record) := by
  induction edits with
  | nil => intro b _; rfl
  | cons edit edits ih =>
    intro b h
    show ((b.exchange edit).1.run _).restore restored = ((b.restore restored).exchange edit).1.run _
    rw [exchange_eq, exchange_eq]
    show ((b.record edit).run _).restore restored = ((b.restore restored).record edit).run _
    rw [ih (b.record edit) (distinct_put edit h), restore_record h]

/-- **Putting drained edits back is as if they had never been drained.** What was recorded in between
is then where it would be if it had been recorded into the full buffer. -/
theorem restore_drained_of_run (operations : List Operation) (edits : List PendingEdit) :
    let b := empty.run operations
    (b.drain.1.run (edits.map .record)).restore b.drain.2 = b.run (edits.map .record) ∧
      b.drain.1.restore b.drain.2 = b := by
  intro b
  have h : Distinct b.pending := distinct_run operations empty distinct_nil
  have hback : b.drain.1.restore b.drain.2 = b := restore_empty h
  have hempty : Distinct b.drain.1.pending := distinct_nil
  refine ⟨?_, hback⟩
  rw [restore_run_record edits b.drain.2 b.drain.1 hempty, hback]

/-- **The edits that wait are a map in the order of insertion.** Whatever was done with a buffer, no
two of its edits are of one element. An edit that is recorded takes the place of the one that is
found for its element, which is given back, or else goes behind all others. Behind edits that are put
back their elements come first, each where it is first met, and then the others in their order; each
keeps the edit that waited for it, or else gets the first one that was put back. -/
theorem ordered_of_run (operations : List Operation) :
    let b := empty.run operations
    Distinct b.pending ∧
      (∀ edit : PendingEdit,
        (b.exchange edit).2 = b.get? edit.address ∧
          (b.get? edit.address = none → (b.exchange edit).1.pending = b.pending ++ [edit]) ∧
          ∀ old, b.get? edit.address = some old → ∃ before after,
            b.pending = before ++ old :: after ∧
              (b.exchange edit).1.pending = before ++ edit :: after) ∧
      ∀ restored : List PendingEdit,
        (b.restore restored).addresses
            = (restored.map PendingEdit.address).eraseDups
              ++ b.addresses.filter (· ∉ restored.map PendingEdit.address) ∧
          ∀ address, (b.restore restored).get? address
            = (b.get? address).or (findEdit address restored) := by
  intro b
  have h : Distinct b.pending := distinct_run operations empty distinct_nil
  refine ⟨h, fun edit => ?_, fun restored => ⟨addresses_restore h restored, get?_restore b restored⟩⟩
  rw [exchange_eq]
  exact ⟨rfl, put_of_findEdit_none, fun old hold => exists_put_of_findEdit hold⟩

end EditBuffer

end Retouch
