import Retouch.Edit.Basic

/-!
# Pending edits

The edits that wait for the next sync, in the order in which their elements were first edited. There
is one for each element at most: a later edit of the element takes the place of the earlier one.
-/

namespace Retouch

/-- The edits that wait. -/
structure EditBuffer where
  pending : List PendingEdit

namespace EditBuffer

/-- No edits. -/
def empty : EditBuffer := ⟨[]⟩

/-- Whether no edit waits. -/
def isEmpty (b : EditBuffer) : Bool := b.pending.isEmpty

/-- How many edits wait. -/
def size (b : EditBuffer) : Nat := b.pending.length

/-- The edited elements. -/
def addresses (b : EditBuffer) : List Address := b.pending.map PendingEdit.address

/-- The first of some edits that changes an element. -/
def findEdit (address : Address) (edits : List PendingEdit) : Option PendingEdit :=
  edits.find? fun edit => edit.address = address

/-- The edit of an element. -/
def get? (b : EditBuffer) (address : Address) : Option PendingEdit := findEdit address b.pending

/-- Edits with one more, in place of the first one of its element or behind all others. -/
def put (edit : PendingEdit) : List PendingEdit → List PendingEdit
  | [] => [edit]
  | old :: rest => if old.address = edit.address then edit :: rest else old :: put edit rest

/-- Record an edit. -/
def record (b : EditBuffer) (edit : PendingEdit) : EditBuffer := ⟨put edit b.pending⟩

/-- Record an edit. Gives the one that it takes the place of, if its element was edited before. -/
def exchange (b : EditBuffer) (edit : PendingEdit) : EditBuffer × Option PendingEdit :=
  match b.pending.findIdx? fun old => old.address = edit.address with
  | some place => (⟨b.pending.set place edit⟩, b.pending[place]?)
  | none => (⟨b.pending ++ [edit]⟩, none)

/-- Take the edits that wait. -/
def drain (b : EditBuffer) : EditBuffer × List PendingEdit := (empty, b.pending)

/-- Drop the edits that wait. Gives how many there were. -/
def discard (b : EditBuffer) : EditBuffer × Nat := (empty, b.size)

/-- Edits put back before newer ones. A newer edit of the same element takes the place of the one
that is put back, and of several of one element only the first is kept. -/
def merge : (restored newer kept : List PendingEdit) → List PendingEdit
  | [], newer, kept => kept ++ newer
  | edit :: restored, newer, kept =>
    if (findEdit edit.address kept).isSome then merge restored newer kept
    else
      match findEdit edit.address newer with
      | some recent =>
        merge restored (newer.eraseP fun e => e.address = edit.address) (kept ++ [recent])
      | none => merge restored newer (kept ++ [edit])

/-- Put edits back before those recorded since. -/
def restore (b : EditBuffer) (edits : List PendingEdit) : EditBuffer := ⟨merge edits b.pending []⟩

@[simp] theorem pending_empty : empty.pending = [] := rfl

/-- An edit is found where it was put, and no other edit is touched. -/
theorem findEdit_put (edit : PendingEdit) (address : Address) (edits : List PendingEdit) :
    findEdit address (put edit edits)
      = if edit.address = address then some edit else findEdit address edits := by
  induction edits with
  | nil => by_cases h : edit.address = address <;> simp [put, findEdit, h]
  | cons old rest ih =>
    by_cases hold : old.address = edit.address
    · by_cases h : edit.address = address <;> simp [put, findEdit, hold, h]
    · rw [put, if_neg hold]
      simp only [findEdit, List.find?_cons] at ih ⊢
      by_cases h : old.address = address
      · have hne : ¬ edit.address = address := fun he => hold (h.trans he.symm)
        simp [h, hne]
      · simp only [h, decide_false]
        exact ih

/-- An edit of a new element goes behind all others; any other edit leaves the order as it is. -/
theorem map_address_put (edit : PendingEdit) (edits : List PendingEdit) :
    (put edit edits).map PendingEdit.address
      = if edit.address ∈ edits.map PendingEdit.address then edits.map PendingEdit.address
        else edits.map PendingEdit.address ++ [edit.address] := by
  induction edits with
  | nil => simp [put]
  | cons old rest ih =>
    by_cases hold : old.address = edit.address
    · simp [put, hold]
    · have hne : ¬ edit.address = old.address := fun h => hold h.symm
      rw [put, if_neg hold, List.map_cons, List.map_cons, ih]
      by_cases hmem : edit.address ∈ rest.map PendingEdit.address
      · rw [if_pos hmem, if_pos (List.mem_cons_of_mem _ hmem)]
      · rw [if_neg hmem, if_neg (by simpa [hne] using hmem), List.cons_append]

/-- Recording an edit makes it the edit of its element and leaves the others as they are. -/
theorem get?_record (b : EditBuffer) (edit : PendingEdit) (address : Address) :
    (b.record edit).get? address = if edit.address = address then some edit else b.get? address :=
  findEdit_put edit address b.pending

end EditBuffer

end Retouch
