import Retouch.Text.Basic

/-!
# Cursors

A place in a text: what is left of the text there, and the byte offset. `Cursor.Reaches` says that
one cursor stands behind some characters that begin at another; what is read from a text moves a
cursor only in this way.
-/

namespace Retouch.Script

open Text

/-- A place in a text. -/
structure Cursor where
  /-- The text from here on. -/
  rest : Text
  /-- The bytes before it. -/
  offset : Nat
deriving DecidableEq

namespace Cursor

/-- Whether `d` stands behind the characters `used`, which begin at `c`. -/
def Reaches (c : Cursor) (used : Text) (d : Cursor) : Prop :=
  c.rest = used ++ d.rest ∧ d.offset = c.offset + byteLength used

theorem Reaches.refl (c : Cursor) : c.Reaches [] c := ⟨rfl, by simp⟩

theorem Reaches.trans {c d e : Cursor} {s t : Text} (hs : c.Reaches s d) (ht : d.Reaches t e) :
    c.Reaches (s ++ t) e := by
  obtain ⟨hs1, hs2⟩ := hs
  obtain ⟨ht1, ht2⟩ := ht
  refine ⟨by rw [hs1, ht1, List.append_assoc], ?_⟩
  rw [ht2, hs2, byteLength_append]
  omega

/-- The cursor behind one character. -/
theorem Reaches.cons (a : Char) (t : Text) (offset : Nat) :
    Reaches ⟨a :: t, offset⟩ [a] ⟨t, offset + a.utf8Size⟩ := ⟨rfl, by simp⟩

/-- The characters with `p` from here on, and the cursor behind them. -/
def runFrom (p : Char → Bool) : Text → Nat → Text × Cursor
  | [], offset => ([], ⟨[], offset⟩)
  | c :: rest, offset =>
    if p c then
      let (run, behind) := runFrom p rest (offset + c.utf8Size)
      (c :: run, behind)
    else ([], ⟨c :: rest, offset⟩)

/-- The characters with `p` from a cursor on, and the cursor behind them. -/
def run (p : Char → Bool) (c : Cursor) : Text × Cursor := runFrom p c.rest c.offset

/-- The cursor behind `n` characters. -/
def skip : (n : Nat) → Cursor → Cursor
  | n + 1, ⟨c :: rest, offset⟩ => skip n ⟨rest, offset + c.utf8Size⟩
  | _, c => c

theorem reaches_runFrom (p : Char → Bool) (t : Text) (offset : Nat) :
    Reaches ⟨t, offset⟩ (runFrom p t offset).1 (runFrom p t offset).2 := by
  induction t generalizing offset with
  | nil => exact Reaches.refl _
  | cons c rest ih =>
    by_cases h : p c = true
    · simp only [runFrom, h, if_true]
      exact (Reaches.cons c rest offset).trans (ih _)
    · simp only [runFrom, h]
      exact Reaches.refl _

/-- A run moves the cursor over the characters it gives. -/
theorem reaches_run (p : Char → Bool) (c : Cursor) : c.Reaches (c.run p).1 (c.run p).2 :=
  reaches_runFrom p c.rest c.offset

/-- All characters of a run have `p`. -/
theorem all_run (p : Char → Bool) (c : Cursor) : ∀ a ∈ (c.run p).1, p a = true := by
  obtain ⟨t, offset⟩ := c
  induction t generalizing offset with
  | nil => simp [run, runFrom]
  | cons b rest ih =>
    by_cases h : p b = true
    · simp only [run, runFrom, h, if_true, List.mem_cons]
      rintro a (rfl | ha)
      · exact h
      · exact ih _ a ha
    · simp [run, runFrom, h]

theorem reaches_skip (n : Nat) (c : Cursor) : c.Reaches (c.rest.take n) (skip n c) := by
  obtain ⟨t, offset⟩ := c
  induction n generalizing t offset with
  | zero => simpa [skip] using Reaches.refl _
  | succ n ih =>
    cases t with
    | nil => simpa [skip] using Reaches.refl _
    | cons a rest => exact (Reaches.cons a rest offset).trans (ih rest _)

end Cursor

end Retouch.Script
