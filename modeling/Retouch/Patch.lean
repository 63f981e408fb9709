import Retouch.Text.Basic

/-!
# Patches

A patch replaces the bytes `[start, stop)` of a text. `Patch.applyAll` applies a list of patches
that do not overlap, given in any order; every byte outside them is copied. `Patch.follow` tells
where a byte offset of the old text is in the new one.
-/

namespace Retouch

open Text

/-- Replace the bytes from `start` up to `stop` by `text`. -/
structure Patch where
  start : Nat
  stop : Nat
  text : Text
deriving DecidableEq

/-- Why a list of patches cannot be applied. -/
inductive PatchError where
  /-- The range is backwards or ends behind the text, which has `length` bytes. -/
  | outOfBounds (start stop length : Nat)
  /-- The range begins or ends inside a character. -/
  | notCharBoundary (start stop : Nat)
  /-- The range begins before the end of the patch before it. -/
  | overlapping (start previousStop : Nat)
deriving DecidableEq

/-- The message shown to a user. -/
def PatchError.message : PatchError → String
  | .outOfBounds start stop length =>
    s!"Patch {start}..{stop} is outside the source ({length} bytes)"
  | .notCharBoundary start stop => s!"Patch {start}..{stop} splits a character"
  | .overlapping start previous => s!"Patch at {start} overlaps a previous patch ending at {previous}"

namespace Patch

/-- Insert `text` at the offset `at_`. -/
def insertion (at_ : Nat) (text : Text) : Patch := ⟨at_, at_, text⟩

/-- The order in which patches are applied: by where they start, then by where they end. -/
def before (p q : Patch) : Bool := p.start < q.start || (p.start == q.start && p.stop ≤ q.stop)

/-- Patches in the order in which they are applied. Those with one range keep their order. -/
def inOrder (patches : List Patch) : List Patch := patches.mergeSort before

/-- Apply patches that are in order to `rest`, the part of `source` from the offset `cursor` on. -/
def weave (source : Text) : (cursor : Nat) → (rest : Text) → List Patch → Except PatchError Text
  | _, rest, [] => .ok rest
  | cursor, rest, p :: patches =>
    if p.start > p.stop ∨ p.stop > byteLength source then
      .error (.outOfBounds p.start p.stop (byteLength source))
    else if !(isBoundary source p.start && isBoundary source p.stop) then
      .error (.notCharBoundary p.start p.stop)
    else if p.start < cursor then
      .error (.overlapping p.start cursor)
    else do
      let kept := (splitAt? rest (p.start - cursor)).getD ([], rest)
      let replaced := (splitAt? kept.2 (p.stop - p.start)).getD ([], kept.2)
      let woven ← weave source p.stop replaced.2 patches
      return kept.1 ++ p.text ++ woven

/-- Apply patches, given in any order, to a text. The error is that of the first patch in
`inOrder` that has one. -/
def applyAll (source : Text) (patches : List Patch) : Except PatchError Text :=
  weave source 0 source (inOrder patches)

/-- How many bytes longer the text becomes. -/
def growth (p : Patch) : Int := (byteLength p.text : Int) - ((p.stop : Int) - (p.start : Int))

/-- Add up the growth of the patches that end at or before `offset`; `none` if one of them
replaces the byte there. -/
def shiftAt (offset : Nat) : List Patch → Option Int
  | [] => some 0
  | p :: patches =>
    if p.start < p.stop ∧ p.start ≤ offset ∧ offset < p.stop then none
    else (shiftAt offset patches).map fun shift =>
      if p.stop ≤ offset then p.growth + shift else shift

/-- Offsets are the numbers below this: `2 ^ 64`. -/
def offsetLimit : Nat := 0x10000000000000000

/-- Where the byte at `offset` is after the patches have been applied, or `none` if it was
replaced. Offsets are 64-bit words: a sum that leaves their range wraps. -/
def follow (patches : List Patch) (offset : Nat) : Option Nat :=
  (shiftAt offset patches).map fun shift => (((offset : Int) + shift) % (offsetLimit : Nat)).toNat

end Patch

end Retouch
