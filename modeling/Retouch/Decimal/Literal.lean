import Retouch.Text.Basic

/-!
# Number literals

The parts of a number literal, its text, and what it is read as. A float is read as the digits of
the literal, as many as fit in 64 bits, times a power of ten. The product is rounded, so a long
literal may be read as a neighbour of the float nearest to it.
-/

namespace Retouch.Decimal

/-- A number literal: its sign, the digits before the point, the digits after it if there is a
point, and the exponent if there is one. -/
structure Literal where
  negative : Bool
  whole : List Nat
  fraction : Option (List Nat)
  exponent : Option Int
deriving DecidableEq, Repr

namespace Literal

/-- The literal of a whole number. -/
def ofNat (n : Nat) : Literal := ⟨false, (Nat.toDigits 10 n).map fun c => c.toNat - 48, none, none⟩

/-- Digits as characters. -/
def digitChars (digits : List Nat) : Text := digits.map Nat.digitChar

/-- The text of a literal. An exponent always has a sign unless it is negative and shows one. -/
def write (l : Literal) : Text :=
  (if l.negative then ['-'] else []) ++ digitChars l.whole
    ++ (match l.fraction with
      | none => []
      | some digits => '.' :: digitChars digits)
    ++ match l.exponent with
      | none => []
      | some e => 'e' :: (if 0 ≤ e then '+' else '-') :: Nat.toDigits 10 e.natAbs

/-- The literal as a whole number, if it has neither point nor exponent. Minus zero is none. -/
def toInt? (l : Literal) : Option Int :=
  match l.fraction, l.exponent with
  | none, none =>
    let n : Nat := l.whole.foldl (fun acc d => acc * 10 + d) 0
    if l.negative then (if n = 0 then none else some (-(n : Int))) else some (n : Int)
  | _, _ => none

/-- The literal as a number from 0 to `limit`. -/
def toNat? (l : Literal) (limit : Nat) : Option Nat :=
  match l.toInt? with
  | some (.ofNat n) => if n ≤ limit then some n else none
  | _ => none

/-- The number that `acc` and the digits after it make while it stays below `2 ^ 64`, and how many
digits are left. -/
def significand : (acc : Nat) → List Nat → Nat × Nat
  | acc, [] => (acc, 0)
  | acc, d :: rest =>
    if acc * 10 + d < 2 ^ 64 then significand (acc * 10 + d) rest else (acc, rest.length + 1)

/-- A power of ten, as the float nearest to it. -/
def tenTo (n : Nat) : Float := Float.ofScientific 1 false n

/-- `x * 10 ^ exponent` for an exponent from -308 to 308: one rounding for the power and one for
the product or quotient. Infinity is out of range. -/
def scaleOnce (x : Float) (exponent : Int) : Option Float :=
  if 0 ≤ exponent then
    let y := x * tenTo exponent.toNat
    if y.isInf then none else some y
  else some (x / tenTo (-exponent).toNat)

/-- `x * 10 ^ exponent`, a smaller exponent being reached by steps of 308. After a few `steps`
nothing is left of any number. -/
def scale : (steps : Nat) → Float → Int → Option Float
  | 0, _, _ => some 0
  | steps + 1, x, exponent =>
    if x == 0 then some x
    else if exponent.natAbs ≤ 308 then scaleOnce x exponent
    else if 0 ≤ exponent then none
    else scale steps (x / tenTo 308) (exponent + 308)

/-- The float that the literal is read as; none if it is out of range. -/
def toFloat? (l : Literal) : Option Float :=
  let after := l.fraction.getD []
  let (whole, dropped) := significand 0 l.whole
  let (digits, unread) := significand whole after
  let places : Int := (dropped : Int) - ((after.length - unread : Nat) : Int)
  (scale 5 (Float.ofNat digits) (places + l.exponent.getD 0)).map fun x =>
    if l.negative then -x else x

theorem toNat?_le {l : Literal} {limit n : Nat} (h : l.toNat? limit = some n) : n ≤ limit := by
  unfold toNat? at h
  split at h
  · split at h
    · cases h; assumption
    · simp at h
  · simp at h

end Literal

end Retouch.Decimal
