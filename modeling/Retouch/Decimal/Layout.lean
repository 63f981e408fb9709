import Retouch.Decimal.Literal
import Retouch.Decimal.Shortest

/-!
# Number texts

A `Layout` says how a format writes numbers: which ones positionally and which with an exponent,
whether a whole number shows a point, and which way a tie goes. `Layout.literal?` gives the
literal of a finite float in it, with the fewest digits that read back.
-/

namespace Retouch.Decimal

/-- How a format writes numbers. -/
structure Layout where
  /-- The exponents of the first digit that are written positionally, if not all are. -/
  positional : Option (Int × Int)
  /-- Whether a whole number ends in a point and a zero. -/
  wholePoint : Bool
  /-- Whether a tie between two shortest decimals goes to the greater one. -/
  tieUp : Bool
deriving DecidableEq, Repr

namespace Layout

/-- The layout of numbers shown to users and put into style values: positional, however long. -/
def display : Layout := ⟨none, false, true⟩

/-- The layout of numbers in JSON: an exponent from `1e+16` on and below `0.00001`, and always a
point or an exponent. -/
def json : Layout := ⟨some (-5, 15), true, false⟩

/-- The digits of a number. -/
def digitsOf (n : Nat) : List Nat := (Nat.toDigits 10 n).map fun c => c.toNat - 48

/-- A decimal written out in full. -/
def positionalLiteral (layout : Layout) (negative : Bool) (d : Decimal) : Literal :=
  let digits := digitsOf d.digits
  let point := (digits.length : Int) + d.exponent
  if 0 ≤ d.exponent then
    ⟨negative, digits ++ List.replicate d.exponent.toNat 0,
      if layout.wholePoint then some [0] else none, none⟩
  else if 0 < point then
    ⟨negative, digits.take point.toNat, some (digits.drop point.toNat), none⟩
  else
    ⟨negative, [0], some (List.replicate (-point).toNat 0 ++ digits), none⟩

/-- A decimal written as its digits, with a point behind the first, and the exponent of that. -/
def scientificLiteral (negative : Bool) (d : Decimal) : Literal :=
  let digits := digitsOf d.digits
  ⟨negative, digits.take 1, if digits.length ≤ 1 then none else some (digits.drop 1),
    some ((digits.length : Int) + d.exponent - 1)⟩

/-- A decimal in the layout. -/
def ofDecimal (layout : Layout) (negative : Bool) (d : Decimal) : Literal :=
  match layout.positional with
  | none => layout.positionalLiteral negative d
  | some (least, greatest) =>
    let exponent := ((digitsOf d.digits).length : Int) + d.exponent - 1
    if d.digits == 0 || (least ≤ exponent && exponent ≤ greatest) then
      layout.positionalLiteral negative d
    else scientificLiteral negative d

/-- The literal of a float in the layout, if it is finite. -/
def literal? (layout : Layout) (x : Float) : Option Literal :=
  let (negative, _, exponent) := fields x
  if exponent == 2047 then none
  else some (layout.ofDecimal negative (shortest layout.tieUp x))

example : (display.ofDecimal false ⟨1, 21⟩).write = "1000000000000000000000".toList := by decide
example : (display.ofDecimal false ⟨1, -7⟩).write = "0.0000001".toList := by decide
example : (display.ofDecimal true ⟨0, 0⟩).write = "-0".toList := by decide
example : (json.ofDecimal false ⟨24, 0⟩).write = "24.0".toList := by decide
example : (json.ofDecimal false ⟨1, -5⟩).write = "0.00001".toList := by decide
example : (json.ofDecimal false ⟨1, 15⟩).write = "1000000000000000.0".toList := by decide
example : (json.ofDecimal false ⟨1, 16⟩).write = "1e+16".toList := by decide
example : (json.ofDecimal false ⟨15, 299⟩).write = "1.5e+300".toList := by decide
example : (json.ofDecimal false ⟨1, -6⟩).write = "1e-6".toList := by decide

end Layout

/-- A float as shown to users. -/
def displayFloat (x : Float) : Text :=
  match Layout.display.literal? x with
  | some literal => literal.write
  | none => (if x.isNaN then "NaN" else if x < 0 then "-inf" else "inf").toList

end Retouch.Decimal
