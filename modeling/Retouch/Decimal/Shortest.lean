/-!
# The shortest decimal that reads back

A finite binary float stands for the reals that round to it. Among the decimals in that interval,
`shortest` picks one with the fewest digits, and of those the nearest to the float.
-/

namespace Retouch

/-- The number `digits * 10 ^ exponent`. -/
structure Decimal where
  digits : Nat
  exponent : Int
deriving DecidableEq, Repr

namespace Decimal

/-- The reals that round to one binary number, as fractions over `unit`: they lie between `low` and
`high`, around `value`, and the ends belong to them if `closed`. -/
structure Interval where
  low : Nat
  value : Nat
  high : Nat
  unit : Nat
  closed : Bool
deriving DecidableEq, Repr

/-- The interval of `m * 2 ^ q`. Below a power of two the neighbours are closer (`narrow`). -/
def Interval.around (m : Nat) (q : Int) (narrow : Bool) : Interval :=
  let scale := Nat.pow 2 (q - 2).toNat
  { low := (4 * m - if narrow then 1 else 2) * scale
    value := 4 * m * scale
    high := (4 * m + 2) * scale
    unit := Nat.pow 2 (2 - q).toNat
    closed := m % 2 == 0 }

/-- Whether the decimal `d * 10 ^ k` lies in the interval. -/
def Interval.holds (i : Interval) (d : Nat) (k : Int) : Bool :=
  let point := d * (i.unit * Nat.pow 10 k.toNat)
  let low := i.low * Nat.pow 10 (-k).toNat
  let high := i.high * Nat.pow 10 (-k).toNat
  if i.closed then low ≤ point && point ≤ high else low < point && point < high

/-- The multiple of `10 ^ k` in the interval that is nearest to its value, as a multiplier. At an
exact tie it is the greater one if `tieUp`, else the even one. -/
def Interval.gridPoint? (i : Interval) (tieUp : Bool) (k : Int) : Option Nat :=
  let step := i.unit * Nat.pow 10 k.toNat
  let value := i.value * Nat.pow 10 (-k).toNat
  let below := value / step
  match i.holds below k, i.holds (below + 1) k with
  | true, true =>
    let twice := 2 * value
    let middle := (2 * below + 1) * step
    if twice < middle then some below
    else if middle < twice then some (below + 1)
    else if tieUp || below % 2 == 1 then some (below + 1) else some below
  | true, false => some below
  | false, true => some (below + 1)
  | false, false => none

/-- The exponent of ten of the first digit of the interval's value. -/
def Interval.magnitude (i : Interval) : Int :=
  ((Nat.toDigits 10 (i.value * Nat.pow 10 400 / i.unit)).length : Int) - 401

/-- The same number without zeros at the end of its digits. At most `fuel` zeros are dropped. -/
def stripZeros : (fuel : Nat) → Decimal → Decimal
  | 0, d => d
  | fuel + 1, d =>
    if d.digits % 10 == 0 && d.digits != 0 then stripZeros fuel ⟨d.digits / 10, d.exponent + 1⟩ else d

/-- The decimal with the fewest digits, from `count` on and at most `fuel` more, in the
interval. -/
def Interval.shortestFrom (i : Interval) (tieUp : Bool) : (fuel count : Nat) → Decimal
  | 0, _ => ⟨i.value / i.unit, 0⟩
  | fuel + 1, count =>
    let k := i.magnitude - (count : Int) + 1
    match i.gridPoint? tieUp k with
    | some d => stripZeros 20 ⟨d, k⟩
    | none => i.shortestFrom tieUp fuel (count + 1)

/-- The parts of a float: whether it is negative, its fraction field and its exponent field. -/
def fields (x : Float) : Bool × Nat × Nat :=
  let bits := x.toBits.toNat
  (bits / Nat.pow 2 63 == 1, bits % Nat.pow 2 52, bits / Nat.pow 2 52 % 2048)

/-- The shortest decimal that reads back as the absolute value of a finite float. Seventeen digits
are always enough. -/
def shortest (tieUp : Bool) (x : Float) : Decimal :=
  let (_, fraction, exponent) := fields x
  if exponent == 0 && fraction == 0 then ⟨0, 0⟩
  else
    let i :=
      if exponent == 0 then Interval.around fraction (-1074) false
      else Interval.around (fraction + Nat.pow 2 52) ((exponent : Int) - 1075)
        (fraction == 0 && exponent > 1)
    i.shortestFrom tieUp 17 1

example : (Interval.around 1 (-1074) false).shortestFrom false 17 1 = ⟨5, -324⟩ := by decide +kernel
example : (Interval.around (Nat.pow 2 52) (-52) true).shortestFrom false 17 1 = ⟨1, 0⟩ := by decide +kernel

end Decimal

end Retouch
