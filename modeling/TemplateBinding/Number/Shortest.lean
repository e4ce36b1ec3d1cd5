import TemplateBinding.Number.Digits
import TemplateBinding.Number.Round

set_option autoImplicit false

namespace TemplateBinding.Number

structure Scientific where
  digits : Nat
  exponent : Int
  deriving DecidableEq, Repr

def Scientific.normalize (d : Scientific) : Scientific :=
  if h : d.digits ≠ 0 ∧ d.digits % 10 = 0 then
    Scientific.normalize ⟨d.digits / 10, d.exponent + 1⟩
  else d
termination_by d.digits
decreasing_by omega

/-- The interval of reals that round to a float, and the float itself, in quarters of `2 ^ e`;
the ends belong to it when `closed`. -/
structure Interval where
  low : Nat
  value : Nat
  high : Nat
  e : Int
  closed : Bool

/-- The interval of `m · 2 ^ e`. The gap below a power of two is half of the gap above, but for
the least normal float. -/
def Interval.of (m : Nat) (e : Int) : Interval where
  low := 4 * m - (if m = 2 ^ 52 ∧ -1074 < e then 1 else 2)
  value := 4 * m
  high := 4 * m + 2
  e := e - 2
  closed := m % 2 = 0

/-- The decimal on the grid of step `10 ^ k` that is nearest to the float, if the grid has one
in the interval. A decimal half-way between two of the grid goes as `tie` says. -/
def Interval.onGrid? (i : Interval) (tie : Tie) (k : Int) : Option Nat :=
  let scale := 2 ^ i.e.toNat * 10 ^ (-k).toNat
  let step := 10 ^ k.toNat * 2 ^ (-i.e).toNat
  let holds (d : Nat) : Bool :=
    if i.closed then i.low * scale ≤ d * step && d * step ≤ i.high * scale
    else i.low * scale < d * step && d * step < i.high * scale
  let below := i.value * scale / step
  match holds below, holds (below + 1) with
  | true, true => some (roundDiv (i.value * scale) step tie)
  | true, false => some below
  | false, true => some (below + 1)
  | false, false => none

def Interval.firstGrid (i : Interval) (tie : Tie) : Nat → Int → Scientific
  | 0, k => ⟨i.value * 2 ^ i.e.toNat * 10 ^ (-k).toNat / (10 ^ k.toNat * 2 ^ (-i.e).toNat), k⟩
  | grids + 1, k =>
    match i.onGrid? tie k with
    | some d => ⟨d, k⟩
    | none => i.firstGrid tie grids (k - 1)

/-- The shortest decimal of the float `m · 2 ^ e`. Seventeen digits always suffice. -/
def shortest (tie : Tie) (m : Nat) (e : Int) : Scientific :=
  ((Interval.of m e).firstGrid tie 17
    (decimalExponent (m * 2 ^ e.toNat) (2 ^ (-e).toNat))).normalize

end TemplateBinding.Number
