import TemplateBinding.Number.Binary
import TemplateBinding.Number.Shortest

set_option autoImplicit false

namespace TemplateBinding.Number

/-- The choices left open by "the shortest digits that read back". -/
structure Layout where
  /-- Which of two equally near digit strings is taken. -/
  tie : Tie
  /-- The places of the point, counted from the first digit, that are written without an
  exponent; all of them when there are no bounds. -/
  bounds : Option (Int × Int)
  /-- What marks a whole number as a float. -/
  wholeMark : List Char

def Layout.plain : Layout := ⟨.away, none, []⟩

/-- JSON keeps floats apart from whole numbers, and writes from `0.00001` up to below
`10 ^ 16` without an exponent. -/
def Layout.json : Layout := ⟨.even, some (-4, 16), ['.', '0']⟩

def Layout.magnitude (layout : Layout) (m : Nat) (e : Int) : List Char :=
  let d := shortest layout.tie m e
  let ds := digits d.digits
  let point := ds.length + d.exponent
  let inBounds := match layout.bounds with
    | none => true
    | some (low, high) => low ≤ point && point ≤ high
  if inBounds then
    positional d.digits d.exponent ++ (if 0 ≤ d.exponent then layout.wholeMark else [])
  else
    let x := point - 1
    ds.take 1 ++ (if ds.length = 1 then [] else '.' :: ds.drop 1) ++
      'e' :: (if x < 0 then '-' else '+') :: digits x.natAbs

def signed (negative : Bool) (cs : List Char) : List Char := if negative then '-' :: cs else cs

def Layout.finite (layout : Layout) (v : View) : List Char :=
  match v with
  | .finite s m e _ => signed (Sign.isNegative s) (layout.magnitude m e)
  | .zero s => signed (Sign.isNegative s) ('0' :: layout.wholeMark)
  | .infinity s => signed (Sign.isNegative s) ['i', 'n', 'f']
  | .notANumber => ['N', 'a', 'N']

def plain (x : Float) : List Char := Layout.plain.finite (view x)

def json (x : Float) : List Char := Layout.json.finite (view x)

/-- A finite float with exactly `places` decimals, half-way values going to the even neighbour;
zero keeps its sign. -/
def fixed (places : Nat) (x : Float) : List Char :=
  match view x with
  | .finite s m e _ =>
    let k := roundDiv (m * 10 ^ places * 2 ^ e.toNat) (2 ^ (-e).toNat) .even
    signed (Sign.isNegative s) (withPoint k places)
  | .zero s => signed (Sign.isNegative s) (withPoint 0 places)
  | _ => plain x

def infinityWord : List Char := ['I', 'n', 'f', 'i', 'n', 'i', 't', 'y']

/-- The text of a number value: whole numbers below `10 ^ 21` digit by digit, zero without a
sign, and otherwise the shortest digits. -/
def text (x : Float) : List Char :=
  match view x with
  | .notANumber => ['N', 'a', 'N']
  | .infinity s => signed (Sign.isNegative s) infinityWord
  | .zero _ => ['0']
  | .finite s m e _ =>
    if m % 2 ^ (-e).toNat = 0 ∧ wholePart m e < 10 ^ 21 then
      signed (Sign.isNegative s) (digits (wholePart m e))
    else plain x

def whole (n : Int) : List Char := signed (n < 0) (digits n.natAbs)

end TemplateBinding.Number
