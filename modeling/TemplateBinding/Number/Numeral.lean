import TemplateBinding.Number.Binary
import TemplateBinding.Number.Digits

set_option autoImplicit false

namespace TemplateBinding.Number

/-- The exponent of a numeral: `e` or `E`, a sign or none, and digits. -/
structure Exponent where
  marker : Char
  sign : Option Char
  digits : List Char

structure Numeral where
  whole : List Char
  fraction : Option (List Char)
  exponent : Option Exponent

def Exponent.spelling (x : Exponent) : List Char := x.marker :: x.sign.toList ++ x.digits

def Numeral.spelling (n : Numeral) : List Char :=
  n.whole ++ (n.fraction.map ('.' :: ·)).getD [] ++ (n.exponent.map Exponent.spelling).getD []

def Exponent.signed (x : Exponent) (n : Nat) : Int := if x.sign = some '-' then -(n : Int) else n

def Exponent.value (x : Exponent) : Int := x.signed (digitsValue x.digits)

/-- The exponent as a float takes it: its digits are read no further than to `2 ^ 16`. Beyond that
only a numeral of very many digits is neither zero nor infinite. -/
def Exponent.floatValue (x : Exponent) : Int := x.signed (digitsValueUpTo (2 ^ 16) x.digits)

theorem Exponent.floatValue_eq_value {x : Exponent} (h : digitsValue x.digits < 2 ^ 16) :
    x.floatValue = x.value := by
  rw [floatValue, value, digitsValueUpTo_eq_digitsValue h]

def Numeral.isIntegral (n : Numeral) : Bool := n.fraction.isNone && n.exponent.isNone

def Numeral.value (n : Numeral) : Float :=
  let fraction := n.fraction.getD []
  ofDecimal (digitsValue (n.whole ++ fraction))
    ((n.exponent.map Exponent.floatValue).getD 0 - fraction.length)

def readSign : List Char → Option Char × List Char
  | '+' :: cs => (some '+', cs)
  | '-' :: cs => (some '-', cs)
  | cs => (none, cs)

theorem readSign_append (cs : List Char) : (readSign cs).1.toList ++ (readSign cs).2 = cs := by
  unfold readSign; split <;> rfl

def Exponent.read? : List Char → Option (Exponent × List Char)
  | [] => none
  | marker :: cs =>
    let (sign, rest) := readSign cs
    if (marker = 'e' ∨ marker = 'E') ∧ (rest.takeWhile Char.isDigit).isEmpty = false then
      some (⟨marker, sign, rest.takeWhile Char.isDigit⟩, rest.dropWhile Char.isDigit)
    else none

theorem Exponent.spelling_append_of_read? {cs rest : List Char} {x : Exponent}
    (h : Exponent.read? cs = some (x, rest)) : x.spelling ++ rest = cs := by
  cases cs with
  | nil => simp [Exponent.read?] at h
  | cons marker cs =>
    simp only [Exponent.read?] at h
    split at h
    · simp only [Option.some.injEq, Prod.mk.injEq] at h
      obtain ⟨rfl, rfl⟩ := h
      simpa [Exponent.spelling, List.takeWhile_append_dropWhile] using readSign_append cs
    · simp at h

def readFraction : List Char → Option (List Char) × List Char
  | '.' :: d :: cs =>
    if d.isDigit then (some ((d :: cs).takeWhile Char.isDigit), (d :: cs).dropWhile Char.isDigit)
    else (none, '.' :: d :: cs)
  | cs => (none, cs)

theorem readFraction_append (cs : List Char) :
    ((readFraction cs).1.map ('.' :: ·)).getD [] ++ (readFraction cs).2 = cs := by
  unfold readFraction
  split
  · split
    · simp only [Option.map_some, Option.getD_some, List.cons_append,
        List.takeWhile_append_dropWhile]
    · rfl
  · rfl

/-- The longest numeral at the start of a text. A point belongs to it only before a digit, an
exponent only when it is complete. -/
def Numeral.scan (cs : List Char) : Numeral × List Char :=
  let (fraction, rest) := readFraction (cs.dropWhile Char.isDigit)
  match Exponent.read? rest with
  | some (x, rest) => (⟨cs.takeWhile Char.isDigit, fraction, some x⟩, rest)
  | none => (⟨cs.takeWhile Char.isDigit, fraction, none⟩, rest)

@[simp] theorem Numeral.whole_scan (cs : List Char) :
    (scan cs).1.whole = cs.takeWhile Char.isDigit := by
  simp only [scan]; split <;> rfl

@[simp] theorem Numeral.fraction_scan (cs : List Char) :
    (scan cs).1.fraction = (readFraction (cs.dropWhile Char.isDigit)).1 := by
  simp only [scan]; split <;> rfl

theorem Numeral.spelling_append_scan (cs : List Char) :
    (Numeral.scan cs).1.spelling ++ (Numeral.scan cs).2 = cs := by
  have key : cs.takeWhile Char.isDigit ++
      (((readFraction (cs.dropWhile Char.isDigit)).1.map ('.' :: ·)).getD [] ++
        (readFraction (cs.dropWhile Char.isDigit)).2) = cs := by
    rw [readFraction_append, List.takeWhile_append_dropWhile]
  simp only [Numeral.scan]
  split
  · next x rest hx =>
    simp only [Numeral.spelling, Option.map_some, Option.getD_some, List.append_assoc,
      Exponent.spelling_append_of_read? hx]
    exact key
  · simpa [Numeral.spelling] using key

/-- Reads a numeral that is the whole text. Its point may stand first or last, but not alone. -/
def Numeral.read? (cs : List Char) : Option Numeral :=
  let whole := cs.takeWhile Char.isDigit
  let (fraction, rest) := match cs.dropWhile Char.isDigit with
    | '.' :: r => (some (r.takeWhile Char.isDigit), r.dropWhile Char.isDigit)
    | r => (none, r)
  if (whole ++ fraction.getD []).isEmpty then none
  else if rest.isEmpty then some ⟨whole, fraction, none⟩
  else match Exponent.read? rest with
    | some (x, []) => some ⟨whole, fraction, some x⟩
    | _ => none

def readFloat? (cs : List Char) : Option Float :=
  (Numeral.read? (readSign cs).2).map fun n =>
    if (readSign cs).1 = some '-' then -n.value else n.value

end TemplateBinding.Number
