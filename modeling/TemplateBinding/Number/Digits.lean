import TemplateBinding.Number.Power

set_option autoImplicit false

namespace TemplateBinding.Number

def digits (n : Nat) : List Char := Nat.toDigits 10 n

def digitCount (n : Nat) : Nat :=
  if n = 0 then 0 else digitCount (n / 10) + 1
termination_by n
decreasing_by omega

theorem lt_pow_digitCount (n : Nat) : n < 10 ^ digitCount n := by
  fun_induction digitCount n with
  | case1 => simp
  | case2 n h ih => rw [Nat.pow_succ]; omega

theorem pow_le_of_digitCount {n : Nat} (h : n ≠ 0) : 10 ^ (digitCount n - 1) ≤ n := by
  fun_induction digitCount n with
  | case1 => simp at h
  | case2 n h' ih =>
    by_cases hz : n / 10 = 0
    · rw [hz, digitCount]; simp; omega
    · have := ih hz
      have hc : 0 < digitCount (n / 10) := by rw [digitCount]; simp [hz]
      rw [Nat.add_sub_cancel, show digitCount (n / 10) = digitCount (n / 10) - 1 + 1 by omega,
        Nat.pow_succ]
      omega

/-- The exponent `e` with `10 ^ e ≤ a / b < 10 ^ (e + 1)`, for positive `a` and `b`. -/
def decimalExponent (a b : Nat) : Int :=
  if b ≤ a then (digitCount (a / b) : Int) - 1 else -(digitCount ((b - 1) / a) : Int)

def appendDigit (n : Nat) (c : Char) : Nat := 10 * n + (c.toNat - '0'.toNat)

theorem le_foldl_appendDigit (cs : List Char) (n : Nat) : n ≤ cs.foldl appendDigit n := by
  induction cs generalizing n with
  | nil => exact Nat.le_refl n
  | cons c cs ih => exact Nat.le_trans (by unfold appendDigit; omega) (ih (appendDigit n c))

theorem foldl_appendDigit (cs : List Char) (n : Nat) :
    cs.foldl appendDigit n = n * 10 ^ cs.length + cs.foldl appendDigit 0 := by
  induction cs generalizing n with
  | nil => simp
  | cons c cs ih =>
    rw [List.foldl_cons, List.foldl_cons, ih (appendDigit n c), ih (appendDigit 0 c),
      List.length_cons, Nat.pow_succ]
    simp only [appendDigit]
    grind

def digitsByHalves : Nat → List Char → Nat
  | 0, cs => cs.foldl appendDigit 0
  | depth + 1, cs =>
    let half := cs.length / 2
    digitsByHalves depth (cs.take half) * 10 ^ (cs.length - half) +
      digitsByHalves depth (cs.drop half)

theorem digitsByHalves_eq_foldl (depth : Nat) (cs : List Char) :
    digitsByHalves depth cs = cs.foldl appendDigit 0 := by
  induction depth generalizing cs with
  | zero => rfl
  | succ depth ih =>
    rw [digitsByHalves, ih, ih, ← List.length_drop, ← foldl_appendDigit, ← List.foldl_append,
      List.take_append_drop]

/-- The number that decimal digits write. Many digits are read by halves: that takes a few
great products instead of one for each digit. -/
def digitsValue (cs : List Char) : Nat := digitsByHalves (cs.length / 64).log2 cs

theorem digitsValue_eq_foldl (cs : List Char) : digitsValue cs = cs.foldl appendDigit 0 :=
  digitsByHalves_eq_foldl _ cs

def digitsValueUpTo (bound : Nat) (cs : List Char) : Nat :=
  cs.foldl (fun n c => if n < bound then appendDigit n c else n) 0

theorem digitsValueUpTo_eq_digitsValue {bound : Nat} {cs : List Char}
    (h : digitsValue cs < bound) : digitsValueUpTo bound cs = digitsValue cs := by
  rw [digitsValue_eq_foldl] at h ⊢
  unfold digitsValueUpTo
  generalize 0 = n at h ⊢
  induction cs generalizing n with
  | nil => rfl
  | cons c cs ih =>
    rw [List.foldl_cons, if_pos (Nat.lt_of_le_of_lt (le_foldl_appendDigit (c :: cs) n) h)]
    exact ih _ h

/-- The digits of `n` with a point before the last `places` of them, and with zeros in front
where there are too few. -/
def withPoint (n places : Nat) : List Char :=
  let ds := List.replicate (places + 1 - (digits n).length) '0' ++ digits n
  ds.take (ds.length - places) ++
    (if places = 0 then [] else '.' :: ds.drop (ds.length - places))

def positional (n : Nat) (k : Int) : List Char :=
  if 0 ≤ k then digits n ++ List.replicate k.toNat '0' else withPoint n (-k).toNat

end TemplateBinding.Number
