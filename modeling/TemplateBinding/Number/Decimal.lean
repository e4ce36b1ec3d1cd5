import TemplateBinding.Number.Binary
import TemplateBinding.Number.Digits
import TemplateBinding.Number.Round
import TemplateBinding.Number.Word

set_option autoImplicit false

namespace TemplateBinding.Number

def Decimal.limit : Nat := 2 ^ 96

/-- The number `± mantissa / 10 ^ scale`. A zero may have a sign. -/
structure Decimal where
  negative : Bool
  mantissa : Nat
  scale : Nat
  mantissa_lt : mantissa < Decimal.limit
  scale_le : scale ≤ 28
  deriving DecidableEq, Repr

namespace Decimal

def ofNat (negative : Bool) (m : Nat) (h : m < limit) : Decimal := ⟨negative, m, 0, h, Nat.zero_le 28⟩

def zero (negative : Bool) : Decimal := ofNat negative 0 (Nat.two_pow_pos 96)

/-- Writes `m · 2 ^ -n` as `m' · 10 ^ e'`, one halving at a time: an odd `m` is multiplied by
five while there is room, and loses its last bit when there is none. -/
def halve : Nat → Nat → Int → Nat × Int
  | 0, m, e => (m, e)
  | n + 1, m, e =>
    if m % 2 = 0 then halve n (m / 2) (e + 1)
    else if 5 * m < limit then halve n (5 * m) e
    else halve n (m / 2) (e + 1)

theorem halve_lt {n m : Nat} {e : Int} (h : m < limit) : (halve n m e).1 < limit := by
  fun_induction halve n m e with
  | case1 => exact h
  | case2 n m e _ ih => exact ih (by omega)
  | case3 n m e _ hroom ih => exact ih hroom
  | case4 n m e _ _ ih => exact ih (by omega)

/-- Writes `m · 2 ^ n` as `m' · 10 ^ e'`, one doubling at a time, or as nothing. Instead of a
doubling for which there is no room a fifth is taken, and what remains of it is lost. -/
def double : Nat → Nat → Int → Option (Nat × Int)
  | 0, m, e => some (m, e)
  | n + 1, m, e =>
    if m < 2 ^ 95 then double n (2 * m) (e - 1)
    -- What is left is a factor of two or more, for which there is no room: an overflow.
    else if n + 1 < 2 * e then none
    else double n (m / 5) e

theorem double_lt {n m : Nat} {e : Int} {d : Nat × Int} (hm : m < limit)
    (h : double n m e = some d) : d.1 < limit := by
  fun_induction double n m e with
  | case1 m e =>
    obtain rfl := Option.some.inj h
    exact hm
  | case2 n m e hroom ih =>
    refine ih ?_ h
    unfold limit
    omega
  | case3 => cases h
  | case4 n m e _ _ ih => exact ih (Nat.lt_of_le_of_lt (Nat.div_le_self m 5) hm) h

def raise (negative : Bool) : Nat → (m : Nat) → m < limit → Option Decimal
  | 0, m, h => some (ofNat negative m h)
  | n + 1, m, _ => if h : 10 * m < limit then raise negative n (10 * m) h else none

/-- Drops so many digits, each with rounding, to reach 28 places; a number of which nothing is
left is zero. -/
def drop : Nat → Nat → Nat × Nat
  | 0, m => (m, 28)
  | n + 1, m =>
    if m / 10 = 0 then (0, 0) else drop n (m / 10 + (if 5 ≤ m % 10 then 1 else 0))

theorem drop_le (n m : Nat) : (drop n m).1 ≤ m ∧ (drop n m).2 ≤ 28 := by
  fun_induction drop n m with
  | case1 m => exact ⟨Nat.le_refl m, Nat.le_refl 28⟩
  | case2 n m => exact ⟨Nat.zero_le m, Nat.zero_le 28⟩
  | case3 n m hm ih =>
    refine ⟨Nat.le_trans ih.1 ?_, ih.2⟩
    split <;> omega

/-- The number `± m · 10 ^ e`, if it is within the limit, without what is behind the 28th place. -/
def ofTens (negative : Bool) (m : Nat) (e : Int) (h : m < limit) : Option Decimal :=
  if 0 ≤ e then raise negative e.natAbs m h
  else if hscale : e.natAbs ≤ 28 then some ⟨negative, m, e.natAbs, h, hscale⟩
  else
    let d := drop (e.natAbs - 28) m
    some ⟨negative, d.1, d.2, Nat.lt_of_le_of_lt (drop_le _ m).1 h, (drop_le _ m).2⟩

def ofTwos (negative : Bool) (m : Nat) (e : Int) (h : m < limit) : Option Decimal :=
  if e < 0 then
    let d := halve e.natAbs m e
    ofTens negative d.1 d.2 (halve_lt h)
  else (double e.natAbs m e).pbind fun d hd => ofTens negative d.1 d.2 (double_lt h hd)

theorem lt_limit_of_view {x : Float} {s : Number.Sign} {m : Nat} {e : Int} {hm : 0 < m}
    (h : view x = .finite s m e hm) : m < limit :=
  Nat.lt_trans (canonical_view h).mantissa_lt (by decide)

def ofFloatRetaining (x : Float) : Option Decimal :=
  match h : view x with
  | .notANumber | .infinity _ => none
  | .zero s => some (zero (Sign.isNegative s))
  | .finite s m e _ => ofTwos (Sign.isNegative s) m e (lt_limit_of_view h)

theorem ofFloatRetaining_of_zero {x : Float} {s : Number.Sign} (h : view x = .zero s) :
    ofFloatRetaining x = some (zero (Sign.isNegative s)) := by
  unfold ofFloatRetaining
  split <;> rename_i h' <;> cases h.symm.trans h'
  rfl

theorem ofFloatRetaining_of_finite {x : Float} {s : Number.Sign} {m : Nat} {e : Int} {hm : 0 < m}
    (h : view x = .finite s m e hm) :
    ofFloatRetaining x = ofTwos (Sign.isNegative s) m e (lt_limit_of_view h) := by
  unfold ofFloatRetaining
  split <;> rename_i h' <;> cases h.symm.trans h'
  rfl

def narrow : Nat → Nat → Nat × Nat
  | 0, m => (m, 0)
  | scale + 1, m =>
    if m < 2 ^ 52 then (m, scale + 1)
    else narrow scale (m / 10 + (if 5 ≤ m % 10 then 1 else 0))

theorem narrow_le (scale m : Nat) : (narrow scale m).1 ≤ m ∧ (narrow scale m).2 ≤ scale := by
  fun_induction narrow scale m with
  | case1 m => exact ⟨Nat.le_refl m, Nat.le_refl 0⟩
  | case2 scale m => exact ⟨Nat.le_refl m, Nat.le_refl _⟩
  | case3 scale m hm ih =>
    refine ⟨Nat.le_trans ih.1 ?_, Nat.le_succ_of_le ih.2⟩
    split <;> omega

def strip : Nat → Nat → Nat × Nat
  | 0, m => (m, 0)
  | scale + 1, m => if m % 10 = 0 then strip scale (m / 10) else (m, scale + 1)

theorem strip_le (scale m : Nat) : (strip scale m).1 ≤ m ∧ (strip scale m).2 ≤ scale := by
  fun_induction strip scale m with
  | case1 m => exact ⟨Nat.le_refl m, Nat.le_refl 0⟩
  | case2 scale m _ ih => exact ⟨Nat.le_trans ih.1 (Nat.div_le_self m 10), Nat.le_succ_of_le ih.2⟩
  | case3 scale m => exact ⟨Nat.le_refl m, Nat.le_refl _⟩

/-- The decimal with no more digits than a float has to tell. -/
def shorten (d : Decimal) : Decimal :=
  let a := narrow d.scale d.mantissa
  let b := strip a.2 a.1
  have ha := narrow_le d.scale d.mantissa
  have hb := strip_le a.2 a.1
  ⟨d.negative, b.1, b.2, Nat.lt_of_le_of_lt (Nat.le_trans hb.1 ha.1) d.mantissa_lt,
    Nat.le_trans (Nat.le_trans hb.2 ha.2) d.scale_le⟩

def ofFloat (x : Float) : Option Decimal := (ofFloatRetaining x).map shorten

/-- The number `± n / 10 ^ scale`, rounded half to even to the most places at which it fits, of
those up to the last argument. -/
def fit (negative : Bool) (n scale : Nat) : (places : Nat) → places ≤ 28 → Option Decimal
  | 0, _ =>
    let m := roundDiv n (10 ^ scale) .even
    if h : m < limit then some (ofNat (negative && m != 0) m h) else none
  | places + 1, hplaces =>
    let m := roundDiv n (10 ^ (scale - (places + 1))) .even
    if h : m < limit then some ⟨negative && m != 0, m, places + 1, h, hplaces⟩
    else fit negative n scale places (Nat.le_of_succ_le hplaces)

def numerator (d : Decimal) (scale : Nat) : Int :=
  let n : Int := d.mantissa * 10 ^ (scale - d.scale)
  if d.negative then -n else n

def neg (d : Decimal) : Decimal := { d with negative := !d.negative }

def add (a b : Decimal) : Option Decimal :=
  if b.mantissa = 0 ∧ a.mantissa ≠ 0 then some a
  else if a.mantissa = 0 then some b
  else
    let scale := max a.scale b.scale
    let n := a.numerator scale + b.numerator scale
    fit (n < 0) n.natAbs scale (min 28 scale) (Nat.min_le_left 28 scale)

def sub (a b : Decimal) : Option Decimal :=
  if b.mantissa = 0 then add a b else add a b.neg

def mul (a b : Decimal) : Option Decimal :=
  if a.mantissa = 0 ∨ b.mantissa = 0 then some (zero false)
  else
    let scale := a.scale + b.scale
    fit (a.negative != b.negative) (a.mantissa * b.mantissa) scale (min 28 scale)
      (Nat.min_le_left 28 scale)

theorem natAbs_numerator (d : Decimal) (scale : Nat) :
    (d.numerator scale).natAbs = d.mantissa * 10 ^ (scale - d.scale) := by
  have hn : (d.mantissa : Int) * 10 ^ (scale - d.scale) =
      (d.mantissa * 10 ^ (scale - d.scale) : Nat) := by push_cast; rfl
  unfold numerator
  dsimp only
  rw [hn]
  split <;> omega

theorem natAbs_numerator_self (d : Decimal) : (d.numerator d.scale).natAbs = d.mantissa := by
  rw [natAbs_numerator, Nat.sub_self, Nat.pow_zero, Nat.mul_one]

-- One of the numerators is a mantissa, and the remainder is not greater than either.
theorem rem_lt (a : Decimal) {b : Decimal} (hb : b.mantissa ≠ 0) :
    (a.numerator (max a.scale b.scale)).natAbs % (b.numerator (max a.scale b.scale)).natAbs <
      limit := by
  obtain h | h := Nat.le_total a.scale b.scale
  · rw [Nat.max_eq_right h, natAbs_numerator_self b]
    exact Nat.lt_trans (Nat.mod_lt _ (Nat.pos_of_ne_zero hb)) b.mantissa_lt
  · rw [Nat.max_eq_left h, natAbs_numerator_self a]
    exact Nat.lt_of_le_of_lt (Nat.mod_le _ _) a.mantissa_lt

def rem (a b : Decimal) : Option Decimal :=
  if hb : b.mantissa = 0 then none
  else if a.mantissa = 0 then some (zero false)
  else
    let scale := max a.scale b.scale
    let m := (a.numerator scale).natAbs % (b.numerator scale).natAbs
    some ⟨a.negative && m != 0, m, scale, a.rem_lt hb, Nat.max_le.2 ⟨a.scale_le, b.scale_le⟩⟩

/-- The largest exponent up to `p` for which `q · 10 ^ p` stays within the limit. -/
def room (q : Nat) : Nat → Nat
  | 0 => 0
  | p + 1 => if q * 10 ^ (p + 1) < limit then p + 1 else room q p

theorem room_le (q p : Nat) : room q p ≤ p := by
  induction p with
  | zero => simp [room]
  | succ p ih => rw [room]; split <;> omega

structure Quotient where
  digits : Nat
  scale : Int
  cut : Bool

def Quotient.shed (q : Quotient) (inexact : Bool) : Option Quotient :=
  if q.scale < 1 then none
  else
    let last := q.digits % 10
    let up := 5 < last || (last = 5 && (inexact || q.digits / 10 % 2 = 1))
    some { q with digits := q.digits / 10 + (if up then 1 else 0), scale := q.scale - 1 }

/-- How many digits are added in one step: those that are missing before the point, or, for a
remainder, those for which there is room. -/
def Quotient.step (q : Quotient) (remainder : Nat) : Nat :=
  if remainder = 0 then min 9 (-q.scale).toNat else room q.digits (min 9 (28 - q.scale).toNat)

theorem Quotient.step_le_nine (q : Quotient) (remainder : Nat) : q.step remainder ≤ 9 := by
  have := room_le q.digits (min 9 (28 - q.scale).toNat)
  unfold step
  split <;> omega

theorem Quotient.scale_add_step_le {q : Quotient} (hscale : q.scale ≤ 28) (remainder : Nat) :
    q.scale + q.step remainder ≤ 28 := by
  have := room_le q.digits (min 9 (28 - q.scale).toNat)
  unfold step
  split <;> omega

theorem Quotient.scale_lt_of_step_ne_zero {q : Quotient} {remainder : Nat}
    (h : q.step remainder ≠ 0) : q.scale < 28 := by
  have := room_le q.digits (min 9 (28 - q.scale).toNat)
  unfold step at h
  split at h <;> omega

def Quotient.extend (divisor : Nat) (q : Quotient) (remainder : Nat) : Option Quotient :=
  if remainder = 0 ∧ 0 ≤ q.scale then some q
  else
    let p := q.step remainder
    let cut := q.cut || remainder != 0
    if remainder ≠ 0 ∧ p < 9 ∧ p + q.scale < 0 then none
    else if p = 0 then
      let digits := roundDiv (q.digits * divisor + remainder) divisor .even
      if digits < limit then some ⟨digits, q.scale, cut⟩
      else Quotient.shed ⟨digits, q.scale, cut⟩ true
    else if limit ≤ q.digits * 10 ^ p then none
    else
      let next : Quotient :=
        ⟨q.digits * 10 ^ p + remainder * 10 ^ p / divisor, q.scale + p, cut⟩
      let rest := remainder * 10 ^ p % divisor
      if limit ≤ next.digits then next.shed (rest != 0)
      else Quotient.extend divisor next rest
termination_by (28 - q.scale).toNat
decreasing_by
  have hscale := Quotient.scale_lt_of_step_ne_zero ‹¬p = 0›
  dsimp only [p, next] at *
  omega

structure Quotient.Fits (q : Quotient) : Prop where
  digits_lt : q.digits < limit
  scale_le : q.scale ≤ 28

theorem Quotient.fits_of_shed {q q' : Quotient} {inexact : Bool} (hdigits : q.digits < 9 * limit)
    (hscale : q.scale ≤ 28) (h : q.shed inexact = some q') : q'.Fits := by
  unfold shed at h
  split at h
  · cases h
  · obtain rfl := Option.some.inj h
    refine ⟨?_, by dsimp only; omega⟩
    unfold limit at hdigits ⊢
    dsimp only
    split <;> omega

theorem Quotient.fits_of_extend {divisor remainder : Nat} {q q' : Quotient} (hq : q.Fits)
    (hlt : remainder < divisor) (h : q.extend divisor remainder = some q') : q'.Fits := by
  have hpos : 0 < divisor := Nat.zero_lt_of_lt hlt
  fun_induction Quotient.extend divisor q remainder with
  | case1 q remainder =>
    obtain rfl := Option.some.inj h
    exact hq
  | case2 => cases h
  | case3 q remainder _ p cut _ _ digits hdigits =>
    obtain rfl := Option.some.inj h
    exact ⟨hdigits, hq.scale_le⟩
  | case4 q remainder _ p cut _ _ digits =>
    have hquotient : (q.digits * divisor + remainder) / divisor = q.digits := by
      rw [Nat.mul_comm, Nat.mul_add_div hpos, Nat.div_eq_of_lt hlt, Nat.add_zero]
    have hdigits := roundDiv_le_succ (q.digits * divisor + remainder) divisor .even
    have hq' := hq.digits_lt
    refine fits_of_shed (q := ⟨digits, q.scale, cut⟩) ?_ hq.scale_le h
    dsimp only [digits]
    omega
  | case5 => cases h
  | case6 q remainder _ p cut _ _ hroom next rest =>
    refine fits_of_shed ?_ (scale_add_step_le hq.scale_le remainder) h
    have hadded : remainder * 10 ^ p / divisor < 10 ^ p :=
      Nat.div_lt_of_lt_mul (Nat.mul_lt_mul_of_pos_right hlt (Nat.pow_pos (by decide)))
    have hp : 10 ^ p ≤ 10 ^ 9 := Nat.pow_le_pow_right (by decide) (q.step_le_nine remainder)
    have hlimit : 10 ^ 9 < limit := by decide
    dsimp only [next]
    omega
  | case7 q remainder _ p cut _ _ hroom next rest hdigits ih =>
    exact ih ⟨Nat.lt_of_not_le hdigits, scale_add_step_le hq.scale_le remainder⟩ (Nat.mod_lt _ hpos) h

/-- Takes eight zeros off the end of a quotient, as long as its last 32 bits are zero too. -/
def stripEight (m scale : Nat) : Nat × Nat :=
  if 8 ≤ scale ∧ m % 2 ^ 32 = 0 ∧ m % 10 ^ 8 = 0 then stripEight (m / 10 ^ 8) (scale - 8)
  else (m, scale)
termination_by scale
decreasing_by omega

def stripZeros (k : Nat) (d : Nat × Nat) : Nat × Nat :=
  if k ≤ d.2 ∧ d.1 % 10 ^ k = 0 then (d.1 / 10 ^ k, d.2 - k) else d

theorem stripEight_le (m scale : Nat) :
    (stripEight m scale).1 ≤ m ∧ (stripEight m scale).2 ≤ scale := by
  fun_induction stripEight m scale with
  | case1 m scale h ih =>
    exact ⟨Nat.le_trans ih.1 (Nat.div_le_self m _), Nat.le_trans ih.2 (Nat.sub_le scale 8)⟩
  | case2 m scale => exact ⟨Nat.le_refl m, Nat.le_refl scale⟩

theorem stripZeros_le (k : Nat) (d : Nat × Nat) :
    (stripZeros k d).1 ≤ d.1 ∧ (stripZeros k d).2 ≤ d.2 := by
  unfold stripZeros
  split
  · exact ⟨Nat.div_le_self _ _, Nat.sub_le _ _⟩
  · exact ⟨Nat.le_refl _, Nat.le_refl _⟩

def Quotient.mantissa (q : Quotient) : Nat × Nat :=
  if q.cut then stripZeros 1 (stripZeros 2 (stripZeros 4 (stripEight q.digits q.scale.toNat)))
  else (q.digits, q.scale.toNat)

theorem Quotient.mantissa_le (q : Quotient) :
    q.mantissa.1 ≤ q.digits ∧ q.mantissa.2 ≤ q.scale.toNat := by
  unfold mantissa
  split
  · have h8 := stripEight_le q.digits q.scale.toNat
    have h4 := stripZeros_le 4 (stripEight q.digits q.scale.toNat)
    have h2 := stripZeros_le 2 (stripZeros 4 (stripEight q.digits q.scale.toNat))
    have h1 := stripZeros_le 1 (stripZeros 2 (stripZeros 4 (stripEight q.digits q.scale.toNat)))
    omega
  · exact ⟨Nat.le_refl _, Nat.le_refl _⟩

def Quotient.toDecimal (negative : Bool) (q : Quotient) (h : q.Fits) : Decimal where
  negative := negative && q.mantissa.1 != 0
  mantissa := q.mantissa.1
  scale := q.mantissa.2
  mantissa_lt := Nat.lt_of_le_of_lt q.mantissa_le.1 h.digits_lt
  scale_le := Nat.le_trans q.mantissa_le.2 (Int.toNat_le.2 h.scale_le)

def start (a b : Decimal) : Quotient := ⟨a.mantissa / b.mantissa, a.scale - b.scale, false⟩

theorem fits_start (a b : Decimal) : (start a b).Fits where
  digits_lt := Nat.lt_of_le_of_lt (Nat.div_le_self _ _) a.mantissa_lt
  scale_le := by
    have := a.scale_le
    dsimp only [start]
    omega

def div (a b : Decimal) : Option Decimal :=
  if hb : b.mantissa = 0 then none
  else if a.mantissa = 0 then some (zero false)
  else
    ((start a b).extend b.mantissa (a.mantissa % b.mantissa)).pmap
      (Quotient.toDecimal (a.negative != b.negative)) fun _ hq =>
        Quotient.fits_of_extend (fits_start a b) (Nat.mod_lt _ (Nat.pos_of_ne_zero hb)) hq

def isWhole (d : Decimal) : Bool := d.mantissa % 10 ^ d.scale = 0

def toWord? (d : Decimal) : Option Int64 :=
  let n : Int := (d.mantissa / 10 ^ d.scale : Nat)
  word? (if d.negative then -n else n)

def floatPower (start base : Float) (n : Nat) : Float :=
  if n = 0 then start
  else floatPower (if n % 2 = 1 then start * base else start) (base * base) (n / 2)
termination_by n
decreasing_by omega

/-- A float for the decimal: whole part and fraction are converted apart and added, and the sum
is rounded to the places of the decimal. -/
def toFloat (d : Decimal) : Float :=
  let whole := ofInt (d.mantissa / 10 ^ d.scale : Nat)
  let fraction := ofInt (d.mantissa % 10 ^ d.scale : Nat) / ofInt (10 ^ d.scale : Nat)
  let magnitude :=
    if fraction == 0 then whole
    else
      let power := floatPower 1 10 d.scale
      roundAway ((whole + fraction) * power) / power
  if d.negative && d.mantissa != 0 then -magnitude else magnitude

/-- The number rounded to at most so many places, ties away from zero; a zero that comes of
rounding has no sign. -/
def roundPlaces (d : Decimal) (places : Nat) : Decimal :=
  if h : d.scale ≤ places then d
  else
    let m := roundDiv d.mantissa (10 ^ (d.scale - places)) .away
    ⟨d.negative && (m != 0 || d.mantissa == 0), m, places,
      Nat.lt_of_le_of_lt (roundDiv_le_self _ _ (Nat.pow_pos (by decide))) d.mantissa_lt,
      Nat.le_trans (Nat.le_of_not_le h) d.scale_le⟩

def withPlaces (d : Decimal) (places : Nat) : List Char :=
  let cs := withPoint (d.mantissa * 10 ^ (places - d.scale)) places
  if d.negative then '-' :: cs else cs

end Decimal

end TemplateBinding.Number
