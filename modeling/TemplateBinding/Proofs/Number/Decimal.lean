import TemplateBinding.Number.Decimal
import TemplateBinding.Proofs.Number.Rounding

set_option autoImplicit false

namespace TemplateBinding.Number.Decimal

/-- The decimal is the whole number `k`, without places. -/
structure Denotes (d : Decimal) (k : Int) : Prop where
  scale : d.scale = 0
  numerator : d.numerator 0 = k

def whole? (d : Decimal) : Option Int :=
  if d.isWhole then
    some (if d.negative then -((d.mantissa / 10 ^ d.scale : Nat) : Int)
      else (d.mantissa / 10 ^ d.scale : Nat))
  else none

variable {a b d : Decimal} {j k : Int}

theorem denotes_iff {negative : Bool} {n : Nat} {h : n < limit} :
    Denotes (ofNat negative n h) k ↔ (if negative then -(n : Int) else n) = k := by
  constructor
  · rintro ⟨-, h⟩
    simpa [ofNat, numerator] using h
  · intro h
    exact ⟨rfl, by simpa [ofNat, numerator] using h⟩

theorem denotes_zero (negative : Bool) : Denotes (zero negative) 0 := denotes_iff.2 (ite_self _)

theorem Denotes.signed (h : Denotes d k) :
    (if d.negative then -(d.mantissa : Int) else d.mantissa) = k := by
  simpa only [Decimal.numerator, h.scale, Nat.sub_self, pow_zero, mul_one] using h.numerator

theorem Denotes.mantissa_eq (h : Denotes d k) : d.mantissa = k.natAbs := by
  have := h.signed
  split at this <;> omega

theorem Denotes.whole?_eq (h : Denotes d k) : d.whole? = some k := by
  have hwhole : d.isWhole = true := by simp [isWhole, h.scale, Nat.mod_one]
  rw [whole?, if_pos hwhole, h.scale, Nat.pow_zero, Nat.div_one, h.signed]

theorem halve_add (k a n : Nat) (e : Int) : halve (a + n) (k * 2 ^ a) e = halve n k (e + a) := by
  induction a generalizing e with
  | zero => simp
  | succ a ih =>
    have hk : k * 2 ^ (a + 1) = 2 * (k * 2 ^ a) := by rw [Nat.pow_succ]; ring
    have heven : k * 2 ^ (a + 1) % 2 = 0 := by omega
    rw [show a + 1 + n = a + n + 1 by omega, halve, if_pos heven, hk,
      Nat.mul_div_cancel_left _ (by decide), ih]
    congr 1
    omega

theorem halve_mul (k n : Nat) (e : Int) : halve n (k * 2 ^ n) e = (k, e + n) :=
  halve_add k n 0 e

theorem double_of_lt {m n : Nat} {e : Int} (h : m * 2 ^ n < limit) :
    double n m e = some (m * 2 ^ n, e - n) := by
  unfold limit at h
  induction n generalizing m e with
  | zero => simp [double]
  | succ n ih =>
    have hm : m * 2 ^ (n + 1) = 2 * m * 2 ^ n := by rw [Nat.pow_succ]; ring
    have hle : 2 * m ≤ 2 * m * 2 ^ n := Nat.le_mul_of_pos_right _ (Nat.two_pow_pos n)
    rw [double, if_pos (by omega), ih (hm ▸ h), hm]
    congr 2
    omega

theorem ofFloat_of_retaining {x : Float} {negative : Bool} {n : Nat} {h : n < limit}
    (hx : ofFloatRetaining x = some (ofNat negative n h)) :
    ofFloat x = some (ofNat negative n h) := by
  rw [ofFloat, hx]
  rfl

theorem ofTens_zero (negative : Bool) {m : Nat} (h : m < limit) :
    ofTens negative m 0 h = some (ofNat negative m h) := rfl

/-- A float that is a whole number loses none of it on the way. -/
theorem ofFloatRetaining_eq {x : Float} {s : Number.Sign} {m n : Nat} {e : Int} {h : 0 < m}
    (hview : view x = .finite s m e h) (hn : Amounts m e n) (hlt : n < limit) :
    ofFloatRetaining x = some (ofNat (Sign.isNegative s) n hlt) := by
  unfold Amounts at hn
  rw [ofFloatRetaining_of_finite hview, ofTwos]
  by_cases he : e < 0
  · have hm : m = n * 2 ^ e.natAbs := by
      rwa [show e.toNat = 0 by omega, Nat.pow_zero, Nat.mul_one,
        show (-e).toNat = e.natAbs by omega] at hn
    have hhalve : halve e.natAbs m e = (n, 0) := by
      rw [hm, halve_mul, show e + e.natAbs = 0 by omega]
    simp only [if_pos he, hhalve, ofTens_zero]
  · have hm : m * 2 ^ e.natAbs = n := by
      rwa [show (-e).toNat = 0 by omega, Nat.pow_zero, Nat.mul_one,
        show e.toNat = e.natAbs by omega] at hn
    have hdouble : double e.natAbs m e = some (n, 0) := by
      rw [double_of_lt (hm ▸ hlt), hm, show e - e.natAbs = 0 by omega]
    rw [if_neg he]
    exact Option.pbind_eq_some_iff.2 ⟨_, hdouble, rfl⟩

theorem exists_ofFloat {x : Float} (hx : Holds x k) (hk : k.natAbs < limit) :
    ∃ d, ofFloat x = some d ∧ d.Denotes k := by
  unfold Holds at hx
  cases hview : view x with
  | zero s =>
    obtain rfl : k = 0 := by rwa [hview] at hx
    exact ⟨_, ofFloat_of_retaining (ofFloatRetaining_of_zero hview), denotes_zero _⟩
  | finite s m e hm =>
    rw [hview] at hx
    obtain ⟨n, rfl, hn⟩ := hx
    have hlt : n < limit := by
      cases s <;> simp only [Float.Model.UnpackedFloat.Sign.apply] at hk <;> omega
    refine ⟨_, ofFloat_of_retaining (ofFloatRetaining_eq hview hn hlt), denotes_iff.2 ?_⟩
    cases s <;> simp [Sign.isNegative, Float.Model.UnpackedFloat.Sign.apply]
  | _ =>
    rw [hview] at hx
    exact hx.elim

theorem exists_fit {negative : Bool} {n : Nat} (hk : (if negative then -(n : Int) else n) = k)
    (hn : n < limit) : ∃ d, fit negative n 0 0 (Nat.zero_le 28) = some d ∧ d.Denotes k := by
  have hround : roundDiv n (10 ^ 0) .even = n := roundDiv_one n .even
  refine ⟨ofNat (negative && n != 0) n hn, ?_, denotes_iff.2 ?_⟩
  · simp only [fit, hround]
    exact dif_pos hn
  · rw [← hk]
    by_cases hz : n = 0 <;> simp [hz]

theorem fit_eq_none {negative : Bool} {n : Nat} (hn : limit ≤ n) :
    fit negative n 0 0 (Nat.zero_le 28) = none := by
  have hround : roundDiv n (10 ^ 0) .even = n := roundDiv_one n .even
  simp only [fit, hround]
  exact dif_neg (Nat.not_lt_of_le hn)

theorem Denotes.add (ha : Denotes a j) (hb : Denotes b k) (h : (j + k).natAbs < limit) :
    ∃ d, a.add b = some d ∧ d.Denotes (j + k) := by
  have hj := ha.mantissa_eq
  have hk := hb.mantissa_eq
  unfold Decimal.add
  split
  · next hz => exact ⟨a, rfl, by rwa [show k = 0 by omega, Int.add_zero]⟩
  · split
    · next hz => exact ⟨b, rfl, by rwa [show j = 0 by omega, Int.zero_add]⟩
    · simp only [ha.scale, hb.scale, ha.numerator, hb.numerator, Nat.max_self, Nat.min_zero]
      refine exists_fit ?_ h
      by_cases hneg : j + k < 0
      · rw [if_pos (decide_eq_true hneg)]
        omega
      · rw [if_neg (mt of_decide_eq_true hneg)]
        omega

theorem Denotes.neg (hb : Denotes b k) : Denotes b.neg (-k) := by
  refine ⟨hb.scale, ?_⟩
  rw [← hb.signed]
  simp only [Decimal.numerator, Decimal.neg, hb.scale]
  cases b.negative <;> simp

theorem Denotes.sub (ha : Denotes a j) (hb : Denotes b k) (h : (j - k).natAbs < limit) :
    ∃ d, a.sub b = some d ∧ d.Denotes (j - k) := by
  unfold Decimal.sub
  split
  · next hz =>
    obtain rfl : k = 0 := by
      have := hb.mantissa_eq
      omega
    simpa using ha.add hb (by simpa using h)
  · simpa [Int.sub_eq_add_neg] using ha.add hb.neg (by rwa [← Int.sub_eq_add_neg])

theorem Denotes.mul_signed (ha : Denotes a j) (hb : Denotes b k) :
    (if a.negative != b.negative then -((a.mantissa * b.mantissa : Nat) : Int)
      else (a.mantissa * b.mantissa : Nat)) = j * k := by
  rw [← ha.signed, ← hb.signed]
  cases a.negative <;> cases b.negative <;> simp

theorem Denotes.mul (ha : Denotes a j) (hb : Denotes b k) (h : (j * k).natAbs < limit) :
    ∃ d, a.mul b = some d ∧ d.Denotes (j * k) := by
  have hj := ha.mantissa_eq
  have hk := hb.mantissa_eq
  unfold Decimal.mul
  split
  · next hz =>
    have hzero : j * k = 0 := by
      rw [Int.mul_eq_zero]
      omega
    exact ⟨_, rfl, hzero ▸ denotes_zero false⟩
  · simp only [ha.scale, hb.scale, Nat.add_zero, Nat.min_zero]
    refine exists_fit (ha.mul_signed hb) ?_
    rwa [hj, hk, ← Int.natAbs_mul]

theorem Denotes.mul_eq_none (ha : Denotes a j) (hb : Denotes b k) (h : limit ≤ (j * k).natAbs) :
    a.mul b = none := by
  have hj := ha.mantissa_eq
  have hk := hb.mantissa_eq
  have hne : ¬(a.mantissa = 0 ∨ b.mantissa = 0) := by
    rintro hz
    have hzero : j * k = 0 := by
      rw [Int.mul_eq_zero]
      omega
    rw [hzero] at h
    exact absurd h (by decide)
  rw [Decimal.mul, if_neg hne]
  simp only [ha.scale, hb.scale, Nat.add_zero, Nat.min_zero]
  apply fit_eq_none
  rwa [hj, hk, ← Int.natAbs_mul]

theorem Denotes.rem_eq_none (hb : Denotes b 0) : a.rem b = none := dif_pos hb.mantissa_eq

theorem Denotes.rem (ha : Denotes a j) (hb : Denotes b k) (hk : k ≠ 0) :
    ∃ d, a.rem b = some d ∧ d.Denotes (j.tmod k) := by
  have hj := ha.mantissa_eq
  have hk' := hb.mantissa_eq
  unfold Decimal.rem
  rw [dif_neg (by omega)]
  split
  · next hz =>
    obtain rfl : j = 0 := by omega
    exact ⟨_, rfl, by rw [Int.zero_tmod]; exact denotes_zero false⟩
  · simp only [ha.scale, hb.scale, ha.numerator, hb.numerator, Nat.max_self]
    refine ⟨_, rfl, denotes_iff.2 ?_⟩
    have hsigned := ha.signed
    have habs := Int.natAbs_tmod j k
    cases hneg : a.negative with
    | false =>
      have hnonneg : 0 ≤ j.tmod k := Int.tmod_nonneg k (by rw [← hsigned, hneg]; simp)
      simp only [Bool.false_and, Bool.false_eq_true, if_false]
      omega
    | true =>
      have hnonneg : 0 ≤ (-j).tmod k := Int.tmod_nonneg k (by rw [← hsigned, hneg]; simp)
      rw [Int.neg_tmod] at hnonneg
      by_cases hzero : j.natAbs % k.natAbs = 0
      · rw [if_neg (by simp [hzero])]
        omega
      · rw [if_pos (by simp [bne_iff_ne.2 hzero])]
        omega

/-- The quotient of `n` by `divisor`, as far as it goes, with what then remains. -/
structure Divides (n divisor : Nat) (q : Quotient) (remainder : Nat) : Prop where
  scale_nonneg : 0 ≤ q.scale
  scale_le : q.scale ≤ 28
  rest : n * 10 ^ q.scale.toNat = q.digits * divisor + remainder
  remainder_lt : remainder < divisor

/-- The quotient is exact, or it has so many places that the divisor is small against a unit of
the last one, of which it misses two at most. -/
structure Approximates (n divisor : Nat) (q : Quotient) : Prop where
  scale_nonneg : 0 ≤ q.scale
  near : q.digits * divisor = n * 10 ^ q.scale.toNat ∨
    2 * divisor < 10 ^ q.scale.toNat ∧ q.digits * divisor ≤ n * 10 ^ q.scale.toNat + 2 * divisor ∧
      n * 10 ^ q.scale.toNat ≤ q.digits * divisor + 2 * divisor

/-- A good approximation that is whole is exact: nothing else that is whole is as near. -/
theorem Approximates.mul_eq {n divisor w : Nat} {q : Quotient} (h : Approximates n divisor q)
    (hw : q.digits = w * 10 ^ q.scale.toNat) : w * divisor = n := by
  have hpos : 0 < 10 ^ q.scale.toNat := Nat.pow_pos (by decide)
  have hwd : q.digits * divisor = w * divisor * 10 ^ q.scale.toNat := by rw [hw]; ring
  obtain hexact | ⟨hsmall, hle, hge⟩ := h.near
  · exact Nat.eq_of_mul_eq_mul_right hpos (hwd ▸ hexact)
  · rw [hwd] at hle hge
    by_contra hne
    obtain hlt | hlt := Nat.lt_or_gt_of_ne hne
    · have := Nat.mul_le_mul_right (10 ^ q.scale.toNat) hlt
      rw [Nat.succ_mul] at this
      omega
    · have := Nat.mul_le_mul_right (10 ^ q.scale.toNat) hlt
      rw [Nat.succ_mul] at this
      omega

theorem room_eq_zero {q p : Nat} (hp : 0 < p) (h : room q p = 0) : limit ≤ q * 10 := by
  induction p with
  | zero => omega
  | succ p ih =>
    rw [room] at h
    split at h
    · omega
    · next hlimit =>
      obtain rfl | hp := Nat.eq_zero_or_pos p
      · simpa using hlimit
      · exact ih hp h

/-- A quotient that has outgrown the limit has many places. -/
theorem small_of_limit_le {n divisor digits places : Nat} (hn : n ≤ 2 ^ 64)
    (hlimit : limit ≤ digits * 10) (h : digits * divisor ≤ n * 10 ^ places + divisor) :
    20 * divisor < 10 ^ places := by
  unfold limit at hlimit
  have h1 : 2 ^ 96 * divisor ≤ digits * divisor * 10 := by
    calc 2 ^ 96 * divisor
      _ ≤ digits * 10 * divisor := Nat.mul_le_mul_right divisor hlimit
      _ = digits * divisor * 10 := by ring
  have h2 : n * 10 ^ places ≤ 2 ^ 64 * 10 ^ places := Nat.mul_le_mul_right _ hn
  have hpos : 0 < 10 ^ places := Nat.pow_pos (by decide)
  omega

theorem Quotient.shed_eq_some {q q' : Quotient} {inexact : Bool}
    (h : q.shed inexact = some q') :
    1 ≤ q.scale ∧ q'.scale = q.scale - 1 ∧ q'.digits * 10 ≤ q.digits + 10 ∧
      q.digits ≤ q'.digits * 10 + 10 := by
  unfold Quotient.shed at h
  split at h
  · cases h
  · obtain rfl := Option.some.inj h
    refine ⟨by omega, rfl, ?_, ?_⟩ <;> dsimp only <;> split <;> omega

theorem approximates_of_shed {n divisor : Nat} {q q' : Quotient} {inexact : Bool}
    (hn : n ≤ 2 ^ 64) (hlimit : limit ≤ q.digits)
    (hle : q.digits * divisor ≤ n * 10 ^ q.scale.toNat + divisor)
    (hge : n * 10 ^ q.scale.toNat ≤ q.digits * divisor + divisor)
    (h : q.shed inexact = some q') : Approximates n divisor q' := by
  obtain ⟨hscale, hscale', hdle, hdge⟩ := q.shed_eq_some h
  have hplaces : 10 ^ q.scale.toNat = 10 ^ q'.scale.toNat * 10 := by
    rw [← Nat.pow_succ]
    congr 1
    omega
  have hsmall : 20 * divisor < 10 ^ q.scale.toNat :=
    small_of_limit_le hn (Nat.le_trans hlimit (Nat.le_mul_of_pos_right _ (by decide))) hle
  have hdle' := Nat.mul_le_mul_right divisor hdle
  have hdge' := Nat.mul_le_mul_right divisor hdge
  rw [hplaces] at hle hge hsmall
  exact ⟨by omega, .inr ⟨by omega, by linarith, by linarith⟩⟩

theorem Divides.extend {n divisor remainder p : Nat} {q : Quotient}
    (h : Divides n divisor q remainder) (hp : q.scale + p ≤ 28) (cut : Bool) :
    Divides n divisor ⟨q.digits * 10 ^ p + remainder * 10 ^ p / divisor, q.scale + p, cut⟩
      (remainder * 10 ^ p % divisor) := by
  obtain ⟨hnonneg, hle, hrest, hlt⟩ := h
  refine ⟨?_, ?_, ?_, Nat.mod_lt _ (by omega)⟩
  · dsimp only
    omega
  · dsimp only
    omega
  · have hplaces : (q.scale + p).toNat = q.scale.toNat + p := by omega
    calc n * 10 ^ (q.scale + p).toNat
      _ = n * 10 ^ q.scale.toNat * 10 ^ p := by rw [hplaces, Nat.pow_add, Nat.mul_assoc]
      _ = q.digits * 10 ^ p * divisor + remainder * 10 ^ p := by rw [hrest]; ring
      _ = q.digits * 10 ^ p * divisor +
          (divisor * (remainder * 10 ^ p / divisor) + remainder * 10 ^ p % divisor) := by
        rw [Nat.div_add_mod]
      _ = (q.digits * 10 ^ p + remainder * 10 ^ p / divisor) * divisor +
          remainder * 10 ^ p % divisor := by ring

/-- Where no digit can be added the divisor is small: there are 28 places, or the digits are
nearly at the limit. -/
theorem Divides.small {n divisor remainder : Nat} {q : Quotient}
    (h : Divides n divisor q remainder) (hn : n ≤ 2 ^ 64) (hdivisor : divisor ≤ 2 ^ 53)
    (hremains : remainder ≠ 0) (hstep : q.step remainder = 0) :
    2 * divisor < 10 ^ q.scale.toNat := by
  obtain ⟨-, hle, hrest, hlt⟩ := h
  rw [Quotient.step, if_neg hremains] at hstep
  obtain hzero | hpos := Nat.eq_zero_or_pos (min 9 (28 - q.scale).toNat)
  · rw [show q.scale.toNat = 28 by omega]
    omega
  · have := small_of_limit_le hn (room_eq_zero hpos hstep) (Nat.le_add_right_of_le (by
      rw [hrest]
      exact Nat.le_add_right _ _))
    omega

theorem Divides.rounded {n divisor remainder d : Nat} {q : Quotient}
    (h : Divides n divisor q remainder)
    (hd : d = roundDiv (q.digits * divisor + remainder) divisor .even) :
    2 * (d * divisor) ≤ 2 * (n * 10 ^ q.scale.toNat) + divisor ∧
      2 * (n * 10 ^ q.scale.toNat) ≤ 2 * (d * divisor) + divisor := by
  have hpos : 0 < divisor := Nat.zero_lt_of_lt h.remainder_lt
  rw [h.rest, hd, Nat.mul_comm _ divisor]
  exact ⟨roundDiv_le _ _ _, le_roundDiv _ _ hpos⟩

theorem approximates_of_extend {n divisor : Nat} {q q' : Quotient} {remainder : Nat}
    (hn : n ≤ 2 ^ 64) (hdivisor : divisor ≤ 2 ^ 53) (h : Divides n divisor q remainder)
    (hq : q.extend divisor remainder = some q') : Approximates n divisor q' := by
  -- The steps keep `Divides`; each way out of them leads to an approximation. Once nothing remains
  -- the quotient is done, as it never has a negative scale here.
  have hremains {q : Quotient} {remainder : Nat} (h : Divides n divisor q remainder)
      (hmore : ¬(remainder = 0 ∧ 0 ≤ q.scale)) : remainder ≠ 0 :=
    fun hzero => hmore ⟨hzero, h.scale_nonneg⟩
  fun_induction Quotient.extend divisor q remainder with
  | case1 q remainder hdone =>
    obtain rfl := Option.some.inj hq
    have hrest := h.rest
    exact ⟨h.scale_nonneg, .inl (by omega)⟩
  | case2 => cases hq
  | case3 q remainder hmore p cut _ hp digits hdigits =>
    obtain rfl := Option.some.inj hq
    have hsmall := h.small hn hdivisor (hremains h hmore) hp
    have hrounded := h.rounded (d := digits) rfl
    exact ⟨h.scale_nonneg, .inr ⟨hsmall, by dsimp only; omega, by dsimp only; omega⟩⟩
  | case4 q remainder hmore p cut _ hp digits hdigits =>
    have hrounded := h.rounded (d := digits) rfl
    exact approximates_of_shed hn (Nat.le_of_not_lt hdigits) (by dsimp only; omega)
      (by dsimp only; omega) hq
  | case5 => cases hq
  | case6 q remainder hmore p cut _ _ _ next rest hdigits =>
    have hp := Quotient.scale_add_step_le h.scale_le remainder
    have hnext : Divides n divisor next rest := h.extend hp cut
    have hrest := hnext.rest
    have hlt := hnext.remainder_lt
    exact approximates_of_shed hn hdigits (by omega) (by omega) hq
  | case7 q remainder hmore p cut _ _ _ next rest _ ih =>
    have hp := Quotient.scale_add_step_le h.scale_le remainder
    exact ih (h.extend hp cut) hq

def Strips (d d' : Nat × Nat) : Prop := ∃ z, d.1 = d'.1 * 10 ^ z ∧ d.2 = d'.2 + z

theorem Strips.trans {d d' d'' : Nat × Nat} (h : Strips d d') (h' : Strips d' d'') :
    Strips d d'' := by
  obtain ⟨y, hm, hs⟩ := h
  obtain ⟨z, hm', hs'⟩ := h'
  refine ⟨z + y, ?_, by omega⟩
  rw [hm, hm', Nat.pow_add, Nat.mul_assoc]

theorem strips_stripZeros (k : Nat) (d : Nat × Nat) : Strips d (stripZeros k d) := by
  unfold stripZeros
  split
  · next h =>
    refine ⟨k, (Nat.div_mul_cancel (Nat.dvd_of_mod_eq_zero h.2)).symm, ?_⟩
    dsimp only
    omega
  · exact ⟨0, by simp, rfl⟩

theorem strips_stripEight (m scale : Nat) : Strips (m, scale) (stripEight m scale) := by
  fun_induction stripEight m scale with
  | case1 m scale h ih =>
    refine Strips.trans ⟨8, ?_, ?_⟩ ih
    · exact (Nat.div_mul_cancel (Nat.dvd_of_mod_eq_zero h.2.2)).symm
    · dsimp only
      omega
  | case2 => exact ⟨0, by simp, rfl⟩

theorem strips_mantissa (q : Quotient) : Strips (q.digits, q.scale.toNat) q.mantissa := by
  unfold Quotient.mantissa
  split
  · exact (strips_stripEight _ _).trans <| (strips_stripZeros 4 _).trans <|
      (strips_stripZeros 2 _).trans (strips_stripZeros 1 _)
  · exact ⟨0, by simp, rfl⟩

theorem Strips.whole_iff {d d' : Nat × Nat} (h : Strips d d') (w : Nat) :
    d.1 = w * 10 ^ d.2 ↔ d'.1 = w * 10 ^ d'.2 := by
  obtain ⟨z, hm, hs⟩ := h
  rw [hm, hs, Nat.pow_add, ← Nat.mul_assoc]
  exact Nat.mul_left_inj (Nat.pow_pos (by decide)).ne'

theorem whole?_eq_some_iff {negative : Bool} (hsign : d.negative = (negative && d.mantissa != 0))
    {z : Int} :
    d.whole? = some z ↔
      ∃ w : Nat, d.mantissa = w * 10 ^ d.scale ∧ (if negative then -(w : Int) else w) = z := by
  have hpos : 0 < 10 ^ d.scale := Nat.pow_pos (by decide)
  have hsame : ∀ w : Nat, d.mantissa = w * 10 ^ d.scale →
      (if d.negative then -(w : Int) else w) = if negative then -(w : Int) else w := by
    intro w hw
    rw [hsign]
    obtain rfl | hw0 := Nat.eq_zero_or_pos w
    · simp
    · rw [bne_iff_ne.2 (hw ▸ Nat.mul_pos hw0 hpos).ne', Bool.and_true]
  simp only [whole?, isWhole, decide_eq_true_iff]
  constructor
  · intro h
    split at h
    · next hdvd =>
      have hw := (Nat.div_mul_cancel (Nat.dvd_of_mod_eq_zero hdvd)).symm
      exact ⟨_, hw, by rw [← hsame _ hw]; exact Option.some.inj h⟩
    · cases h
  · rintro ⟨w, hw, rfl⟩
    rw [← hsame w hw, if_pos (by rw [hw, Nat.mul_mod_left]), show d.mantissa / 10 ^ d.scale = w by
      rw [hw, Nat.mul_div_cancel w hpos]]

theorem Denotes.div_eq_none (hb : Denotes b 0) : a.div b = none := dif_pos hb.mantissa_eq

theorem Denotes.quotient_signed (ha : Denotes a j) (hb : Denotes b k) {w : Nat}
    (hw : w * b.mantissa = a.mantissa) :
    (if a.negative != b.negative then -(w : Int) else w) * k = j := by
  have hw' : (w : Int) * b.mantissa = a.mantissa := by exact_mod_cast hw
  rw [← ha.signed, ← hb.signed, ← hw']
  cases a.negative <;> cases b.negative <;> simp

theorem Denotes.divides_start (ha : Denotes a j) (hb : Denotes b k) (hpos : 0 < b.mantissa) :
    Divides a.mantissa b.mantissa (start a b) (a.mantissa % b.mantissa) := by
  have hscale : (start a b).scale = 0 := by rw [start, ha.scale, hb.scale, Int.sub_self]
  refine ⟨hscale.ge, ?_, ?_, Nat.mod_lt _ hpos⟩
  · rw [hscale]
    exact Int.natCast_nonneg 28
  · rw [hscale, Int.toNat_zero, Nat.pow_zero, Nat.mul_one]
    exact (Nat.div_add_mod' _ _).symm

theorem div_eq_some_iff (ha : a.mantissa ≠ 0) (hb : b.mantissa ≠ 0) :
    a.div b = some d ↔ ∃ (q : Quotient) (h : q.Fits),
      (start a b).extend b.mantissa (a.mantissa % b.mantissa) = some q ∧
        d = q.toDecimal (a.negative != b.negative) h := by
  rw [Decimal.div, dif_neg hb, if_neg ha, Option.pmap_eq_some_iff]

/-- A quotient is whole just when the exact one is, and then it is that one. -/
theorem Denotes.div_whole?_iff (ha : Denotes a j) (hb : Denotes b k) (hj : j.natAbs ≤ 2 ^ 64)
    (hk : k.natAbs ≤ 2 ^ 53) (hk0 : k ≠ 0) (z : Int) :
    (a.div b).bind whole? = some z ↔ z * k = j := by
  have hmj := ha.mantissa_eq
  have hmk := hb.mantissa_eq
  have hb0 : b.mantissa ≠ 0 := by omega
  have hbpos : 0 < b.mantissa := Nat.pos_of_ne_zero hb0
  by_cases ha0 : a.mantissa = 0
  · obtain rfl : j = 0 := by omega
    have hdiv : a.div b = some (zero false) := by rw [Decimal.div, dif_neg hb0, if_pos ha0]
    rw [hdiv, Option.bind_some, (denotes_zero false).whole?_eq, Int.mul_eq_zero,
      Option.some.injEq]
    omega
  · rw [Option.bind_eq_some_iff]
    constructor
    · rintro ⟨d, hd, hz⟩
      obtain ⟨q, h, hq, rfl⟩ := (div_eq_some_iff ha0 hb0).1 hd
      obtain ⟨w, hw, rfl⟩ := (whole?_eq_some_iff rfl).1 hz
      have happrox : Approximates a.mantissa b.mantissa q :=
        approximates_of_extend (hmj ▸ hj) (hmk ▸ hk) (ha.divides_start hb hbpos) hq
      exact ha.quotient_signed hb (happrox.mul_eq (((strips_mantissa q).whole_iff w).2 hw))
    · intro hz
      have hmul : z.natAbs * b.mantissa = a.mantissa := by rw [hmj, hmk, ← Int.natAbs_mul, hz]
      have hscale : (start a b).scale = 0 := by rw [start, ha.scale, hb.scale, Int.sub_self]
      have hextend : (start a b).extend b.mantissa (a.mantissa % b.mantissa) =
          some (start a b) := by
        rw [← hmul, Nat.mul_mod_left, Quotient.extend, if_pos ⟨rfl, hscale.ge⟩]
      have hmantissa : (start a b).mantissa = (z.natAbs, 0) := by
        rw [Quotient.mantissa, hscale]
        simp [start, ← hmul, Nat.mul_div_cancel _ hbpos]
      have hsigned := ha.quotient_signed hb hmul
      refine ⟨_, (div_eq_some_iff ha0 hb0).2 ⟨_, fits_start a b, hextend, rfl⟩,
        (whole?_eq_some_iff rfl).2 ⟨z.natAbs, ?_, ?_⟩⟩
      · simp only [Quotient.toDecimal, hmantissa, Nat.pow_zero, Nat.mul_one]
      · exact Int.eq_of_mul_eq_mul_right hk0 (by rw [hsigned, hz])

end TemplateBinding.Number.Decimal
