import TemplateBinding.Proofs.Number.Decimal
import TemplateBinding.Proofs.Number.Nearest

set_option autoImplicit false

namespace TemplateBinding.Number.Decimal

variable {k m n : Nat} {e : Int}

def magnitude (d : Decimal) : ℚ := decimal d.mantissa (-d.scale)

def value (d : Decimal) : ℚ := if d.negative then -d.magnitude else d.magnitude

theorem value_eq {d : Decimal} {s : Number.Sign} (h : d.negative = Sign.isNegative s) :
    d.value = Sign.on s d.magnitude := by
  rw [value, h]
  cases s <;> rfl

def Fits (a : ℚ) : Prop := ∃ n places : Nat, n < limit ∧ places ≤ 28 ∧ a * 10 ^ places = n

/-- The decimal that is kept of a positive number: the number itself, if that is one, and else one
that is near. -/
structure Keeps (a b : ℚ) : Prop where
  exact : Fits a → b = a
  near : |b - a| ≤ 10 ^ (-28 : Int) + a / 2 ^ 83

theorem not_fits_of_limit_le {a : ℚ} (h : limit ≤ a) : ¬Fits a := by
  rintro ⟨n, places, hn, -, hfits⟩
  have hpow : (1 : ℚ) ≤ 10 ^ places := one_le_pow₀ (by norm_num)
  have hle : a ≤ n := hfits ▸ le_mul_of_one_le_right (le_trans (Nat.cast_nonneg _) h) hpow
  exact absurd (Nat.cast_le.1 (h.trans hle)) (Nat.not_le_of_lt hn)

/-- So many steps have led from the first number to the second one, and what a step has lost of its
number is such a part of it at most. -/
structure Loses (rate : ℚ) (steps : Nat) (w w' : ℚ) : Prop where
  le : w' ≤ w
  loss : w - w' ≤ steps * rate * w

variable {rate u v w w' : ℚ}

theorem Loses.refl (rate w : ℚ) : Loses rate 0 w w := ⟨le_refl w, by simp⟩

theorem Loses.step (hrate : 0 ≤ rate) (hle : v ≤ w) (hloss : w - v ≤ rate * w)
    (h : Loses rate n v w') : Loses rate (n + 1) w w' where
  le := h.le.trans hle
  loss := by
    have hrates : (0 : ℚ) ≤ n * rate := mul_nonneg (Nat.cast_nonneg n) hrate
    have hmono : n * rate * v ≤ n * rate * w := mul_le_mul_of_nonneg_left hle hrates
    calc w - w'
      _ = (w - v) + (v - w') := by ring
      _ ≤ rate * w + n * rate * w := add_le_add hloss (h.loss.trans hmono)
      _ = (n + 1 : Nat) * rate * w := by push_cast; ring

theorem Loses.keep (hrate : 0 ≤ rate) (hw : 0 ≤ w) (hsame : v = w) (h : Loses rate n v w') :
    Loses rate (n + 1) w w' :=
  h.step hrate hsame.le (by rw [hsame, sub_self]; exact mul_nonneg hrate hw)

theorem Loses.near (hw : 0 ≤ w) (h : Loses rate n w w') (hrate : n * rate ≤ u) :
    |w' - w| ≤ u * w := by
  rw [abs_sub_comm, abs_of_nonneg (sub_nonneg.2 h.le)]
  exact h.loss.trans (mul_le_mul_of_nonneg_right hrate hw)

def halvingRate : ℚ := 5 / 2 ^ 96

theorem halvingRate_nonneg : 0 ≤ halvingRate := by
  unfold halvingRate
  positivity

def doublingRate : ℚ := 4 / 2 ^ 95

theorem doublingRate_nonneg : 0 ≤ doublingRate := by
  unfold doublingRate
  positivity

/-- The number that is left to be halved so many times. -/
def halved (n m : Nat) (e : Int) : ℚ := decimal m (e + n) / 2 ^ n

theorem halved_nonneg (n m : Nat) (e : Int) : 0 ≤ halved n m e := by
  unfold halved decimal
  positivity

theorem halved_succ (n m : Nat) (e : Int) :
    halved (n + 1) m e = m * (5 * 10 ^ (e + n) / 2 ^ n) := by
  rw [halved, decimal, show e + (n + 1 : Nat) = e + n + 1 by push_cast; ring,
    zpow_add_one₀ (by norm_num), pow_succ]
  field_simp
  ring

theorem halved_half (n h : Nat) (e : Int) :
    halved n h (e + 1) = 2 * h * (5 * 10 ^ (e + n) / 2 ^ n) := by
  rw [halved, decimal, show e + 1 + (n : Int) = e + n + 1 by ring, zpow_add_one₀ (by norm_num)]
  ring

theorem halved_loss (hodd : m % 2 = 1) (hroom : limit ≤ 5 * m) :
    halved (n + 1) m e - halved n (m / 2) (e + 1) ≤ halvingRate * halved (n + 1) m e := by
  have hm : (m : ℚ) = 2 * (m / 2 : Nat) + 1 := by exact_mod_cast (show m = 2 * (m / 2) + 1 by omega)
  have hbound : (2 : ℚ) ^ 96 ≤ 5 * m := by exact_mod_cast hroom
  have hone : 1 ≤ halvingRate * m := by
    rw [halvingRate, div_mul_eq_mul_div, le_div_iff₀ (by positivity), one_mul]
    exact hbound
  have hunit : (0 : ℚ) ≤ 5 * 10 ^ (e + n) / 2 ^ n := by positivity
  rw [halved_succ, halved_half]
  generalize (5 : ℚ) * 10 ^ (e + n) / 2 ^ n = unit at hunit ⊢
  calc m * unit - 2 * (m / 2 : Nat) * unit
    _ = (m - 2 * (m / 2 : Nat)) * unit := by ring
    _ = 1 * unit := by rw [sub_eq_of_eq_add' hm]
    _ ≤ halvingRate * m * unit := mul_le_mul_of_nonneg_right hone hunit
    _ = halvingRate * (m * unit) := by ring

theorem loses_halve (n m : Nat) (e : Int) :
    Loses halvingRate n (halved n m e) (decimal (halve n m e).1 (halve n m e).2) ∧
      (halve n m e).2 ≤ e + n := by
  -- The value that is left to be halved stays the same, but where a bit is lost.
  induction n generalizing m e with
  | zero =>
    have hvalue : halved 0 m e = decimal m e := by simp [halved]
    rw [hvalue]
    exact ⟨.refl _ _, by simp [halve]⟩
  | succ n ih =>
    have hnonneg := halved_nonneg (n + 1) m e
    rw [halve]
    split
    · next heven =>
      obtain ⟨hloses, hle⟩ := ih (m / 2) (e + 1)
      have hm : (m : ℚ) = 2 * (m / 2 : Nat) := by exact_mod_cast (show m = 2 * (m / 2) by omega)
      have hsame : halved n (m / 2) (e + 1) = halved (n + 1) m e := by
        rw [halved_half, halved_succ, hm]
      exact ⟨hloses.keep halvingRate_nonneg hnonneg hsame, by omega⟩
    · split
      · obtain ⟨hloses, hle⟩ := ih (5 * m) e
        have hsame : halved n (5 * m) e = halved (n + 1) m e := by
          rw [halved_succ, halved, decimal]
          push_cast
          ring
        exact ⟨hloses.keep halvingRate_nonneg hnonneg hsame, by omega⟩
      · next hodd hroom =>
        obtain ⟨hloses, hle⟩ := ih (m / 2) (e + 1)
        have hloss := halved_loss (n := n) (e := e) (Nat.mod_two_ne_zero.1 hodd)
          (Nat.le_of_not_lt hroom)
        refine ⟨hloses.step halvingRate_nonneg ?_ hloss, by omega⟩
        have hm : (2 * (m / 2 : Nat) : ℚ) ≤ m := by
          exact_mod_cast (show 2 * (m / 2) ≤ m by omega)
        rw [halved_half, halved_succ]
        exact mul_le_mul_of_nonneg_right hm (by positivity)

/-- The number that is left to be doubled so many times, by ten and a fifth each. -/
def doubled (n m : Nat) (e : Int) : ℚ := decimal m e / 5 ^ n

theorem doubled_nonneg (n m : Nat) (e : Int) : 0 ≤ doubled n m e := by
  unfold doubled decimal
  positivity

theorem doubled_succ (n m : Nat) (e : Int) : doubled (n + 1) m e = m * (10 ^ e / 5 ^ (n + 1)) := by
  rw [doubled, decimal, mul_div_assoc]

theorem doubled_double (n m : Nat) (e : Int) :
    doubled n (2 * m) (e - 1) = doubled (n + 1) m e := by
  rw [doubled_succ, doubled, decimal, zpow_sub_one₀ (by norm_num), pow_succ]
  push_cast
  field_simp
  ring

theorem doubled_fifth (n f : Nat) (e : Int) :
    doubled n f e = 5 * f * (10 ^ e / 5 ^ (n + 1)) := by
  rw [doubled, decimal, pow_succ]
  field_simp

theorem doubled_loss (hroom : 2 ^ 95 ≤ m) :
    doubled (n + 1) m e - doubled n (m / 5) e ≤ doublingRate * doubled (n + 1) m e := by
  have hm : (m : ℚ) ≤ 5 * (m / 5 : Nat) + 4 := by
    exact_mod_cast (show m ≤ 5 * (m / 5) + 4 by omega)
  have hbound : (2 : ℚ) ^ 95 ≤ m := by exact_mod_cast hroom
  have hfour : 4 ≤ doublingRate * m := by
    rw [doublingRate, div_mul_eq_mul_div, le_div_iff₀ (by positivity)]
    exact mul_le_mul_of_nonneg_left hbound (by norm_num)
  have hunit : (0 : ℚ) ≤ 10 ^ e / 5 ^ (n + 1) := by positivity
  rw [doubled_succ, doubled_fifth]
  generalize (10 : ℚ) ^ e / 5 ^ (n + 1) = unit at hunit ⊢
  calc m * unit - 5 * (m / 5 : Nat) * unit
    _ = (m - 5 * (m / 5 : Nat)) * unit := by ring
    _ ≤ doublingRate * m * unit := mul_le_mul_of_nonneg_right (by linarith) hunit
    _ = doublingRate * (m * unit) := by ring

theorem loses_double {d : Nat × Int} (he : n ≤ e) (h : double n m e = some d) :
    Loses doublingRate n (doubled n m e) (decimal d.1 d.2) ∧ 0 ≤ d.2 := by
  -- What is lost is bounded for every way through the steps, also where they are given up.
  fun_induction double n m e with
  | case1 m e =>
    obtain rfl := Option.some.inj h
    have hvalue : doubled 0 m e = decimal m e := by simp [doubled]
    rw [hvalue]
    exact ⟨.refl _ _, he⟩
  | case2 n m e _ ih =>
    obtain ⟨hloses, hle⟩ := ih (by omega) h
    exact ⟨hloses.keep doublingRate_nonneg (doubled_nonneg _ _ _) (doubled_double n m e), hle⟩
  | case3 => cases h
  | case4 n m e hroom _ ih =>
    obtain ⟨hloses, hle⟩ := ih (by omega) h
    refine ⟨hloses.step doublingRate_nonneg ?_ (doubled_loss (Nat.le_of_not_lt hroom)), hle⟩
    have hm : (5 * (m / 5 : Nat) : ℚ) ≤ m := by exact_mod_cast (show 5 * (m / 5) ≤ m by omega)
    rw [doubled_fifth, doubled_succ]
    exact mul_le_mul_of_nonneg_right hm (by positivity)

/-- An odd mantissa is only multiplied, as long as there is room. -/
theorem halve_of_lt (hodd : m % 2 = 1) (h : m * 5 ^ n < limit) :
    halve n m e = (m * 5 ^ n, e) := by
  induction n generalizing m with
  | zero => simp [halve]
  | succ n ih =>
    have hm : m * 5 ^ (n + 1) = 5 * m * 5 ^ n := by rw [Nat.pow_succ]; ring
    have hle : 5 * m ≤ 5 * m * 5 ^ n := Nat.le_mul_of_pos_right _ (Nat.pow_pos (by decide))
    rw [halve, if_neg (by omega), if_pos (by omega), ih (by omega) (by omega), hm]

/-- A fraction with a power of two below the line and one that is a decimal with few places has
no greater a power of two than there are places. -/
theorem le_places_of_mul_eq {places N : Nat} (hodd : k % 2 = 1)
    (h : k * 10 ^ places = N * 2 ^ n) : n ≤ places ∧ k * 5 ^ n ≤ N := by
  have hsplit : 10 ^ places = 5 ^ places * 2 ^ places := by rw [← Nat.mul_pow]
  have hcoprime : Nat.Coprime (2 ^ n) (k * 5 ^ places) :=
    Nat.Coprime.pow_left n <| Nat.coprime_two_left.2 <|
      (Nat.odd_iff.2 hodd).mul (Odd.pow (by decide))
  have hdvd : 2 ^ n ∣ 2 ^ places := by
    refine hcoprime.dvd_of_dvd_mul_left (Dvd.intro_left N ?_)
    rw [← h, hsplit, Nat.mul_assoc]
  have hle : n ≤ places := (Nat.pow_dvd_pow_iff_le_right (by decide)).1 hdvd
  refine ⟨hle, ?_⟩
  obtain ⟨j, rfl⟩ := Nat.exists_eq_add_of_le hle
  have hN : N = k * 5 ^ n * 10 ^ j := by
    refine Nat.eq_of_mul_eq_mul_right (Nat.two_pow_pos n) ?_
    rw [← h, Nat.pow_add, show 10 ^ n = 5 ^ n * 2 ^ n by rw [← Nat.mul_pow]]
    ring
  rw [hN]
  exact Nat.le_mul_of_pos_right _ (Nat.pow_pos (by decide))

theorem decimal_neg (m places : Nat) : decimal m (-(places : Int)) = m / 10 ^ places := by
  rw [decimal, zpow_neg, zpow_natCast, div_eq_mul_inv]

theorem halved_neg_self (n m : Nat) : halved n m (-(n : Int)) = m / 2 ^ n := by
  rw [halved, decimal, Int.add_left_neg, zpow_zero, mul_one]

/-- A decimal that fits is found. -/
theorem halve_of_fits {places N : Nat} (hm : 0 < m) (hN : N < limit)
    (h : m * 10 ^ places = N * 2 ^ n) :
    ∃ p ≤ places, (halve n m (-n)).2 = -(p : Int) ∧
      decimal (halve n m (-n)).1 (-(p : Int)) = m / 2 ^ n := by
  -- The powers of two in the mantissa are halved away first; what is left is odd, or done.
  obtain ⟨a, k, hodd, rfl⟩ := Nat.exists_eq_two_pow_mul_odd hm.ne'
  have hodd : k % 2 = 1 := Nat.odd_iff.1 hodd
  obtain hle | hlt := Nat.le_total n a
  · obtain ⟨b, rfl⟩ := Nat.exists_eq_add_of_le hle
    have hsplit : 2 ^ (n + b) * k = k * 2 ^ b * 2 ^ n := by rw [Nat.pow_add]; ring
    refine ⟨0, Nat.zero_le _, ?_, ?_⟩
    · rw [hsplit, halve_mul]
      simp
    · rw [hsplit, halve_mul, decimal_neg]
      push_cast
      field_simp
  · obtain ⟨b, rfl⟩ := Nat.exists_eq_add_of_le hlt
    have hrest : k * 10 ^ places = N * 2 ^ b := by
      refine Nat.eq_of_mul_eq_mul_left (Nat.two_pow_pos a) ?_
      rw [← Nat.mul_assoc, h, Nat.pow_add]
      ring
    obtain ⟨hb, hroom⟩ := le_places_of_mul_eq hodd hrest
    have hhalve : halve (a + b) (2 ^ a * k) (-((a + b : Nat) : Int)) = (k * 5 ^ b, -(b : Int)) := by
      rw [Nat.mul_comm, halve_add, halve_of_lt hodd (Nat.lt_of_le_of_lt hroom hN)]
      congr 1
      omega
    refine ⟨b, hb, ?_, ?_⟩
    · rw [hhalve]
    · rw [hhalve, decimal_neg, show (10 : ℚ) = 5 * 2 by norm_num, mul_pow, pow_add]
      push_cast
      field_simp

/-- What is left is less than a unit away. -/
theorem drop_bounds (n m : Nat) :
    (drop n m).1 * 10 ^ n < m + 10 ^ n ∧ m < ((drop n m).1 + 1) * 10 ^ n := by
  induction n generalizing m with
  | zero => simp [drop]
  | succ n ih =>
    have hpos : 0 < 10 ^ n := Nat.pow_pos (by decide)
    rw [drop, Nat.pow_succ]
    split
    · next hzero =>
      dsimp only
      omega
    · have hnear : 10 * (m / 10 + if 5 ≤ m % 10 then 1 else 0) ≤ m + 5 ∧
          m ≤ 10 * (m / 10 + if 5 ≤ m % 10 then 1 else 0) + 4 := by
        split <;> omega
      generalize (m / 10 + if 5 ≤ m % 10 then 1 else 0) = m' at hnear ⊢
      obtain ⟨hle, hlt⟩ := ih m'
      rw [← Nat.mul_assoc, ← Nat.mul_assoc]
      omega

theorem drop_scale (n m : Nat) : (drop n m).2 = 28 ∨ drop n m = (0, 0) := by
  induction n generalizing m with
  | zero => exact .inl rfl
  | succ n ih =>
    rw [drop]
    split
    · exact .inr rfl
    · exact ih _

theorem decimal_drop (n m : Nat) :
    decimal (drop n m).1 (-((drop n m).2 : Int)) = decimal (drop n m).1 (-28) := by
  obtain hscale | hzero := drop_scale n m
  · rw [hscale]
    rfl
  · rw [hzero, decimal, decimal, Nat.cast_zero, zero_mul, zero_mul]

theorem near_drop (n m : Nat) :
    |decimal (drop n m).1 (-((drop n m).2 : Int)) - decimal m (-((28 + n : Nat) : Int))| ≤
      10 ^ (-28 : Int) := by
  obtain ⟨hle, hlt⟩ := drop_bounds n m
  rw [decimal_drop]
  generalize (drop n m).1 = r at hle hlt ⊢
  have hpos : (0 : ℚ) < 10 ^ (28 + n) := by positivity
  have hunit : (10 : ℚ) ^ (-28 : Int) = 10 ^ n / 10 ^ (28 + n) := by
    rw [pow_add]
    field_simp
  have hr : decimal r (-28) = r * 10 ^ n / 10 ^ (28 + n) := by
    rw [decimal, hunit, mul_div_assoc]
  have hle : (r : ℚ) * 10 ^ n ≤ m + 10 ^ n := by exact_mod_cast hle.le
  have hlt : (m : ℚ) ≤ (r + 1) * 10 ^ n := by exact_mod_cast hlt.le
  rw [hr, decimal_neg, hunit, ← sub_div, abs_div, abs_of_pos hpos,
    div_le_div_iff_of_pos_right hpos, abs_le]
  constructor <;> linarith

variable {x : Float} {s : Number.Sign} {hm : 0 < m}

theorem scaled_neg (m n : Nat) : scaled m (-(n : Int)) = m / 2 ^ n := by
  rw [scaled, zpow_neg, zpow_natCast, div_eq_mul_inv]

theorem scaled_natCast (m n : Nat) : scaled m n = (m * 2 ^ n : Nat) := by
  rw [scaled, zpow_natCast]
  push_cast
  rfl

/-- After the halvings all digits are kept, but for those behind the 28th place. -/
theorem retaining_of_halve {m' p : Nat} (hn : n ≠ 0) (hview : view x = .finite s m (-n) hm)
    (hhalve : halve n m (-n) = (m', -(p : Int))) :
    ∃ d, ofFloatRetaining x = some d ∧ d.negative = Sign.isNegative s ∧
      (p ≤ 28 → d.magnitude = decimal m' (-p)) ∧
      |d.magnitude - decimal m' (-p)| ≤ 10 ^ (-28 : Int) := by
  have hneg : -(n : Int) < 0 := by omega
  have habs : (-(n : Int)).natAbs = n := by omega
  have hunit : (0 : ℚ) ≤ 10 ^ (-28 : Int) := by positivity
  have hm' : m' < limit := by
    have := halve_lt (n := n) (e := -n) (lt_limit_of_view hview)
    rwa [hhalve] at this
  rw [ofFloatRetaining_of_finite hview, ofTwos]
  simp only [if_pos hneg, habs, hhalve]
  obtain rfl | hp := Nat.eq_zero_or_pos p
  · refine ⟨ofNat (Sign.isNegative s) m' hm', rfl, rfl, fun _ => rfl, ?_⟩
    rwa [magnitude, ofNat, Nat.cast_zero, sub_self, abs_zero]
  · by_cases hle : p ≤ 28
    · refine ⟨⟨Sign.isNegative s, m', p, hm', hle⟩, ?_, rfl, fun _ => rfl, ?_⟩
      · simp [ofTens, hp.ne', hle]
      · rwa [magnitude, sub_self, abs_zero]
    · obtain ⟨j, rfl⟩ := Nat.exists_eq_add_of_le (show 28 ≤ p by omega)
      have hfraction : ¬0 ≤ -((28 + j : Nat) : Int) := by omega
      have hmany : ¬(-((28 + j : Nat) : Int)).natAbs ≤ 28 := by omega
      have hrest : (-((28 + j : Nat) : Int)).natAbs - 28 = j := by omega
      simp only [ofTens, if_neg hfraction, dif_neg hmany, hrest]
      exact ⟨_, rfl, rfl, (absurd · hle), near_drop j m'⟩

theorem exists_retaining_of_neg (hlow : -1074 ≤ e) (hneg : e < 0)
    (hview : view x = .finite s m e hm) :
    ∃ d, ofFloatRetaining x = some d ∧ d.negative = Sign.isNegative s ∧
      Keeps (scaled m e) d.magnitude := by
  obtain ⟨n, rfl⟩ := Int.exists_eq_neg_ofNat hneg.le
  obtain ⟨hloses, hle⟩ := loses_halve n m (-n)
  rw [halved_neg_self] at hloses
  obtain ⟨p, hp⟩ : ∃ p : Nat, (halve n m (-n)).2 = -(p : Int) :=
    ⟨(halve n m (-n)).2.natAbs, by omega⟩
  rw [hp] at hloses
  obtain ⟨d, hd, hsign, hexact, hnear⟩ := retaining_of_halve (by omega) hview (Prod.ext rfl hp)
  refine ⟨d, hd, hsign, ?_, ?_⟩
  · rintro ⟨N, places, hN, hplaces, hfits⟩
    have hmul : m * 10 ^ places = N * 2 ^ n := by
      rw [scaled_neg, div_mul_eq_mul_div, div_eq_iff (by positivity)] at hfits
      exact_mod_cast hfits
    obtain ⟨p', hp', hscale, hvalue⟩ := halve_of_fits hm hN hmul
    obtain rfl : p = p' := by omega
    rw [hexact (hp'.trans hplaces), hvalue, scaled_neg]
  · have hrate : (n : ℚ) * halvingRate ≤ 1 / 2 ^ 83 := by
      have hn : (n : ℚ) ≤ 1074 := by exact_mod_cast (show n ≤ 1074 by omega)
      rw [halvingRate]
      linarith
    have hpos := scaled_pos hm (-n)
    rw [scaled_neg] at hpos ⊢
    have hlost := hloses.near hpos.le hrate
    rw [one_div_mul_eq_div] at hlost
    exact (abs_sub_le _ _ _).trans (add_le_add hnear hlost)

theorem Keeps.refl {a : ℚ} (ha : 0 ≤ a) : Keeps a a where
  exact _ := rfl
  near := by
    rw [sub_self, abs_zero]
    positivity

theorem raise_of_lt {negative : Bool} {h : m < limit} (hlt : m * 10 ^ n < limit) :
    raise negative n m h = some (ofNat negative (m * 10 ^ n) hlt) := by
  induction n generalizing m with
  | zero => simp [raise]
  | succ n ih =>
    have hm : m * 10 ^ (n + 1) = 10 * m * 10 ^ n := by rw [Nat.pow_succ]; ring
    have hroom : 10 * m < limit :=
      Nat.lt_of_le_of_lt (Nat.le_mul_of_pos_right _ (Nat.pow_pos (by decide))) (hm ▸ hlt)
    rw [raise, dif_pos hroom, ih (hm ▸ hlt)]
    simp only [hm]

theorem raise_of_le {negative : Bool} {h : m < limit} (hle : limit ≤ m * 10 ^ n) :
    raise negative n m h = none := by
  induction n generalizing m with
  | zero => exact absurd hle (by rwa [Nat.pow_zero, Nat.mul_one, Nat.not_le])
  | succ n ih =>
    rw [raise]
    split
    · refine ih ?_
      calc limit
        _ ≤ m * 10 ^ (n + 1) := hle
        _ = 10 * m * 10 ^ n := by rw [Nat.pow_succ]; ring
    · rfl

/-- After the doublings there is a decimal only if the number is below the limit then. -/
theorem magnitude_of_double {d : Decimal} {negative : Bool} {h : m < limit}
    (hd : ofTwos negative m n h = some d) :
    ∃ d', double n m n = some d' ∧
      (0 ≤ d'.2 → d.negative = negative ∧ d.magnitude = decimal d'.1 d'.2 ∧
        d.magnitude < limit) := by
  rw [ofTwos, if_neg (show ¬(n : Int) < 0 by omega), Option.pbind_eq_some_iff] at hd
  obtain ⟨⟨m', e⟩, hdouble, hd⟩ := hd
  refine ⟨(m', e), hdouble, fun hnonneg => ?_⟩
  obtain ⟨p, rfl⟩ := Int.eq_ofNat_of_zero_le hnonneg
  have hvalue : decimal m' p = (m' * 10 ^ p : Nat) := by
    rw [decimal, zpow_natCast]
    push_cast
    rfl
  rw [ofTens, if_pos hnonneg, Int.natAbs_natCast] at hd
  obtain hlt | hle := Nat.lt_or_ge (m' * 10 ^ p) limit
  · rw [raise_of_lt hlt] at hd
    obtain rfl := Option.some.inj hd
    have hmagnitude : magnitude (ofNat negative (m' * 10 ^ p) hlt) = (m' * 10 ^ p : Nat) := by
      simp [magnitude, ofNat, decimal]
    rw [hmagnitude, hvalue]
    exact ⟨rfl, rfl, by exact_mod_cast hlt⟩
  · rw [raise_of_le hle] at hd
    cases hd

-- The floats beyond the limit are this far from it at least.
theorem limit_add_le (hm : m < 2 ^ 53) (h : limit < m * 2 ^ n) : limit + 2 ^ 44 ≤ m * 2 ^ n := by
  unfold limit at *
  have hn : 44 ≤ n := by
    by_contra hlt
    have hpow : 2 ^ n ≤ 2 ^ 43 := Nat.pow_le_pow_right (by decide) (by omega)
    have := Nat.mul_le_mul hm.le hpow
    omega
  obtain ⟨j, rfl⟩ := Nat.exists_eq_add_of_le hn
  rw [Nat.pow_add, Nat.mul_left_comm] at h ⊢
  omega

theorem doubled_natCast_self (n m : Nat) : doubled n m n = scaled m n := by
  rw [doubled, decimal, scaled, zpow_natCast, zpow_natCast, mul_div_assoc, ← div_pow]
  norm_num

/-- A float without a fraction is its own decimal below the limit, and beyond the limit it has
none. -/
theorem keeps_of_nonneg {d : Decimal} (hc : Canonical m e) (he : 0 ≤ e)
    (hview : view x = .finite s m e hm) (hd : ofFloatRetaining x = some d) :
    d.negative = Sign.isNegative s ∧ Keeps (scaled m e) d.magnitude ∧ scaled m e ≤ limit := by
  obtain ⟨n, rfl⟩ := Int.eq_ofNat_of_zero_le he
  have hvalue := scaled_natCast m n
  have hpos := scaled_pos hm n
  obtain hlt | hle := Nat.lt_or_ge (m * 2 ^ n) limit
  · have hamounts : Amounts m n (m * 2 ^ n) := by
      rw [Amounts, Int.toNat_natCast, show (-(n : Int)).toNat = 0 by omega, Nat.pow_zero,
        Nat.mul_one]
    obtain rfl := Option.some.inj (hd.symm.trans (ofFloatRetaining_eq hview hamounts hlt))
    have hsame : magnitude (ofNat (Sign.isNegative s) (m * 2 ^ n) hlt) = scaled m n := by
      simp [hvalue, magnitude, ofNat, decimal]
    rw [hsame]
    refine ⟨rfl, .refl hpos.le, ?_⟩
    rw [hvalue]
    exact_mod_cast hlt.le
  · rw [ofFloatRetaining_of_finite hview] at hd
    obtain ⟨d', hdouble, hraised⟩ := magnitude_of_double hd
    obtain ⟨hloses, hnonneg⟩ := loses_double (le_refl _) hdouble
    obtain ⟨hsign, hmagnitude, hlt⟩ := hraised hnonneg
    have hrate : (n : ℚ) * doublingRate ≤ 1 / 2 ^ 83 := by
      have hn : (n : ℚ) ≤ 2 ^ 10 := by
        have := hc.exponent_le
        exact_mod_cast (show n ≤ 2 ^ 10 by omega)
      rw [doublingRate]
      linarith
    rw [doubled_natCast_self, ← hmagnitude] at hloses
    have hnear := hloses.near hpos.le hrate
    rw [one_div_mul_eq_div] at hnear
    refine ⟨hsign, ⟨fun hfits => ?_, hnear.trans (le_add_of_nonneg_left (by positivity))⟩, ?_⟩
    · refine absurd hfits (not_fits_of_limit_le ?_)
      rw [hvalue]
      exact_mod_cast hle
    · -- What is lost of a float beyond the limit does not lead back below it.
      by_contra hgt
      rw [hvalue, not_le, Nat.cast_lt] at hgt
      have hgap : (limit : ℚ) + 2 ^ 44 ≤ scaled m n := by
        rw [hvalue]
        exact_mod_cast limit_add_le hc.mantissa_lt hgt
      have hlower := (abs_le.1 hnear).1
      have hlimit : (limit : ℚ) = 2 ^ 96 := by norm_num [limit]
      rw [hlimit] at hlt hgap
      linarith

end TemplateBinding.Number.Decimal
