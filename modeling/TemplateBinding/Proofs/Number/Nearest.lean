import TemplateBinding.Number.Shortest
import TemplateBinding.Proofs.Number.Line

set_option autoImplicit false

namespace TemplateBinding.Number

open Float.Model (Format totalExponent)
open Float.Model.UnpackedFloat (ExtendedMantissa shiftToTargetExponent shiftToExponent
  roundWithAccuracy accuracyOfFraction)

/-- The exponent at which a number `q · 2 ^ t`, and any fraction of `2 ^ t` more, has 53 bits, or
the least exponent. -/
def unitExponent (q : Nat) (t : Int) : Int := max (q.log2 + t - 52) (-1074)

theorem targetExponent_eq (q : Nat) (t : Int) :
    Format.binary64.targetExponent (totalExponent q t) = unitExponent q t := by
  have hmin : Format.binary64.minExponent = -1074 := by decide
  simp only [Format.targetExponent, totalExponent, Format.mantissaBits, hmin, unitExponent]
  omega

def carry (s : Sign) (q : Nat) (e : Int) : View :=
  let r := shiftToTargetExponent .binary64 q e .exact
  if h : r.1.mantissa = 0 then .zero s else .finite s r.1.mantissa r.2 (Nat.pos_of_ne_zero h)

theorem roundWithAccuracy_eq_carry (s : Sign) {num den : Nat} {t : Int} (hden : 0 < den)
    (ht : t ≤ unitExponent (num / den) t) :
    roundWithAccuracy .binary64 s (num / den) t (accuracyOfFraction (num % den) den) =
      carry s (roundDiv num (den * 2 ^ (unitExponent (num / den) t - t).toNat) .even)
        (unitExponent (num / den) t) := by
  have htells := (tells_accuracyOfFraction num hden).shiftRight hden
    (unitExponent (num / den) t - t).toNat
  have hexp : t + ((unitExponent (num / den) t - t).toNat : Int) = unitExponent (num / den) t := by
    omega
  have hshift : shiftToTargetExponent .binary64 (num / den) t (accuracyOfFraction (num % den) den) =
      (ExtendedMantissa.ofMantissaAndAccuracy (num / den) (accuracyOfFraction (num % den) den) >>>
        (unitExponent (num / den) t - t).toNat, unitExponent (num / den) t) := by
    rw [shiftToTargetExponent, targetExponent_eq, shiftToExponent, hexp]
  rw [roundWithAccuracy, hshift]
  simp only [htells.roundedMantissa]
  rfl

theorem carry_eq (s : Sign) {q q' : Nat} {e : Int} (he : -1074 ≤ e) (hq' : 0 < q')
    (h : q / 2 ^ lostBits q = q') : carry s q e = .finite s q' (e + lostBits q) hq' := by
  have hmantissa : (ExtendedMantissa.ofMantissaAndAccuracy q .exact >>> lostBits q).mantissa = q' :=
    (tells_shiftRight q _).mantissa.trans h
  simp only [carry, shiftToTargetExponent_eq he, hmantissa, dif_neg hq'.ne']

theorem carry_of_lt (s : Sign) {q : Nat} {e : Int} (hq : 0 < q) (hlt : q < 2 ^ 53)
    (he : -1074 ≤ e) : carry s q e = .finite s q e hq := by
  have hlost := lostBits_eq_zero hlt
  rw [carry_eq s he hq (by rw [hlost, Nat.pow_zero, Nat.div_one])]
  simp only [hlost, Int.natCast_zero, Int.add_zero]

theorem carry_top (s : Sign) {e : Int} (he : -1074 ≤ e) :
    carry s (2 ^ 53) e = .finite s (2 ^ 52) (e + 1) (by decide) :=
  carry_eq s he (by decide) (by decide)

/-- The interval of reals that round to a float holds the number. -/
def Interval.Contains (i : Interval) (v : ℚ) : Prop :=
  if i.closed then scaled i.low i.e ≤ v ∧ v ≤ scaled i.high i.e
  else scaled i.low i.e < v ∧ v < scaled i.high i.e

/-- The number rounds to the whole number: it is at most half away from it, and less if the whole
number is odd. -/
structure Near (m : Nat) (r : ℚ) : Prop where
  le_add : r ≤ m + 1 / 2
  sub_le : m - 1 / 2 ≤ r
  lt_of_odd : m % 2 = 1 → r < m + 1 / 2 ∧ m - 1 / 2 < r

theorem Near.roundDiv_eq {m num den : Nat} (hden : 0 < den) (h : Near m ((num : ℚ) / den)) :
    roundDiv num den .even = m := by
  have hpos : (0 : ℚ) < den := by exact_mod_cast hden
  obtain ⟨hle, hge, hodd⟩ := h
  rw [div_le_iff₀ hpos] at hle
  rw [le_div_iff₀ hpos] at hge
  rw [div_lt_iff₀ hpos, lt_div_iff₀ hpos] at hodd
  have hle : 2 * num ≤ 2 * (m * den) + den := by
    have : (2 * num : ℚ) ≤ 2 * (m * den) + den := by linarith
    exact_mod_cast this
  have hge : 2 * (m * den) ≤ 2 * num + den := by
    have : (2 * (m * den) : ℚ) ≤ 2 * num + den := by linarith
    exact_mod_cast this
  have hodd : m % 2 = 1 → 2 * num < 2 * (m * den) + den ∧ 2 * (m * den) < 2 * num + den := by
    intro hm
    obtain ⟨h1, h2⟩ := hodd hm
    have h1 : (2 * num : ℚ) < 2 * (m * den) + den := by linarith
    have h2 : (2 * (m * den) : ℚ) < 2 * num + den := by linarith
    exact ⟨by exact_mod_cast h1, by exact_mod_cast h2⟩
  have hdiv := Nat.div_add_mod' num den
  have hmod := Nat.mod_lt num hden
  have hlow : num / den ≤ m := by
    by_contra hlt
    have := Nat.mul_le_mul_right den (Nat.lt_of_not_le hlt)
    rw [Nat.succ_mul] at this
    omega
  have hhigh : m ≤ num / den + 1 := by
    by_contra hlt
    have := Nat.mul_le_mul_right den (Nat.lt_of_not_le hlt)
    rw [Nat.succ_mul, Nat.succ_mul] at this
    omega
  simp only [roundDiv]
  obtain rfl | heq : m = num / den ∨ m = num / den + 1 := by omega
  · split_ifs <;> omega
  · have hmul : m * den = num / den * den + den := by rw [heq, Nat.succ_mul]
    split_ifs <;> omega

variable {m : Nat} {e : Int} {v : ℚ}

theorem scaled_sub_two (m : Nat) (e : Int) : scaled m (e - 2) = m / 4 * 2 ^ e := by
  rw [scaled, zpow_sub₀ two_ne_zero]
  ring

/-- How far the interval reaches below the float, in its units. -/
def gapBelow (m : Nat) (e : Int) : ℚ := if m = 2 ^ 52 ∧ -1074 < e then 1 / 4 else 1 / 2

theorem gapBelow_le (m : Nat) (e : Int) : gapBelow m e ≤ 1 / 2 := by
  unfold gapBelow
  split_ifs <;> norm_num

theorem gapBelow_pos (m : Nat) (e : Int) : 0 < gapBelow m e := by
  unfold gapBelow
  split_ifs <;> norm_num

theorem low_of (hm : 0 < m) : scaled (Interval.of m e).low (e - 2) = (m - gapBelow m e) * 2 ^ e := by
  have hlow : ((Interval.of m e).low : ℚ) = 4 * m - 4 * gapBelow m e := by
    unfold Interval.of gapBelow
    dsimp only
    split_ifs <;> (rw [Nat.cast_sub (by omega)]; push_cast; ring)
  rw [scaled_sub_two, hlow]
  ring

theorem high_of (m : Nat) (e : Int) :
    scaled (Interval.of m e).high (e - 2) = (m + 1 / 2) * 2 ^ e := by
  have hhigh : ((Interval.of m e).high : ℚ) = 4 * m + 2 := by
    unfold Interval.of
    push_cast
    ring
  rw [scaled_sub_two, hhigh]
  ring

theorem Interval.contains_of_iff (hm : 0 < m) :
    (Interval.of m e).Contains v ↔
      if m % 2 = 0 then (m - gapBelow m e) * 2 ^ e ≤ v ∧ v ≤ (m + 1 / 2) * 2 ^ e
      else (m - gapBelow m e) * 2 ^ e < v ∧ v < (m + 1 / 2) * 2 ^ e := by
  have hclosed : (Interval.of m e).closed = decide (m % 2 = 0) := rfl
  have he : (Interval.of m e).e = e - 2 := rfl
  rw [Interval.Contains, hclosed, he, low_of hm, high_of]
  simp only [decide_eq_true_eq]

theorem Interval.Contains.bounds (hm : 0 < m) (h : (Interval.of m e).Contains v) :
    (m - gapBelow m e) * 2 ^ e ≤ v ∧ v ≤ (m + 1 / 2) * 2 ^ e := by
  rw [contains_of_iff hm] at h
  split_ifs at h
  · exact h
  · exact ⟨h.1.le, h.2.le⟩

theorem Interval.Contains.near (hm : 0 < m) (h : (Interval.of m e).Contains v) :
    Near m (v / 2 ^ e) := by
  have he : (0 : ℚ) < 2 ^ e := by positivity
  have hgap := gapBelow_le m e
  obtain ⟨hlow, hhigh⟩ := h.bounds hm
  rw [← le_div_iff₀ he] at hlow
  rw [← div_le_iff₀ he] at hhigh
  refine ⟨hhigh, by linarith, fun hodd => ?_⟩
  rw [contains_of_iff hm, if_neg (by omega), ← lt_div_iff₀ he, ← div_lt_iff₀ he] at h
  exact ⟨h.2, by linarith⟩

theorem natCast_two_pow (n : Nat) : ((2 ^ n : Nat) : ℚ) = 2 ^ (n : Int) := by
  rw [zpow_natCast]
  push_cast
  rfl

theorem lt_two_zpow_unitExponent (num : Nat) {den : Nat} (t : Int) (hden : 0 < den) :
    (num : ℚ) / den * 2 ^ t < 2 ^ (unitExponent (num / den) t + 53) := by
  have ht : (0 : ℚ) < 2 ^ t := by positivity
  have hpos : (0 : ℚ) < den := by exact_mod_cast hden
  have hquotient : (num : ℚ) / den < 2 ^ ((num / den).log2 + 1 : Int) := by
    have hfloor : num < (num / den + 1) * den := Nat.lt_mul_of_div_lt (Nat.lt_succ_self _) hden
    have hlog : num / den + 1 ≤ 2 ^ ((num / den).log2 + 1) := Nat.lt_log2_self
    rw [div_lt_iff₀ hpos]
    calc (num : ℚ)
      _ < (num / den + 1 : Nat) * den := by exact_mod_cast hfloor
      _ ≤ (2 ^ ((num / den).log2 + 1) : Nat) * den := by gcongr
      _ = 2 ^ ((num / den).log2 + 1 : Int) * den := by rw [natCast_two_pow]; rfl
  calc (num : ℚ) / den * 2 ^ t
    _ < 2 ^ ((num / den).log2 + 1 : Int) * 2 ^ t := by gcongr
    _ = 2 ^ ((num / den).log2 + 1 + t : Int) := (zpow_add₀ two_ne_zero _ _).symm
    _ ≤ 2 ^ (unitExponent (num / den) t + 53) :=
      zpow_le_zpow_right₀ one_le_two (by unfold unitExponent; omega)

theorem unitExponent_le {num den : Nat} {t : Int} (ht : t ≤ unitExponent (num / den) t)
    (he : -1074 ≤ e) (h : (num : ℚ) / den * 2 ^ t < 2 ^ (e + 53)) :
    unitExponent (num / den) t ≤ e := by
  by_cases hq : num / den = 0
  · unfold unitExponent at ht ⊢
    rw [hq, Nat.log2_zero] at ht ⊢
    omega
  · have hlow : (2 : ℚ) ^ ((num / den).log2 + t : Int) < 2 ^ (e + 53) := by
      have hlog : 2 ^ (num / den).log2 ≤ num / den := Nat.log2_self_le hq
      calc (2 : ℚ) ^ ((num / den).log2 + t : Int)
        _ = (2 ^ (num / den).log2 : Nat) * 2 ^ t := by rw [zpow_add₀ two_ne_zero, natCast_two_pow]
        _ ≤ (num / den : Nat) * 2 ^ t := by gcongr
        _ ≤ num / den * 2 ^ t := by gcongr; exact Nat.cast_div_le
        _ < 2 ^ (e + 53) := h
    have := (zpow_lt_zpow_iff_right₀ one_lt_two).1 hlow
    unfold unitExponent
    omega

theorem quotient_eq {num den : Nat} {t u : Int} (h : t ≤ u) :
    (num : ℚ) / (den * 2 ^ (u - t).toNat : Nat) = num / den * 2 ^ t / 2 ^ u := by
  have hpow : (2 : ℚ) ^ (u - t).toNat = 2 ^ u / 2 ^ t := by
    rw [← zpow_natCast, Int.toNat_of_nonneg (by omega), zpow_sub₀ two_ne_zero]
  push_cast
  rw [hpow]
  field_simp

theorem Interval.Contains.lt_two_zpow (hm : 0 < m) (hc : Canonical m e)
    (h : (Interval.of m e).Contains v) : v < 2 ^ (e + 53) := by
  have hmantissa : (m : ℚ) + 1 ≤ 2 ^ 53 := by exact_mod_cast hc.mantissa_lt
  calc v
    _ ≤ (m + 1 / 2) * 2 ^ e := (h.bounds hm).2
    _ < 2 ^ 53 * 2 ^ e := by gcongr; linarith
    _ = 2 ^ (e + 53) := by rw [zpow_add₀ two_ne_zero, mul_comm]; norm_cast

/-- Of the floats with all bits, only a power of two has numbers below that power in its interval. -/
theorem Interval.Contains.mantissa_eq (hm : 0 < m) (hfull : 2 ^ 52 ≤ m)
    (h : (Interval.of m e).Contains v) (hv : v < 2 ^ (e + 52)) : m = 2 ^ 52 := by
  have hpos : (0 : ℚ) < 2 ^ e := by positivity
  have hgap := gapBelow_le m e
  have hbelow : (m - gapBelow m e) * 2 ^ e < 2 ^ 52 * 2 ^ e := by
    calc (m - gapBelow m e) * 2 ^ e
      _ ≤ v := (h.bounds hm).1
      _ < 2 ^ (e + 52) := hv
      _ = 2 ^ 52 * 2 ^ e := by rw [zpow_add₀ two_ne_zero, mul_comm]; norm_cast
  have hless : (m : ℚ) < 2 ^ 52 + 1 := by
    have := lt_of_mul_lt_mul_right hbelow hpos.le
    linarith
  have hless : m < 2 ^ 52 + 1 := by exact_mod_cast hless
  omega

theorem Interval.Contains.quarter_le (he : -1074 < e) (h : (Interval.of (2 ^ 52) e).Contains v) :
    (2 ^ 52 - 1 / 4) * 2 ^ e ≤ v := by
  have hgap : gapBelow (2 ^ 52) e = 1 / 4 := if_pos ⟨rfl, he⟩
  obtain ⟨hlow, -⟩ := h.bounds (Nat.two_pow_pos 52)
  rw [hgap] at hlow
  exact_mod_cast hlow

/-- A number in the interval of a float has the unit of the float, but just below a power of two it
has half of it. -/
theorem Interval.Contains.unit_eq (hm : 0 < m) (hc : Canonical m e)
    (h : (Interval.of m e).Contains v) {u : Int} (hu : -1074 ≤ u) (hle : u ≤ e)
    (hv : v < 2 ^ (u + 53)) : u = e ∨ u + 1 = e ∧ m = 2 ^ 52 ∧ Near (2 ^ 53) (v / 2 ^ u) := by
  obtain hlt | rfl := hle.lt_or_eq
  · right
    have hfull := hc.full.resolve_left (by omega)
    have hpower : v < 2 ^ (e + 52) :=
      hv.trans_le (zpow_le_zpow_right₀ one_le_two (by omega))
    obtain rfl := h.mantissa_eq hm hfull hpower
    have hlow := h.quarter_le (by omega)
    have hunit : u + 1 = e := by
      have hless : (2 : ℚ) ^ (e + 51) < 2 ^ (u + 53) := by
        calc (2 : ℚ) ^ (e + 51)
          _ = 2 ^ 51 * 2 ^ e := by rw [zpow_add₀ two_ne_zero, mul_comm]; norm_cast
          _ ≤ (2 ^ 52 - 1 / 4) * 2 ^ e := by gcongr; norm_num
          _ ≤ v := hlow
          _ < 2 ^ (u + 53) := hv
      have := (zpow_lt_zpow_iff_right₀ one_lt_two).1 hless
      omega
    have hu0 : (0 : ℚ) < 2 ^ u := by positivity
    rw [← hunit, zpow_add_one₀ two_ne_zero] at hlow
    rw [zpow_add₀ two_ne_zero] at hv
    refine ⟨hunit, rfl, ?_, ?_, fun hodd => by cases hodd⟩
    · rw [div_le_iff₀ hu0]
      push_cast
      norm_num at hv ⊢
      linarith
    · rw [le_div_iff₀ hu0]
      push_cast
      linarith
  · exact .inl rfl

/-- A quotient in the interval of a float is rounded to that float. -/
theorem roundWithAccuracy_of_contains (s : Sign) {num den : Nat} {t : Int} (hden : 0 < den)
    (hm : 0 < m) (hc : Canonical m e) (ht : t ≤ unitExponent (num / den) t)
    (h : (Interval.of m e).Contains (num / den * 2 ^ t)) :
    roundWithAccuracy .binary64 s (num / den) t (accuracyOfFraction (num % den) den) =
      .finite s m e hm := by
  have hmin : -1074 ≤ unitExponent (num / den) t := le_max_right _ _
  have hle := unitExponent_le ht hc.le_exponent (h.lt_two_zpow hm hc)
  have hpos : 0 < den * 2 ^ (unitExponent (num / den) t - t).toNat :=
    Nat.mul_pos hden (Nat.two_pow_pos _)
  rw [roundWithAccuracy_eq_carry s hden ht]
  obtain heq | ⟨hnext, rfl, hnear⟩ :=
    h.unit_eq hm hc hmin hle (lt_two_zpow_unitExponent num t hden)
  · have hnear := h.near hm
    rw [← heq, ← quotient_eq ht] at hnear
    rw [hnear.roundDiv_eq hpos, carry_of_lt s hm hc.mantissa_lt hmin]
    simp only [heq]
  · rw [← quotient_eq ht] at hnear
    rw [hnear.roundDiv_eq hpos, carry_top s hmin]
    simp only [hnext]

def decimal (m : Nat) (k : Int) : ℚ := m * 10 ^ k

theorem Interval.Contains.lt_two_zpow_top (hm : 0 < m) (hc : Canonical m e)
    (h : (Interval.of m e).Contains v) : v < 2 ^ ((1024 : Nat) : Int) :=
  (h.lt_two_zpow hm hc).trans_le
    (zpow_le_zpow_right₀ one_le_two (by have := hc.exponent_le; omega))

theorem Interval.Contains.two_zpow_lt (hm : 0 < m) (hc : Canonical m e)
    (h : (Interval.of m e).Contains v) : 2 ^ (-1076 : Int) < v := by
  have hgap := gapBelow_le m e
  have hone : (1 : ℚ) ≤ m := by exact_mod_cast hm
  calc (2 : ℚ) ^ (-1076 : Int)
    _ < 2 ^ (-1 + -1074 : Int) := zpow_lt_zpow_right₀ one_lt_two (by decide)
    _ ≤ 2 ^ (-1 + e : Int) := zpow_le_zpow_right₀ one_le_two (by have := hc.le_exponent; omega)
    _ = 1 / 2 * 2 ^ e := by rw [zpow_add₀ two_ne_zero]; norm_num
    _ ≤ (m - gapBelow m e) * 2 ^ e := by gcongr; linarith
    _ ≤ v := (h.bounds hm).1

variable {d : Nat} {k : Int}

theorem lt_of_decimal_lt {bound : Nat} (h : decimal d k < bound) :
    d < bound * 10 ^ (-k).toNat := by
  have hpow : (0 : ℚ) < 10 ^ (-k).toNat := by positivity
  have hone : (1 : ℚ) ≤ 10 ^ k.toNat := one_le_pow₀ (by norm_num)
  rw [decimal, zpow_eq_div (by norm_num), ← mul_div_assoc, div_lt_iff₀ hpow] at h
  have hlt : (d : ℚ) < bound * 10 ^ (-k).toNat := by
    calc (d : ℚ)
      _ ≤ d * 10 ^ k.toNat := le_mul_of_one_le_right (Nat.cast_nonneg d) hone
      _ < bound * 10 ^ (-k).toNat := h
  exact_mod_cast hlt

theorem exponent_le_of_decimal_lt {n : Nat} (hd : 0 < d) (h : decimal d k < 2 ^ (n : Int)) :
    k ≤ n := by
  by_contra hk
  obtain ⟨j, rfl⟩ := Int.eq_ofNat_of_zero_le (show 0 ≤ k by omega)
  have hone : (1 : ℚ) ≤ d := by exact_mod_cast hd
  refine h.not_ge ?_
  calc (2 : ℚ) ^ (n : Int)
    _ ≤ 2 ^ (j : Int) := zpow_le_zpow_right₀ one_le_two (by omega)
    _ ≤ 10 ^ (j : Int) := by
      rw [zpow_natCast, zpow_natCast]
      exact pow_le_pow_left₀ (by norm_num) (by norm_num) j
    _ ≤ decimal d j := le_mul_of_one_le_left (by positivity) hone

/-- Nor is the exponent of a decimal too small that is not too small, for as many digits. -/
theorem le_exponent_of_lt_decimal {n : Nat} (h : 2 ^ (-n : Int) < decimal d k) :
    -((n : Int) + d.log2) ≤ k := by
  by_contra hk
  obtain ⟨j, rfl⟩ := Int.exists_eq_neg_ofNat (show k ≤ 0 by omega)
  have hlog : d ≤ 2 ^ (d.log2 + 1) := Nat.lt_log2_self.le
  refine h.not_ge ?_
  calc decimal d (-j)
    _ ≤ (2 ^ (d.log2 + 1) : Nat) * 10 ^ (-j : Int) := by unfold decimal; gcongr
    _ ≤ (2 ^ (d.log2 + 1) : Nat) * 2 ^ (-j : Int) := by
      rw [zpow_neg, zpow_neg, zpow_natCast, zpow_natCast]
      gcongr
      norm_num
    _ = 2 ^ ((d.log2 + 1 : Nat) + -j : Int) := by rw [zpow_add₀ two_ne_zero, natCast_two_pow]
    _ ≤ 2 ^ (-n : Int) := zpow_le_zpow_right₀ one_le_two (by omega)

theorem decimal_pos_iff : 0 < decimal d k ↔ 0 < d := by
  have hpow : (0 : ℚ) < 10 ^ k := by positivity
  rw [decimal, mul_pos_iff_of_pos_right hpow, Nat.cast_pos]

theorem mul_of_contains (hm : 0 < m) (hc : Canonical m e) (hd : 0 < d) (hk : 0 ≤ k)
    (h : (Interval.of m e).Contains (decimal d k)) :
    roundWithAccuracy .binary64 .positive (d <<< 53 * 10 ^ k.toNat) (-53) .exact =
      .finite .positive m e hm := by
  have hvalue : ((d <<< 53 * 10 ^ k.toNat : Nat) : ℚ) / (1 : Nat) * 2 ^ (-53 : Int) =
      decimal d k := by
    rw [decimal, ← Int.toNat_of_nonneg hk, zpow_natCast, Int.toNat_natCast, Nat.shiftLeft_eq]
    push_cast
    norm_num
    ring
  have hlarge : 2 ^ 53 ≤ d <<< 53 * 10 ^ k.toNat := by
    rw [Nat.shiftLeft_eq]
    calc 2 ^ 53
      _ ≤ d * 2 ^ 53 := Nat.le_mul_of_pos_left _ hd
      _ ≤ d * 2 ^ 53 * 10 ^ k.toNat := Nat.le_mul_of_pos_right _ (Nat.pow_pos (by decide))
  have hlog := (Nat.le_log2 (by omega)).2 hlarge
  have hround := roundWithAccuracy_of_contains .positive Nat.one_pos hm hc (t := -53)
    (by rw [Nat.div_one]; unfold unitExponent; omega) (hvalue ▸ h)
  rwa [Nat.div_one, accuracyOfFraction_one] at hround

theorem le_log2_div {num den n : Nat} (hnum : num ≠ 0) (hden : 0 < den)
    (h : den.log2 + 1 + n ≤ num.log2) : n ≤ (num / den).log2 := by
  have hle : 2 ^ n ≤ num / den := by
    rw [Nat.le_div_iff_mul_le hden]
    calc 2 ^ n * den
      _ ≤ 2 ^ n * 2 ^ (den.log2 + 1) := Nat.mul_le_mul_left _ Nat.lt_log2_self.le
      _ = 2 ^ (den.log2 + 1 + n) := by rw [← Nat.pow_add, Nat.add_comm]
      _ ≤ 2 ^ num.log2 := Nat.pow_le_pow_right (by decide) h
      _ ≤ num := Nat.log2_self_le hnum
  exact (Nat.le_log2 (Nat.two_pow_pos n |>.trans_le hle).ne').2 hle

theorem div_of_contains (hm : 0 < m) (hc : Canonical m e) (hd : 0 < d) (hk : k < 0)
    (h : (Interval.of m e).Contains (decimal d k)) (hten : 0 < 10 ^ (-k).toNat) :
    Float.Model.UnpackedFloat.div .binary64 (.finite .positive d 0 hd)
      (.finite .positive (10 ^ (-k).toNat) 0 hten) = .finite .positive m e hm := by
  generalize hden : 10 ^ (-k).toNat = den at hten
  obtain ⟨t, ht⟩ : ∃ t, t = min (0 - 0) (Format.binary64.targetExponent
    (totalExponent d 0 - totalExponent den 0)) := ⟨_, rfl⟩
  have hmin : Format.binary64.minExponent = -1074 := by decide
  have ht' : t = min 0 (max ((d.log2 : Int) - den.log2 - 53) (-1074)) := by
    rw [ht]
    simp only [Format.targetExponent, totalExponent, Format.mantissaBits, hmin]
    omega
  have hvalue : ((d <<< (-t).toNat : Nat) : ℚ) / den * 2 ^ t = decimal d k := by
    rw [decimal, zpow_eq_div two_ne_zero t, zpow_eq_div (by norm_num : (10 : ℚ) ≠ 0) k,
      Nat.shiftLeft_eq, show t.toNat = 0 by omega, show k.toNat = 0 by omega, ← hden]
    push_cast
    field_simp
  have hlog := log2_shiftLeft hd.ne' (-t).toNat
  have hunit : t ≤ unitExponent (d <<< (-t).toNat / den) t := by
    unfold unitExponent
    by_cases hleast : t ≤ -1074
    · omega
    · have hnum : d <<< (-t).toNat ≠ 0 := by
        rw [Nat.shiftLeft_eq]
        exact (Nat.mul_pos hd (Nat.two_pow_pos _)).ne'
      have : 52 ≤ (d <<< (-t).toNat / den).log2 := le_log2_div hnum hten (by omega)
      omega
  have hround := roundWithAccuracy_of_contains .positive hten hm hc hunit (hvalue ▸ h)
  simp only [Float.Model.UnpackedFloat.div, Float.Model.UnpackedFloat.divCore, ← ht]
  rw [show (0 - 0 - t : Int) = -t by omega]
  exact hround

theorem ofScientific_of_contains (hm : 0 < m) (hc : Canonical m e)
    (h : (Interval.of m e).Contains (decimal d k)) :
    Float.Model.UnpackedFloat.ofScientific .binary64 d k = .finite .positive m e hm := by
  have hd : 0 < d := by
    have hpos : (0 : ℚ) < 2 ^ (-1076 : Int) := by positivity
    exact decimal_pos_iff.1 (hpos.trans (h.two_zpow_lt hm hc))
  have hhigh := exponent_le_of_decimal_lt hd (h.lt_two_zpow_top hm hc)
  have hlow : -(1076 + d.log2 : Int) ≤ k := le_exponent_of_lt_decimal (h.two_zpow_lt hm hc)
  unfold Float.Model.UnpackedFloat.ofScientific
  rw [dif_neg hd.ne', if_neg (by norm_num; omega), if_neg (by norm_num; omega)]
  split
  · next hk => exact mul_of_contains hm hc hd hk h
  · next hk => exact div_of_contains hm hc hd (by omega) h _

theorem ofDecimal_eq_ofView (d : Nat) (k : Int) (h : d < 2 ^ 1024 * 10 ^ (-k).toNat) :
    ofDecimal d k = ofView (Float.Model.UnpackedFloat.ofScientific .binary64 d k) :=
  if_neg (Nat.not_le_of_lt h)

/-- A decimal in the interval of a float is read as that float. -/
theorem ofDecimal_of_contains (hm : 0 < m) (hc : Canonical m e)
    (h : (Interval.of m e).Contains (decimal d k)) :
    ofDecimal d k = ofView (.finite .positive m e hm) := by
  have hlt : decimal d k < (2 ^ 1024 : Nat) :=
    (h.lt_two_zpow_top hm hc).trans_eq (natCast_two_pow 1024).symm
  have hlimit := lt_of_decimal_lt hlt
  rw [ofDecimal_eq_ofView d k hlimit, ofScientific_of_contains hm hc h]

theorem roundDiv_mul_mul (num den : Nat) {c : Nat} (hc : 0 < c) (tie : Tie) :
    roundDiv (num * c) (den * c) tie = roundDiv num den tie := by
  unfold roundDiv
  rw [Nat.mul_mod_mul_right, Nat.mul_div_mul_right _ _ hc, ← Nat.mul_assoc]
  simp only [Nat.mul_lt_mul_right hc]

theorem roundWithAccuracy_exact (s : Sign) {n : Nat} {t : Int} (ht : t ≤ unitExponent n t) :
    roundWithAccuracy .binary64 s n t .exact =
      carry s (roundDiv n (2 ^ (unitExponent n t - t).toNat) .even) (unitExponent n t) := by
  have hround := roundWithAccuracy_eq_carry s Nat.one_pos (show t ≤ unitExponent (n / 1) t by
    rwa [Nat.div_one])
  rwa [Nat.div_one, accuracyOfFraction_one, Nat.one_mul] at hround

/-- Zeros behind a number do not change its float. -/
theorem roundWithAccuracy_shiftLeft (s : Sign) {n a b : Nat} (hn : n ≠ 0) (hab : a ≤ b)
    (ha : -(a : Int) ≤ unitExponent n 0) :
    roundWithAccuracy .binary64 s (n <<< b) (-b) .exact =
      roundWithAccuracy .binary64 s (n <<< a) (-a) .exact := by
  have hunit (c : Nat) : unitExponent (n <<< c) (-c) = unitExponent n 0 := by
    rw [unitExponent, unitExponent, log2_shiftLeft hn]
    omega
  have hpow : 2 ^ (unitExponent n 0 - -(b : Int)).toNat =
      2 ^ (unitExponent n 0 - -(a : Int)).toNat * 2 ^ (b - a) := by
    rw [← Nat.pow_add]
    congr 1
    omega
  have hshift : n <<< b = n <<< a * 2 ^ (b - a) := by
    rw [Nat.shiftLeft_eq, Nat.shiftLeft_eq, Nat.mul_assoc, ← Nat.pow_add, Nat.add_sub_cancel' hab]
  rw [roundWithAccuracy_exact s (by rw [hunit]; omega),
    roundWithAccuracy_exact s (by rw [hunit]; omega), hunit, hunit, hpow, hshift,
    roundDiv_mul_mul _ _ (Nat.two_pow_pos _)]

theorem lt_two_pow_mul {n a b : Nat} (h : n < 2 ^ a) (hab : a ≤ b) (j : Nat) :
    n < 2 ^ b * 10 ^ j :=
  calc n
    _ < 2 ^ a := h
    _ ≤ 2 ^ b := Nat.pow_le_pow_right (by decide) hab
    _ ≤ 2 ^ b * 10 ^ j := Nat.le_mul_of_pos_right _ (Nat.pow_pos (by decide))

theorem ofDecimal_zero (k : Int) : ofDecimal 0 k = zero .positive := by
  have hpos := lt_two_pow_mul (Nat.two_pow_pos 1024) le_rfl (-k).toNat
  rw [ofDecimal_eq_ofView 0 k hpos, Float.Model.UnpackedFloat.ofScientific, dif_pos rfl]
  rfl

theorem ofDecimal_eq_nearest {n : Nat} (hn : 0 < n) (hlt : n < 2 ^ 1023) :
    ofDecimal n 0 = nearest .positive n 0 := by
  have hlimit := lt_two_pow_mul hlt (show 1023 ≤ 1024 by decide) (-(0 : Int)).toNat
  have hmul : Float.Model.UnpackedFloat.ofScientific .binary64 n 0 =
      roundWithAccuracy .binary64 .positive (n <<< 53 * 1) (-(53 : Nat)) .exact := by
    unfold Float.Model.UnpackedFloat.ofScientific
    rw [dif_neg hn.ne', if_neg (by decide), if_neg (by norm_num), if_pos (by decide)]
    rfl
  have hunit : -((52 - n.log2 : Nat) : Int) ≤ unitExponent n 0 := by
    unfold unitExponent
    omega
  rw [ofDecimal_eq_ofView n 0 hlimit, hmul, Nat.mul_one,
    roundWithAccuracy_shiftLeft .positive hn.ne' (by omega) hunit, nearest_eq]

theorem neg_nearest {n : Nat} (hn : 0 < n) (hlt : n < 2 ^ 1023) :
    -nearest .positive n 0 = nearest .negative n 0 := by
  obtain ⟨q, e, hq, hq52, hlo, hhi, -, hnearest⟩ := exists_nearest hn hlt
  obtain ⟨hle, hlt⟩ := (Nat.log2_eq_iff hq.ne').1 hq52
  rw [hnearest, hnearest, neg_ofView ⟨hlt, hlo, hhi, .inr hle⟩]

end TemplateBinding.Number
