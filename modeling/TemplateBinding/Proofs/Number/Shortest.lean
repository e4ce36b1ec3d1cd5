import TemplateBinding.Proofs.Number.Nearest

set_option autoImplicit false

namespace TemplateBinding.Number

variable {m d : Nat} {e k : Int} {i : Interval} {tie : Tie}

def Interval.scale (i : Interval) (k : Int) : Nat := 2 ^ i.e.toNat * 10 ^ (-k).toNat

def Interval.step (i : Interval) (k : Int) : Nat := 10 ^ k.toNat * 2 ^ (-i.e).toNat

def Interval.below (i : Interval) (k : Int) : Nat := i.value * i.scale k / i.step k

def Interval.holds (i : Interval) (k : Int) (d : Nat) : Bool :=
  if i.closed then i.low * i.scale k ≤ d * i.step k && d * i.step k ≤ i.high * i.scale k
  else i.low * i.scale k < d * i.step k && d * i.step k < i.high * i.scale k

theorem Interval.onGrid?_eq (i : Interval) (tie : Tie) (k : Int) :
    i.onGrid? tie k =
      match i.holds k (i.below k), i.holds k (i.below k + 1) with
      | true, true => some (roundDiv (i.value * i.scale k) (i.step k) tie)
      | true, false => some (i.below k)
      | false, true => some (i.below k + 1)
      | false, false => none := rfl

theorem Interval.step_pos (i : Interval) (k : Int) : 0 < i.step k :=
  Nat.mul_pos (Nat.pow_pos (by decide)) (Nat.two_pow_pos _)

def Interval.common (i : Interval) (k : Int) : Nat := 2 ^ (-i.e).toNat * 10 ^ (-k).toNat

theorem Interval.common_pos (i : Interval) (k : Int) : (0 : ℚ) < i.common k := by
  exact_mod_cast Nat.mul_pos (Nat.two_pow_pos _) (Nat.pow_pos (by decide))

theorem Interval.scaled_eq_div (i : Interval) (k : Int) (x : Nat) :
    scaled x i.e = (x * i.scale k : Nat) / i.common k := by
  rw [scaled, zpow_eq_div two_ne_zero, scale, common]
  push_cast
  field_simp

theorem Interval.decimal_eq_div (i : Interval) (k : Int) (d : Nat) :
    decimal d k = (d * i.step k : Nat) / i.common k := by
  rw [decimal, zpow_eq_div (by norm_num), step, common]
  push_cast
  field_simp

theorem Interval.scaled_le_decimal_iff (x : Nat) :
    scaled x i.e ≤ decimal d k ↔ x * i.scale k ≤ d * i.step k := by
  rw [scaled_eq_div i k, decimal_eq_div i, div_le_div_iff_of_pos_right (i.common_pos k),
    Nat.cast_le]

theorem Interval.decimal_le_scaled_iff (x : Nat) :
    decimal d k ≤ scaled x i.e ↔ d * i.step k ≤ x * i.scale k := by
  rw [scaled_eq_div i k, decimal_eq_div i, div_le_div_iff_of_pos_right (i.common_pos k),
    Nat.cast_le]

theorem Interval.holds_iff : i.holds k d = true ↔ i.Contains (decimal d k) := by
  unfold holds Contains
  split_ifs
  · simp [scaled_le_decimal_iff, decimal_le_scaled_iff]
  · simp [lt_iff_lt_of_le_iff_le (decimal_le_scaled_iff _),
      lt_iff_lt_of_le_iff_le (scaled_le_decimal_iff _)]

theorem Interval.contains_of_onGrid? (h : i.onGrid? tie k = some d) : i.Contains (decimal d k) := by
  rw [onGrid?_eq] at h
  split at h
  · next hbelow habove =>
    obtain rfl := Option.some.inj h
    obtain ⟨hd, -⟩ | ⟨hd, -⟩ := roundDiv_cases (i.value * i.scale k) (i.step k) tie
    · rw [hd]
      exact holds_iff.1 hbelow
    · rw [hd]
      exact holds_iff.1 habove
  · next hbelow _ =>
    obtain rfl := Option.some.inj h
    exact holds_iff.1 hbelow
  · next _ habove =>
    obtain rfl := Option.some.inj h
    exact holds_iff.1 habove
  · cases h

theorem Interval.isSome_onGrid? (h : i.Contains (decimal (i.below k) k) ∨
    i.Contains (decimal (i.below k + 1) k)) : (i.onGrid? tie k).isSome = true := by
  rw [onGrid?_eq]
  rw [← holds_iff, ← holds_iff] at h
  split
  · rfl
  · rfl
  · rfl
  · next hbelow habove => simp [hbelow, habove] at h

/-- The search ends at the first grid that has a decimal in the interval, if there is one. -/
theorem Interval.contains_firstGrid {grids : Nat}
    (h : ∃ j < grids, (i.onGrid? tie (k - (j : Int))).isSome = true) :
    i.Contains (decimal (i.firstGrid tie grids k).digits (i.firstGrid tie grids k).exponent) := by
  induction grids generalizing k with
  | zero =>
    obtain ⟨j, hj, -⟩ := h
    exact absurd hj (Nat.not_lt_zero j)
  | succ grids ih =>
    rw [firstGrid]
    split
    · next d hd => exact contains_of_onGrid? hd
    · next hnone =>
      obtain ⟨j, hj, hsome⟩ := h
      obtain _ | j := j
      · rw [Int.natCast_zero, Int.sub_zero, hnone] at hsome
        cases hsome
      · refine ih ⟨j, by omega, ?_⟩
        rwa [show k - 1 - (j : Int) = k - ((j + 1 : Nat) : Int) by omega]

theorem decimal_succ (d : Nat) (k : Int) : decimal (d + 1) k = decimal d k + 10 ^ k := by
  rw [decimal, decimal]
  push_cast
  ring

theorem scaled_value (m : Nat) (e : Int) :
    scaled (Interval.of m e).value (Interval.of m e).e = m * 2 ^ e := by
  have hvalue : ((Interval.of m e).value : ℚ) = 4 * m := by
    unfold Interval.of
    push_cast
    ring
  have he : (Interval.of m e).e = e - 2 := rfl
  rw [he, scaled_sub_two, hvalue]
  ring

theorem decimal_below_le (m : Nat) (e k : Int) :
    decimal ((Interval.of m e).below k) k ≤ m * 2 ^ e := by
  rw [← scaled_value, Interval.decimal_le_scaled_iff]
  exact Nat.div_mul_le_self _ _

theorem lt_decimal_below (m : Nat) (e k : Int) :
    m * 2 ^ e < decimal ((Interval.of m e).below k + 1) k := by
  rw [← scaled_value, ← not_le, Interval.decimal_le_scaled_iff, not_le]
  exact Nat.lt_mul_of_div_lt (Nat.lt_succ_self _) (Interval.step_pos _ k)

theorem Interval.contains_of_lt {v : ℚ} (hm : 0 < m) (hlow : (m - gapBelow m e) * 2 ^ e < v)
    (hhigh : v < (m + 1 / 2) * 2 ^ e) : (Interval.of m e).Contains v := by
  rw [contains_of_iff hm]
  split_ifs
  · exact ⟨hlow.le, hhigh.le⟩
  · exact ⟨hlow, hhigh⟩

/-- A grid of a step not above the last of 17 digits has a neighbour of the float that is in the
interval. -/
theorem isSome_onGrid?_of_le (hm : 0 < m) (hc : Canonical m e)
    (hk : 10 ^ k * 10 ^ 16 ≤ (m : ℚ) * 2 ^ e) :
    ((Interval.of m e).onGrid? tie k).isSome = true := by
  have he : (0 : ℚ) < 2 ^ e := by positivity
  have hbelow := decimal_below_le m e k
  have habove := lt_decimal_below m e k
  have hgap := mul_pos (gapBelow_pos m e) he
  rw [decimal_succ] at habove
  apply Interval.isSome_onGrid?
  rw [decimal_succ]
  by_cases hhigh : decimal ((Interval.of m e).below k) k + 10 ^ k < (m + 1 / 2) * 2 ^ e
  · exact .inr (Interval.contains_of_lt hm (by linarith) hhigh)
  · refine .inl (Interval.contains_of_lt hm ?_ (by linarith))
    -- The neighbour above is too far away, so the one below is at most half a unit away.
    by_cases hhalf : m = 2 ^ 52 ∧ -1074 < e
    · obtain ⟨rfl, -⟩ := hhalf
      push_cast at *
      linarith
    · have hmantissa : (m : ℚ) * 2 ^ e < 2 ^ 53 * 2 ^ e := by
        have : (m : ℚ) < 2 ^ 53 := by exact_mod_cast hc.mantissa_lt
        gcongr
      rw [gapBelow, if_neg hhalf]
      linarith

/-- The first digit of a quotient stands at a power of ten that is not above it. -/
theorem zpow_decimalExponent_le {a b : Nat} (ha : 0 < a) (hb : 0 < b) :
    (10 : ℚ) ^ decimalExponent a b ≤ a / b := by
  have hb' : (0 : ℚ) < b := by exact_mod_cast hb
  unfold decimalExponent
  split
  · next hle =>
    have hq : a / b ≠ 0 := (Nat.div_pos hle hb).ne'
    have hcount : digitCount (a / b) ≠ 0 := fun hzero => by
      have := lt_pow_digitCount (a / b)
      rw [hzero, Nat.pow_zero] at this
      exact hq (Nat.lt_one_iff.1 this)
    calc (10 : ℚ) ^ ((digitCount (a / b) : Int) - 1)
      _ = (10 ^ (digitCount (a / b) - 1) : Nat) := by
        rw [show (digitCount (a / b) : Int) - 1 = (digitCount (a / b) - 1 : Nat) by omega,
          zpow_natCast]
        push_cast
        rfl
      _ ≤ (a / b : Nat) := by exact_mod_cast pow_le_of_digitCount hq
      _ ≤ a / b := Nat.cast_div_le
  · next hlt =>
    have hle : b ≤ 10 ^ digitCount ((b - 1) / a) * a := by
      have := (Nat.div_lt_iff_lt_mul ha).1 (lt_pow_digitCount ((b - 1) / a))
      omega
    rw [zpow_neg, zpow_natCast, inv_le_comm₀ (by positivity) (by positivity), inv_div,
      div_le_iff₀ (by exact_mod_cast ha)]
    exact_mod_cast hle

theorem Scientific.decimal_normalize (x : Scientific) :
    decimal x.normalize.digits x.normalize.exponent = decimal x.digits x.exponent := by
  fun_induction Scientific.normalize x with
  | case1 x h ih =>
    have hdigits : (x.digits : ℚ) = (x.digits / 10 : Nat) * 10 := by
      exact_mod_cast (Nat.div_mul_cancel (Nat.dvd_of_mod_eq_zero h.2)).symm
    rw [ih, decimal, decimal, zpow_add_one₀ (by norm_num), hdigits]
    ring
  | case2 => rfl

/-- The shortest decimal of a float is in its interval. -/
theorem contains_shortest (tie : Tie) (hm : 0 < m) (hc : Canonical m e) :
    (Interval.of m e).Contains
      (decimal (shortest tie m e).digits (shortest tie m e).exponent) := by
  have hexponent : (10 : ℚ) ^ decimalExponent (m * 2 ^ e.toNat) (2 ^ (-e).toNat) ≤ m * 2 ^ e := by
    have hle := zpow_decimalExponent_le (Nat.mul_pos hm (Nat.two_pow_pos e.toNat))
      (Nat.two_pow_pos (-e).toNat)
    rw [zpow_eq_div two_ne_zero e, ← mul_div_assoc]
    exact_mod_cast hle
  rw [shortest, Scientific.decimal_normalize]
  refine Interval.contains_firstGrid ⟨16, by decide, isSome_onGrid?_of_le hm hc ?_⟩
  calc (10 : ℚ) ^ (decimalExponent (m * 2 ^ e.toNat) (2 ^ (-e).toNat) - (16 : Nat)) * 10 ^ 16
    _ = 10 ^ decimalExponent (m * 2 ^ e.toNat) (2 ^ (-e).toNat) := by
      rw [zpow_sub₀ (by norm_num)]
      norm_num
    _ ≤ m * 2 ^ e := hexponent

end TemplateBinding.Number
