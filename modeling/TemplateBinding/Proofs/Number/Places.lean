import TemplateBinding.Proofs.Number.Retaining
import TemplateBinding.Proofs.Number.Sizes

set_option autoImplicit false

namespace TemplateBinding.Number

open Float.Model (UnpackedFloat)

variable {num den places n : Nat} {s : Sign} {a b r : ℚ}

/-- The whole number nearest to the rational, the greater one in absolute value if there are two. -/
def awayFromZero (r : ℚ) : Int := if r < 0 then -⌊-r + 1 / 2⌋₊ else ⌊r + 1 / 2⌋₊

theorem awayFromZero_on (s : Sign) (hr : 0 ≤ r) :
    awayFromZero (Sign.on s r) = s.apply ⌊r + 1 / 2⌋₊ := by
  have hhalf : ⌊(0 : ℚ) + 1 / 2⌋₊ = 0 := by norm_num
  cases s with
  | positive => exact if_neg hr.not_gt
  | negative =>
    obtain rfl | hpos := hr.eq_or_lt
    · rw [Sign.on, neg_zero, awayFromZero, if_neg (lt_irrefl _), hhalf]
      rfl
    · rw [Sign.on, awayFromZero, if_pos (neg_neg_of_pos hpos), neg_neg]
      rfl

theorem div_eq_add_div (num : Nat) (hden : 0 < den) :
    (num : ℚ) / den = (num / den : Nat) + (num % den : Nat) / den := by
  have hsplit : (num : ℚ) = den * (num / den : Nat) + (num % den : Nat) := by
    exact_mod_cast (Nat.div_add_mod num den).symm
  have hpos : (den : ℚ) ≠ 0 := by exact_mod_cast hden.ne'
  rw [div_eq_iff hpos, add_mul, div_mul_cancel₀ _ hpos, mul_comm, ← hsplit]

theorem roundDiv_away (num : Nat) (hden : 0 < den) :
    roundDiv num den .away = ⌊(num : ℚ) / den + 1 / 2⌋₊ := by
  have hpos : (0 : ℚ) < den := by exact_mod_cast hden
  have hfraction : (num % den : Nat) / (den : ℚ) < 1 := by
    rw [div_lt_one hpos]
    exact_mod_cast Nat.mod_lt num hden
  have hnonneg : (0 : ℚ) ≤ (num % den : Nat) / (den : ℚ) := by positivity
  symm
  rw [Nat.floor_eq_iff (by positivity), div_eq_add_div num hden]
  by_cases hhalf : 2 * (num % den) < den
  · have hround : roundDiv num den .away = num / den := if_pos hhalf
    have hlt : (num % den : Nat) / (den : ℚ) < 1 / 2 := by
      rw [div_lt_div_iff₀ hpos two_pos, one_mul, mul_comm]
      exact_mod_cast hhalf
    rw [hround]
    constructor <;> linarith
  · have hround : roundDiv num den .away = num / den + 1 := by
      rw [roundDiv, if_neg hhalf]
      exact ite_self _
    have hle : 1 / 2 ≤ (num % den : Nat) / (den : ℚ) := by
      rw [div_le_div_iff₀ two_pos hpos, one_mul, mul_comm]
      exact_mod_cast Nat.le_of_not_lt hhalf
    rw [hround]
    push_cast
    constructor <;> linarith

/-- The number lies half-way between a whole number that is even and the next one. -/
def IsEvenTie (r : ℚ) : Prop := ∃ j : Nat, r = 2 * j + 1 / 2

theorem isEvenTie_div_iff (hden : 0 < den) :
    IsEvenTie ((num : ℚ) / den) ↔ 2 * (num % den) = den ∧ num / den % 2 = 0 := by
  have hpos : (den : ℚ) ≠ 0 := by exact_mod_cast hden.ne'
  constructor
  · rintro ⟨j, hj⟩
    rw [div_eq_iff hpos] at hj
    have hmul : 2 * num = den + den * (2 * j) * 2 := by
      have hq : (2 * num : ℚ) = den + den * (2 * j) * 2 := by rw [hj]; ring
      exact_mod_cast hq
    have hquotient : num / den = 2 * j := by
      refine (Nat.div_eq_iff hden).2 ⟨?_, ?_⟩ <;> rw [Nat.mul_comm] <;> omega
    have hrest := Nat.div_add_mod num den
    rw [hquotient] at hrest ⊢
    omega
  · rintro ⟨hhalf, heven⟩
    refine ⟨num / den / 2, ?_⟩
    have hrest : (num % den : Nat) / (den : ℚ) = 1 / 2 := by
      rw [div_eq_div_iff hpos two_ne_zero, mul_comm, one_mul]
      exact_mod_cast hhalf
    have hquotient : ((num / den : Nat) : ℚ) = 2 * (num / den / 2 : Nat) := by
      exact_mod_cast (show num / den = 2 * (num / den / 2) by omega)
    rw [div_eq_add_div num hden, hrest, hquotient]

theorem roundDiv_even_of_not_tie (hden : 0 < den) (h : ¬IsEvenTie ((num : ℚ) / den)) :
    roundDiv num den .even = roundDiv num den .away := by
  rw [isEvenTie_div_iff hden] at h
  unfold roundDiv
  split
  · rfl
  · split
    · rfl
    · dsimp only
      omega

theorem roundDiv_even_of_tie (hden : 0 < den) {j : Nat} (h : (num : ℚ) / den = 2 * j + 1 / 2) :
    roundDiv num den .even = 2 * j := by
  obtain ⟨hhalf, heven⟩ := (isEvenTie_div_iff hden).1 ⟨j, h⟩
  have haway := roundDiv_away num hden
  have hfloor : ⌊(num : ℚ) / den + 1 / 2⌋₊ = 2 * j + 1 := by
    rw [h, add_assoc, show (1 / 2 + 1 / 2 : ℚ) = 1 by norm_num]
    exact_mod_cast Nat.floor_natCast (2 * j + 1)
  rw [hfloor] at haway
  unfold roundDiv at haway ⊢
  rw [if_neg (by omega), if_neg (by omega)] at haway ⊢
  dsimp only at haway ⊢
  omega

/-- How the number `k` of units with so many places comes from `q`, through `y`. -/
structure Rounds (places : Nat) (q y : ℚ) (k : Int) : Prop where
  /-- Nothing is lost before rounding if there are more than 28 places, nor of a number that a
  decimal holds, nor of one that is too great for a decimal. -/
  exact : 28 < places ∨ Decimal.Fits |q| ∨ Decimal.limit < |q| → y = q
  near : |y - q| ≤ 10 ^ (-28 : Int) + |q| / 2 ^ 83
  /-- The sign stays. -/
  sign : (0 ≤ q → 0 ≤ y ∧ 0 ≤ k) ∧ (q ≤ 0 → y ≤ 0 ∧ k ≤ 0)
  /-- Rounding goes away from zero in a tie. -/
  away : ¬(28 < places ∧ IsEvenTie (|q| * 10 ^ places)) → k = awayFromZero (y * 10 ^ places)
  /-- With more than 28 places it goes to an even number in a tie. -/
  even : ∀ j : Nat, 28 < places → |q| * 10 ^ places = 2 * j + 1 / 2 →
    k.natAbs = 2 * j ∧ (awayFromZero (q * 10 ^ places)).natAbs = 2 * j + 1
  /-- The number is rounded as if nothing were lost, away from zero, just when there is no such tie
  and what is lost does not lead past a half. -/
  correct : k = awayFromZero (q * 10 ^ places) ↔
    ¬(28 < places ∧ IsEvenTie (|q| * 10 ^ places)) ∧
      ∀ j : Nat, j + 1 / 2 ≤ |q| * 10 ^ places ↔ j + 1 / 2 ≤ |y| * 10 ^ places

theorem Sign.abs_on (s : Sign) (ha : 0 ≤ a) : |Sign.on s a| = a := by
  cases s with
  | negative => rw [Sign.on, abs_neg, abs_of_nonneg ha]
  | positive => rw [Sign.on, abs_of_nonneg ha]

theorem Sign.on_sub (s : Sign) (a b : ℚ) : Sign.on s a - Sign.on s b = Sign.on s (a - b) := by
  cases s with
  | negative => exact (neg_sub_neg a b).trans (neg_sub a b).symm
  | positive => rfl

theorem Sign.abs_on_sub (s : Sign) (a b : ℚ) : |Sign.on s a - Sign.on s b| = |a - b| := by
  rw [Sign.on_sub]
  cases s with
  | negative => exact abs_neg _
  | positive => rfl

theorem Sign.apply_inj (s : Sign) {m n : Nat} : s.apply m = s.apply n ↔ m = n := by
  cases s <;> simp only [UnpackedFloat.Sign.apply] <;> omega

theorem Sign.on_signs (s : Sign) (ha : 0 ≤ a) (hb : 0 ≤ b) (hab : a = 0 → b = 0 ∧ n = 0) :
    (0 ≤ Sign.on s a → 0 ≤ Sign.on s b ∧ 0 ≤ s.apply n) ∧
      (Sign.on s a ≤ 0 → Sign.on s b ≤ 0 ∧ s.apply n ≤ 0) := by
  obtain rfl | hpos := ha.eq_or_lt
  · obtain ⟨rfl, rfl⟩ := hab rfl
    cases s <;> simp [Sign.on, UnpackedFloat.Sign.apply]
  · cases s <;> simp [Sign.on, UnpackedFloat.Sign.apply, hpos.not_ge, hb]

/-- Two numbers are rounded to the same one when no half lies between them. -/
theorem floor_add_half_eq_iff (ha : 0 ≤ a) (hb : 0 ≤ b) :
    ⌊b + 1 / 2⌋₊ = ⌊a + 1 / 2⌋₊ ↔ ∀ j : Nat, (j : ℚ) + 1 / 2 ≤ a ↔ (j : ℚ) + 1 / 2 ≤ b := by
  have hstep {r : ℚ} (hr : 0 ≤ r) (j : Nat) : j + 1 / 2 ≤ r ↔ j < ⌊r + 1 / 2⌋₊ := by
    rw [← Nat.succ_le_iff, Nat.le_floor_iff (by positivity)]
    push_cast
    constructor <;> intro h <;> linarith
  simp only [hstep ha, hstep hb]
  constructor
  · intro h j
    rw [h]
  · intro h
    exact Nat.le_antisymm (Nat.le_of_not_lt fun hlt => (h _).2 hlt |>.false)
      (Nat.le_of_not_lt fun hlt => (h _).1 hlt |>.false)

/-- Rounding away from zero what is kept of a number. -/
theorem rounds_away (s : Sign) (ha : 0 ≤ a) (hb : 0 ≤ b)
    (hexact : 28 < places ∨ Decimal.Fits a ∨ Decimal.limit < a → b = a)
    (hnear : |b - a| ≤ 10 ^ (-28 : Int) + a / 2 ^ 83)
    (htie : ¬(28 < places ∧ IsEvenTie (a * 10 ^ places)))
    (hn : n = ⌊b * 10 ^ places + 1 / 2⌋₊) :
    Rounds places (Sign.on s a) (Sign.on s b) (s.apply n) := by
  have hpow : (0 : ℚ) ≤ 10 ^ places := by positivity
  have hzero (h : a = 0) : b = 0 :=
    (hexact (.inr (.inl ⟨0, 0, by decide, by decide, by rw [h]; simp⟩))).trans h
  constructor
  · rw [Sign.abs_on s ha]
    exact fun h => by rw [hexact h]
  · rwa [Sign.abs_on_sub, Sign.abs_on s ha]
  · refine Sign.on_signs s ha hb fun h => ⟨hzero h, ?_⟩
    rw [hn, hzero h, zero_mul]
    norm_num
  · rw [← Sign.on_mul, awayFromZero_on s (mul_nonneg hb hpow), hn]
    exact fun _ => rfl
  · rw [Sign.abs_on s ha]
    exact fun j hp hj => absurd ⟨hp, j, hj⟩ htie
  · rw [Sign.abs_on s ha, Sign.abs_on s hb, ← Sign.on_mul, awayFromZero_on s (mul_nonneg ha hpow),
      Sign.apply_inj, hn, floor_add_half_eq_iff (mul_nonneg ha hpow) (mul_nonneg hb hpow)]
    exact (and_iff_right htie).symm

/-- Rounding a number itself, to the even neighbour in a tie. -/
theorem rounds_even (s : Sign) (ha : 0 ≤ a) {j : Nat} (hp : 28 < places)
    (hj : a * 10 ^ places = 2 * j + 1 / 2) :
    Rounds places (Sign.on s a) (Sign.on s a) (s.apply (2 * j : Nat)) := by
  have hpow : (0 : ℚ) < 10 ^ places := by positivity
  have htie : 28 < places ∧ IsEvenTie (a * 10 ^ places) := ⟨hp, j, hj⟩
  have hfloor : ⌊a * 10 ^ places + 1 / 2⌋₊ = 2 * j + 1 := by
    rw [hj, add_assoc, show (1 / 2 + 1 / 2 : ℚ) = 1 by norm_num]
    exact_mod_cast Nat.floor_natCast (2 * j + 1)
  have haway : awayFromZero (Sign.on s a * 10 ^ places) = s.apply (2 * j + 1 : Nat) := by
    rw [← Sign.on_mul, awayFromZero_on s (mul_nonneg ha hpow.le), hfloor]
  constructor
  · exact fun _ => rfl
  · rw [sub_self, abs_zero]
    positivity
  · refine Sign.on_signs s ha ha fun h => ?_
    rw [h, zero_mul] at hj
    have : (0 : ℚ) ≤ j := Nat.cast_nonneg j
    linarith
  · rw [Sign.abs_on s ha]
    exact fun h => absurd htie h
  · intro i _ hi
    rw [Sign.abs_on s ha, hj, add_left_inj] at hi
    obtain rfl : j = i := by
      have : (j : ℚ) = i := by linarith
      exact_mod_cast this
    rw [haway]
    cases s <;> simp only [UnpackedFloat.Sign.apply] <;> omega
  · rw [haway, Sign.apply_inj, Sign.abs_on s ha]
    exact ⟨fun h => absurd h (by omega), fun h => absurd htie h.1⟩

theorem rounds_zero (places : Nat) : Rounds places 0 0 0 := by
  have htie : ¬(28 < places ∧ IsEvenTie (0 * 10 ^ places)) := by
    rintro ⟨-, j, hj⟩
    rw [zero_mul] at hj
    have : (0 : ℚ) ≤ j := Nat.cast_nonneg j
    linarith
  refine rounds_away (n := 0) .positive (le_refl 0) (le_refl 0) (fun _ => rfl) ?_ htie ?_
  · norm_num
  · rw [zero_mul]
    norm_num

/-- The text is a sign or none, digits, and a point with so many digits behind it, or none if there
are to be no such digits; and it writes the number `k / 10 ^ places`. -/
def WritesFixed (cs : List Char) (places : Nat) (k : Int) : Prop :=
  ∃ (s : Sign) (whole fraction : List Char),
    cs = signed (Sign.isNegative s)
      (whole ++ if places = 0 then [] else '.' :: fraction) ∧
    whole ≠ [] ∧ fraction.length = places ∧ (∀ c ∈ whole ++ fraction, c.isDigit = true) ∧
    s.apply (digitsValue (whole ++ fraction)) = k

theorem writesFixed_withPoint (s : Sign) (n places : Nat) :
    WritesFixed (signed (Sign.isNegative s) (withPoint n places)) places (s.apply n) := by
  have hlength := lt_length_padded n places
  refine ⟨s, (padded n places).take ((padded n places).length - places),
    (padded n places).drop ((padded n places).length - places), rfl, ?_, ?_, ?_, ?_⟩
  · refine List.ne_nil_of_length_pos ?_
    rw [List.length_take]
    omega
  · rw [List.length_drop]
    omega
  · rw [List.take_append_drop]
    exact fun c hc => isDigit_of_mem_padded hc
  · rw [List.take_append_drop, padded, digitsValue_append_digits]

theorem writesFixed_zero (negative : Bool) (places : Nat) :
    WritesFixed (signed negative (withPoint 0 places)) places 0 := by
  cases negative with
  | true => exact writesFixed_withPoint .negative 0 places
  | false => exact writesFixed_withPoint .positive 0 places

theorem floor_natCast_add_half (n : Nat) : ⌊(n : ℚ) + 1 / 2⌋₊ = n :=
  (Nat.floor_eq_iff (by positivity)).2 ⟨by linarith, by linarith⟩

/-- The digits of a decimal write it rounded away from zero. -/
theorem Decimal.writesFixed_roundPlaces {d : Decimal} (hsign : d.negative = Sign.isNegative s)
    (places : Nat) :
    WritesFixed ((d.roundPlaces places).withPlaces places) places
      (s.apply ⌊d.magnitude * 10 ^ places + 1 / 2⌋₊) := by
  have hmagnitude : d.magnitude = d.mantissa / 10 ^ d.scale := decimal_neg _ _
  unfold Decimal.roundPlaces
  split
  · next hle =>
    obtain ⟨j, rfl⟩ := Nat.exists_eq_add_of_le hle
    have hvalue : d.magnitude * 10 ^ (d.scale + j) = (d.mantissa * 10 ^ j : Nat) := by
      rw [hmagnitude, pow_add]
      push_cast
      field_simp
    rw [hvalue, floor_natCast_add_half, Decimal.withPlaces, Nat.add_sub_cancel_left, hsign]
    exact writesFixed_withPoint s _ _
  · next hgt =>
    obtain ⟨j, hj⟩ := Nat.exists_eq_add_of_le (Nat.le_of_not_le hgt)
    have hvalue : d.magnitude * 10 ^ places = (d.mantissa : ℚ) / (10 ^ j : Nat) := by
      rw [hmagnitude, hj, pow_add]
      push_cast
      field_simp
    have hround := roundDiv_away d.mantissa (Nat.pow_pos (n := j) (show 0 < 10 by decide))
    rw [hvalue, ← hround]
    simp only [Decimal.withPlaces, Nat.sub_self, Nat.pow_zero, Nat.mul_one, hj,
      Nat.add_sub_cancel_left]
    generalize roundDiv d.mantissa (10 ^ j) .away = m
    obtain rfl | hm := Nat.eq_zero_or_pos m
    · rw [show s.apply (0 : Nat) = 0 by cases s <;> rfl]
      exact writesFixed_zero _ places
    · rw [bne_iff_ne.2 hm.ne', Bool.true_or, Bool.and_true, hsign]
      exact writesFixed_withPoint s m places

end TemplateBinding.Number
