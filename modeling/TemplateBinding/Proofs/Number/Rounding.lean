import Mathlib
import TemplateBinding.Number.Binary
import TemplateBinding.Number.Round

set_option autoImplicit false

namespace TemplateBinding.Number

open Float.Model (Format totalExponent)
open Float.Model.UnpackedFloat (ExtendedMantissa shiftToTargetExponent shiftToExponent
  roundWithAccuracy decreaseExponent accuracyOfFraction pack unpack packComponents unpackExponent_packComponents
  unpackMantissa_packComponents unpackSign_packComponents)

theorem unpack_packComponents {s : Sign} {b : BitVec 11} {f : BitVec 52} {m : Nat} {e : Int}
    (h : 0 < m) (hb : b ≠ 0#11) (hb' : b ≠ -1#11) (hf : (1#1 ++ f).toNat = m)
    (he : (b.toNat : Int) = e + 1075) :
    unpack .binary64 (packComponents .binary64 s b f) = .finite s m e h := by
  have hexp : (b.toNat : Int) - (Format.binary64.exponentBias +
      Format.binary64.mantissaBitsWithoutImplicit) = e := by
    simp only [Format.exponentBias]
    omega
  unfold unpack
  simp only [unpackExponent_packComponents, unpackMantissa_packComponents,
    unpackSign_packComponents, Float.Model.UnpackedFloat.Sign.ofBitVec_toBitVec, if_neg hb,
    if_neg hb', hf, hexp]

theorem toNat_hiddenBit {m : Nat} (hm : m.log2 = 52) (h : m ≠ 0) :
    (1#1 ++ BitVec.ofNat 52 m).toNat = m := by
  obtain ⟨hlo, hhi⟩ := (Nat.log2_eq_iff h).1 hm
  rw [toNat_hiddenBit_append, BitVec.toNat_ofNat]
  omega

theorem view_ofView {s : Sign} {m : Nat} {e : Int} {h : 0 < m} (hm : m.log2 = 52)
    (hlo : -1074 ≤ e) (hhi : e ≤ 971) : view (ofView (.finite s m e h)) = .finite s m e h := by
  have hb : ((e + 1075).toNat : Int) = e + 1075 := by omega
  have hpack : pack .binary64 (.finite s m e h) =
      packComponents .binary64 s (BitVec.ofNat 11 (e + 1075).toNat) (BitVec.ofNat 52 m) := by
    unfold pack
    have hbias : (e + Format.binary64.exponentBias +
        Format.binary64.mantissaBitsWithoutImplicit).toNat = (e + 1075).toNat := by
      simp [Format.exponentBias]
      omega
    simp only [hbias]
    rw [if_neg (by norm_num; omega), if_pos (by rw [hm]; rfl)]
  have hbits : (BitVec.ofNat 11 (e + 1075).toNat).toNat = (e + 1075).toNat := by
    rw [BitVec.toNat_ofNat, Nat.mod_eq_of_lt (by omega)]
  have hzero : BitVec.ofNat 11 (e + 1075).toNat ≠ 0#11 := fun heq => by
    have := congrArg BitVec.toNat heq
    rw [hbits, BitVec.toNat_ofNat] at this
    omega
  have htop : BitVec.ofNat 11 (e + 1075).toNat ≠ -1#11 := fun heq => by
    have := congrArg BitVec.toNat heq
    rw [hbits] at this
    norm_num at this
    omega
  calc view (ofView (.finite s m e h))
    _ = unpack .binary64 (pack .binary64 (.finite s m e h)) := rfl
    _ = .finite s m e h := by
        rw [hpack]
        exact unpack_packComponents h hzero htop (toNat_hiddenBit hm h.ne') (by rw [hbits, hb])

def lostBits (m : Nat) : Nat := m.log2 - 52

/-- The mantissa and the two bits behind it tell of a quotient: the first of them whether half a unit
or more is left, the second whether it is neither nothing nor half. -/
structure Tells (num den : Nat) (em : ExtendedMantissa) : Prop where
  mantissa : em.mantissa = num / den
  roundBit : em.roundBit = true ↔ den ≤ 2 * (num % den)
  stickyBit : em.stickyBit = true ↔ num % den ≠ 0 ∧ 2 * (num % den) ≠ den

theorem Tells.shiftRightOne {num den : Nat} {em : ExtendedMantissa} (hden : 0 < den)
    (h : Tells num den em) : Tells num (den * 2) em.shiftRightOne := by
  obtain ⟨hm, hr, hs⟩ := h
  have hlt : num % den < den := Nat.mod_lt num hden
  -- The bit that is shifted out goes before those that were shifted out earlier.
  have hmod : num % (den * 2) = num % den + den * (num / den % 2) := Nat.mod_mul
  have hbit : num / den % 2 = 0 ∨ num / den % 2 = 1 := by omega
  refine ⟨?_, ?_, ?_⟩
  · rw [ExtendedMantissa.shiftRightOne, hm, Nat.div_div_eq_div_mul]
  · rw [ExtendedMantissa.shiftRightOne, hm, hmod]
    obtain hb | hb := hbit
    · simp [hb]
      omega
    · simp [hb]
      omega
  · rw [ExtendedMantissa.shiftRightOne, hmod, Bool.or_eq_true_iff, hr, hs]
    obtain hb | hb := hbit <;> simp only [hb] <;> omega

theorem Tells.shiftRight {num den : Nat} {em : ExtendedMantissa} (hden : 0 < den)
    (h : Tells num den em) (k : Nat) : Tells num (den * 2 ^ k) (em >>> k) := by
  induction k with
  | zero => rwa [Nat.pow_zero, Nat.mul_one]
  | succ k ih =>
    rw [Nat.pow_succ, ← Nat.mul_assoc]
    exact ih.shiftRightOne (Nat.mul_pos hden (Nat.two_pow_pos k))

/-- Shifting bits out and rounding what is left is division with rounding. -/
theorem Tells.roundedMantissa {num den : Nat} {em : ExtendedMantissa} (h : Tells num den em) :
    em.roundedMantissa = roundDiv num den .even := by
  obtain ⟨hm, hr, hs⟩ := h
  obtain ⟨q, r, s⟩ := em
  obtain rfl : q = num / den := hm
  unfold roundDiv
  cases r <;> cases s <;>
    simp only [Bool.false_eq_true, false_iff, true_iff] at hr hs <;>
    simp only [ExtendedMantissa.roundedMantissa, ExtendedMantissa.accuracy,
      Float.Model.UnpackedFloat.Accuracy.roundToNearestEven] <;>
    grind

theorem tells_accuracyOfFraction (num : Nat) {den : Nat} (hden : 0 < den) :
    Tells num den (.ofMantissaAndAccuracy (num / den) (accuracyOfFraction (num % den) den)) := by
  unfold accuracyOfFraction
  split
  · next h => exact ⟨rfl, by simp [ExtendedMantissa.ofMantissaAndAccuracy, h, hden.ne'],
      by simp [ExtendedMantissa.ofMantissaAndAccuracy, h]⟩
  · next h =>
    obtain hlt | heq | hgt := Nat.lt_trichotomy (2 * (num % den)) den
    · rw [Nat.compare_eq_lt.2 hlt]
      exact ⟨rfl, by simp [ExtendedMantissa.ofMantissaAndAccuracy, hlt],
        by simp [ExtendedMantissa.ofMantissaAndAccuracy, h, hlt.ne]⟩
    · rw [Nat.compare_eq_eq.2 heq]
      exact ⟨rfl, by simp [ExtendedMantissa.ofMantissaAndAccuracy, heq],
        by simp [ExtendedMantissa.ofMantissaAndAccuracy, heq]⟩
    · rw [Nat.compare_eq_gt.2 hgt]
      exact ⟨rfl, by simp [ExtendedMantissa.ofMantissaAndAccuracy, hgt.le],
        by simp [ExtendedMantissa.ofMantissaAndAccuracy, h, hgt.ne']⟩

theorem accuracyOfFraction_one (m : Nat) : accuracyOfFraction (m % 1) 1 = .exact := by
  rw [Nat.mod_one]
  rfl

theorem tells_shiftRight (m k : Nat) :
    Tells m (2 ^ k) (ExtendedMantissa.ofMantissaAndAccuracy m .exact >>> k) := by
  have htells := (tells_accuracyOfFraction m Nat.one_pos).shiftRight Nat.one_pos k
  rwa [accuracyOfFraction_one, Nat.div_one, Nat.one_mul] at htells

theorem shiftToTargetExponent_eq {m : Nat} {e : Int} (he : -1074 ≤ e) :
    shiftToTargetExponent .binary64 m e .exact =
      (ExtendedMantissa.ofMantissaAndAccuracy m .exact >>> lostBits m, e + lostBits m) := by
  have hshift : (Format.binary64.targetExponent (totalExponent m e) - e).toNat = lostBits m := by
    have hmin : Format.binary64.minExponent = -1074 := by decide
    simp only [Format.targetExponent, totalExponent, Format.mantissaBits, hmin, lostBits]
    omega
  simp only [shiftToTargetExponent, shiftToExponent, hshift]

/-- The mantissa of a float before a carry: at most `2 ^ 53`. -/
def mantissaOf (m : Nat) : Nat := roundDiv m (2 ^ lostBits m) .even

theorem roundDiv_mul (k : Nat) {den : Nat} (hden : 0 < den) (tie : Tie) :
    roundDiv (k * den) den tie = k := by
  unfold roundDiv
  rw [Nat.mul_mod_left, if_pos (by omega), Nat.mul_div_cancel k hden]

theorem roundDiv_one (m : Nat) (tie : Tie) : roundDiv m 1 tie = m := by
  simpa using roundDiv_mul m Nat.one_pos tie

theorem mantissaOf_le (m : Nat) : mantissaOf m ≤ 2 ^ 53 := by
  have hm : m < 2 ^ (m.log2 + 1) := Nat.lt_log2_self
  have hq : m / 2 ^ lostBits m < 2 ^ 53 := by
    rw [Nat.div_lt_iff_lt_mul (Nat.two_pow_pos _), ← Nat.pow_add]
    refine Nat.lt_of_lt_of_le hm (Nat.pow_le_pow_right (by decide) ?_)
    unfold lostBits
    omega
  obtain ⟨h, -⟩ | ⟨h, -⟩ := roundDiv_cases m (2 ^ lostBits m) .even <;> rw [mantissaOf, h] <;> omega

theorem le_mantissaOf {m : Nat} (hm : 52 ≤ m.log2) : 2 ^ 52 ≤ mantissaOf m := by
  have h0 : m ≠ 0 := fun h => by simp [h] at hm
  have hq : 2 ^ 52 ≤ m / 2 ^ lostBits m := by
    rw [Nat.le_div_iff_mul_le (Nat.two_pow_pos _), ← Nat.pow_add, lostBits,
      Nat.add_sub_cancel' hm]
    exact Nat.log2_self_le h0
  obtain ⟨h, -⟩ | ⟨h, -⟩ := roundDiv_cases m (2 ^ lostBits m) .even <;> rw [mantissaOf, h] <;> omega

theorem lostBits_eq_zero {m : Nat} (hm : m < 2 ^ 53) : lostBits m = 0 := by
  by_cases h : m = 0
  · simp [h, lostBits]
  · have := (Nat.log2_lt h).2 hm
    unfold lostBits
    omega

/-- A natural number of at least 53 bits becomes a float with exactly 53 bits. -/
theorem exists_roundWithAccuracy {m : Nat} {e : Int} (hm : 52 ≤ m.log2) (he : -1074 ≤ e) :
    ∃ (q c : Nat) (h : 0 < q), c ≤ 1 ∧ q.log2 = 52 ∧ q * 2 ^ c = mantissaOf m ∧
      ∀ s : Sign, roundWithAccuracy .binary64 s m e .exact =
        .finite s q (e + lostBits m + c) h := by
  have hfirst : (ExtendedMantissa.ofMantissaAndAccuracy m .exact >>> lostBits m).roundedMantissa =
      mantissaOf m := (tells_shiftRight m _).roundedMantissa
  have hhi := mantissaOf_le m
  have hlo := le_mantissaOf hm
  -- Rounding up may have carried into a bit more, which is zero behind the first one.
  have hcarry : ∃ q c : Nat, c ≤ 1 ∧ 2 ^ 52 ≤ q ∧ q < 2 ^ 53 ∧ q * 2 ^ c = mantissaOf m ∧
      lostBits (mantissaOf m) = c ∧ mantissaOf m / 2 ^ c = q := by
    obtain hlt | heq := Nat.lt_or_eq_of_le hhi
    · exact ⟨mantissaOf m, 0, by omega, hlo, hlt, by omega, lostBits_eq_zero hlt, by omega⟩
    · exact ⟨2 ^ 52, 1, by omega, by omega, by omega, by omega, by rw [heq]; decide, by omega⟩
  obtain ⟨q, c, hc, hqlo, hqhi, hq, hlost, hdiv⟩ := hcarry
  have hpos : 0 < q := by omega
  refine ⟨q, c, hpos, hc, (Nat.log2_eq_iff hpos.ne').2 ⟨hqlo, hqhi⟩, hq, fun s => ?_⟩
  have hexp : -1074 ≤ e + (lostBits m : Int) := by omega
  have hsecond : (ExtendedMantissa.ofMantissaAndAccuracy (mantissaOf m) .exact >>>
      lostBits (mantissaOf m)).mantissa = q := by
    rw [(tells_shiftRight (mantissaOf m) _).mantissa, hlost, hdiv]
  have hnext : shiftToTargetExponent .binary64 (mantissaOf m) (e + lostBits m) .exact =
      (ExtendedMantissa.ofMantissaAndAccuracy (mantissaOf m) .exact >>> lostBits (mantissaOf m),
        e + lostBits m + c) := by rw [shiftToTargetExponent_eq hexp, hlost]
  simp only [roundWithAccuracy, shiftToTargetExponent_eq he, hfirst, hnext, hsecond,
    dif_neg hpos.ne']

def Amounts (m : Nat) (e : Int) (k : Nat) : Prop := m * 2 ^ e.toNat = k * 2 ^ (-e).toNat

theorem Amounts.wholePart_eq {m k : Nat} {e : Int} (h : Amounts m e k) : wholePart m e = k := by
  rw [wholePart, h, Nat.mul_div_cancel _ (Nat.two_pow_pos _)]

/-- The natural number that a float makes of another: its first 53 bits, rounded, and zeros. -/
def roundedNat (m : Nat) : Nat := mantissaOf m * 2 ^ lostBits m

def rounded (n : Int) : Int := if n < 0 then -(roundedNat n.natAbs : Int) else roundedNat n.natAbs

theorem rounded_of_neg {n : Int} (hn : n < 0) : rounded n = -(roundedNat n.natAbs : Int) :=
  if_pos hn

theorem rounded_of_nonneg {n : Int} (hn : 0 ≤ n) : rounded n = roundedNat n.natAbs :=
  if_neg (by omega)

theorem roundedNat_eq_self {m : Nat} (hm : m ≤ 2 ^ 53) : roundedNat m = m := by
  obtain hlt | rfl := Nat.lt_or_eq_of_le hm
  · rw [roundedNat, mantissaOf, lostBits_eq_zero hlt, Nat.pow_zero, roundDiv_one, Nat.mul_one]
  · decide

theorem roundedNat_le {m : Nat} (hm : m < 2 ^ 64) : roundedNat m ≤ 2 ^ 64 := by
  have hlost : lostBits m ≤ 11 := by
    by_cases h : m = 0
    · simp [h, lostBits]
    · have := (Nat.log2_lt h).2 hm
      unfold lostBits
      omega
  calc roundedNat m
    _ ≤ 2 ^ 53 * 2 ^ 11 :=
      Nat.mul_le_mul (mantissaOf_le m) (Nat.pow_le_pow_right (by decide) hlost)
    _ = 2 ^ 64 := by decide

theorem rounded_eq_self {n : Int} (hn : n.natAbs ≤ 2 ^ 53) : rounded n = n := by
  unfold rounded
  rw [roundedNat_eq_self hn]
  split <;> omega

theorem natAbs_rounded_le {n : Int} (hn : n.natAbs < 2 ^ 64) : (rounded n).natAbs ≤ 2 ^ 64 := by
  have := roundedNat_le hn
  unfold rounded
  split <;> omega

theorem amounts_of_mul_eq {m k a b : Nat} (h : m * 2 ^ a = k * 2 ^ b) :
    Amounts m (a - b : Int) k := by
  unfold Amounts
  obtain hab | hab := Nat.le_total a b
  · rw [show ((a : Int) - b).toNat = 0 by omega, show (-((a : Int) - b)).toNat = b - a by omega]
    apply Nat.eq_of_mul_eq_mul_right (Nat.two_pow_pos a)
    rw [Nat.pow_zero, Nat.mul_one, h, Nat.mul_assoc, ← Nat.pow_add, Nat.sub_add_cancel hab]
  · rw [show ((a : Int) - b).toNat = a - b by omega, show (-((a : Int) - b)).toNat = 0 by omega]
    apply Nat.eq_of_mul_eq_mul_right (Nat.two_pow_pos b)
    rw [Nat.pow_zero, Nat.mul_one, ← h, Nat.mul_assoc, ← Nat.pow_add, Nat.sub_add_cancel hab]

theorem log2_shiftLeft {m : Nat} (hm : m ≠ 0) (k : Nat) : (m <<< k).log2 = m.log2 + k := by
  induction k with
  | zero => simp
  | succ k ih =>
    have hk : m <<< k ≠ 0 := by
      rw [Nat.shiftLeft_eq]
      exact Nat.mul_ne_zero hm (Nat.two_pow_pos k).ne'
    rw [Nat.shiftLeft_succ, Nat.log2_two_mul hk, ih, Nat.add_assoc]

/-- Of a number with fewer than 53 bits nothing is lost when zeros are put behind them. -/
theorem mantissaOf_shiftLeft {m : Nat} (hm : 0 < m) :
    mantissaOf (m <<< (52 - m.log2)) * 2 ^ lostBits m = roundedNat m * 2 ^ (52 - m.log2) := by
  obtain h | h := Nat.le_total 52 m.log2
  · rw [Nat.sub_eq_zero_of_le h, Nat.shiftLeft_zero, Nat.pow_zero, Nat.mul_one, roundedNat]
  · have hlt : m < 2 ^ 53 := (Nat.log2_lt hm.ne').1 (by omega)
    have hlog := log2_shiftLeft hm.ne' (52 - m.log2)
    have hlost : lostBits (m <<< (52 - m.log2)) = 0 := by
      unfold lostBits
      omega
    rw [mantissaOf, hlost, Nat.pow_zero, roundDiv_one, lostBits_eq_zero hlt,
      roundedNat_eq_self hlt.le, Nat.pow_zero, Nat.mul_one, Nat.shiftLeft_eq]

theorem nearest_eq (s : Sign) (m : Nat) :
    nearest s m 0 = ofView (roundWithAccuracy .binary64 s (m <<< (52 - m.log2))
      (-(52 - m.log2 : Nat)) .exact) := by
  have hshift : (-Format.binary64.targetExponent (totalExponent m 0)).toNat = 52 - m.log2 := by
    have hmin : Format.binary64.minExponent = -1074 := by decide
    simp only [Format.targetExponent, totalExponent, Format.mantissaBits, hmin]
    omega
  rw [nearest, Float.Model.UnpackedFloat.round]
  simp only [decreaseExponent, Int.zero_sub, hshift]

theorem exists_nearest {m : Nat} (hm : 0 < m) (hlt : m < 2 ^ 1023) :
    ∃ (q : Nat) (e : Int) (h : 0 < q), q.log2 = 52 ∧ -1074 ≤ e ∧ e ≤ 971 ∧
      Amounts q e (roundedNat m) ∧ ∀ s : Sign, nearest s m 0 = ofView (.finite s q e h) := by
  have hlog := log2_shiftLeft hm.ne' (52 - m.log2)
  have hsize : m.log2 < 1023 := (Nat.log2_lt hm.ne').2 hlt
  have hlost : lostBits (m <<< (52 - m.log2)) = lostBits m := by
    unfold lostBits
    omega
  obtain ⟨q, c, hq, hc, hq52, hqc, hround⟩ :=
    exists_roundWithAccuracy (e := -(52 - m.log2 : Nat)) (m := m <<< (52 - m.log2)) (by omega)
      (by omega)
  have he : -((52 - m.log2 : Nat) : Int) + lostBits (m <<< (52 - m.log2)) + c =
      ((c + lostBits m : Nat) : Int) - (52 - m.log2 : Nat) := by omega
  rw [he] at hround
  refine ⟨q, _, hq, hq52, ?_, ?_, amounts_of_mul_eq (a := c + lostBits m) (b := 52 - m.log2) ?_,
    fun s => by rw [nearest_eq, hround s]⟩
  · omega
  · unfold lostBits
    omega
  · rw [Nat.pow_add, ← Nat.mul_assoc, hqc, mantissaOf_shiftLeft hm]

/-- The float is exactly the whole number `k`. -/
def Holds (x : Float) (k : Int) : Prop :=
  match view x with
  | .zero _ => k = 0
  | .finite s m e _ => ∃ n : Nat, k = s.apply n ∧ Amounts m e n
  | _ => False

theorem Holds.truncate? {x : Float} {k : Int} (h : Holds x k) : truncate? x = some k := by
  unfold Holds at h
  unfold Number.truncate?
  generalize view x = v at h
  cases v with
  | zero s => rw [show k = 0 from h]
  | finite s m e hm =>
    obtain ⟨n, rfl, hn⟩ := h
    simp only [hn.wholePart_eq]
  | _ => exact h.elim

theorem Holds.eq_of_beq {x y : Float} {j k : Int} (hx : Holds x j) (hy : Holds y k)
    (h : (x == y) = true) : j = k := by
  have hzeros : Number.truncate? 0 = Number.truncate? (-0) := rfl
  have hsame : Number.truncate? x = Number.truncate? y := by
    obtain ⟨-, -, heq | ⟨hpos, hneg⟩ | ⟨hneg, hpos⟩⟩ := Float.beq_iff_ne_nan_and_eq.1 h
    · rw [heq]
    · rw [hpos, hneg, hzeros]
    · rw [hpos, hneg, hzeros]
  rw [hx.truncate?, hy.truncate?] at hsame
  exact Option.some.inj hsame

theorem holds_nearest (s : Sign) {m : Nat} (hm : 0 < m) (hlt : m < 2 ^ 1023) :
    Holds (nearest s m 0) (s.apply (roundedNat m)) := by
  obtain ⟨q, e, hq, hq52, hlo, hhi, hamounts, hnearest⟩ := exists_nearest hm hlt
  unfold Holds
  rw [hnearest, view_ofView hq52 hlo hhi]
  exact ⟨_, rfl, hamounts⟩

theorem ofInt_eq_normalize (n : Int) :
    ofInt n = ofView (Float.Model.UnpackedFloat.normalize .binary64 n 0 .positive) := rfl

theorem ofInt_of_neg {n : Int} (hn : n < 0) : ofInt n = nearest .negative n.natAbs 0 := by
  rw [ofInt_eq_normalize, Float.Model.UnpackedFloat.normalize, Int.compare_eq_lt.2 hn, nearest]
  simp only [show (-n).toNat = n.natAbs by omega]

theorem ofInt_of_pos {n : Int} (hn : 0 < n) : ofInt n = nearest .positive n.natAbs 0 := by
  rw [ofInt_eq_normalize, Float.Model.UnpackedFloat.normalize, Int.compare_eq_gt.2 hn, nearest]
  simp only [show n.toNat = n.natAbs by omega]

theorem holds_ofInt {n : Int} (hn : n.natAbs < 2 ^ 1023) : Holds (ofInt n) (rounded n) := by
  obtain hneg | rfl | hpos := Int.lt_trichotomy n 0
  · rw [ofInt_of_neg hneg, rounded_of_neg hneg]
    exact holds_nearest .negative (by omega) hn
  · exact rfl
  · rw [ofInt_of_pos hpos, rounded_of_nonneg hpos.le]
    exact holds_nearest .positive (by omega) hn

theorem natAbs_toInt_lt (n : Int64) : n.toInt.natAbs < 2 ^ 1023 := by
  have hlo := n.le_toInt
  have hhi := n.toInt_lt
  calc n.toInt.natAbs
    _ < 2 ^ 64 := by omega
    _ ≤ 2 ^ 1023 := Nat.pow_le_pow_right Nat.two_pos (by decide)

theorem holds_ofInt_toInt (n : Int64) : Holds (ofInt n.toInt) (rounded n.toInt) :=
  holds_ofInt (natAbs_toInt_lt n)

end TemplateBinding.Number
