import TemplateBinding.Proofs.Number.Spelling

set_option autoImplicit false

namespace TemplateBinding.Number

open Float.Model (Format UnpackedFloat)
open Float.Model.UnpackedFloat (ExtendedMantissa roundWithAccuracy decreaseExponent
  shiftToExponent roundToInt packComponents unpackExponent_packComponents
  unpackMantissa_packComponents unpackSign_packComponents pack unpack)

variable {s : Sign} {m n : Nat} {e : Int} {x y : Float} {j k : Int}

theorem scaled_shiftLeft (m a : Nat) (e : Int) : scaled (m <<< a) (e - a) = scaled m e := by
  rw [scaled, scaled, Nat.shiftLeft_eq, zpow_sub₀ two_ne_zero, zpow_natCast]
  push_cast
  field_simp

theorem round_eq {q : Nat} {f : Int} (hm : 0 < m) (hq : 0 < q) (hc : Canonical q f)
    (h : scaled m e = scaled q f) : UnpackedFloat.round .binary64 s m e = .finite s q f hq := by
  obtain ⟨a, ha⟩ : ∃ a, a = (e - unitExponent m e).toNat := ⟨_, rfl⟩
  have hlog := log2_shiftLeft hm.ne' a
  have hunit : e - a ≤ unitExponent (m <<< a) (e - a) := by
    unfold unitExponent at ha ⊢
    omega
  have hvalue : ((m <<< a : Nat) : ℚ) / (1 : Nat) * 2 ^ (e - a) = scaled q f := by
    rw [Nat.cast_one, div_one, ← h, ← scaled_shiftLeft m a e, scaled]
  have hround := roundWithAccuracy_of_contains s Nat.one_pos hq hc (t := e - a)
    (by rwa [Nat.div_one]) (hvalue ▸ contains_scaled hq f)
  rw [Nat.div_one, accuracyOfFraction_one] at hround
  rw [UnpackedFloat.round, targetExponent_eq]
  simp only [decreaseExponent, ← ha]
  exact hround

theorem exists_canonical (hn : 0 < n) (hle : n ≤ 2 ^ 53) :
    ∃ q f, 0 < q ∧ Canonical q f ∧ Amounts q f n := by
  have hlt : n < 2 ^ 1023 := by
    calc n
      _ < 2 ^ 54 := by omega
      _ ≤ 2 ^ 1023 := Nat.pow_le_pow_right (by decide) (by decide)
  obtain ⟨q, f, hq, hq52, hlo, hhi, hamounts, -⟩ := exists_nearest hn hlt
  obtain ⟨hfull, hbits⟩ := (Nat.log2_eq_iff hq.ne').1 hq52
  rw [roundedNat_eq_self hle] at hamounts
  exact ⟨q, f, hq, ⟨hbits, hlo, hhi, .inr hfull⟩, hamounts⟩

theorem holds_round (hm : 0 < m) (hn : n ≤ 2 ^ 53) (h : scaled m e = n) :
    Holds (ofView (.round .binary64 s m e)) (s.apply n) := by
  have hpos : 0 < n := by
    have := scaled_pos hm e
    rw [h] at this
    exact_mod_cast this
  obtain ⟨q, f, hq, hc, hamounts⟩ := exists_canonical hpos hn
  unfold Holds
  rw [round_eq hm hq hc (h.trans hamounts.scaled_eq.symm), hc.view_ofView]
  exact ⟨n, rfl, hamounts⟩

theorem exists_apply {z : Int} (hz : z ≠ 0) : ∃ (s : Sign) (n : Nat), 0 < n ∧ z = s.apply n := by
  obtain hneg | hpos := Int.lt_or_gt_of_ne hz
  · exact ⟨.negative, z.natAbs, by omega, by simp only [UnpackedFloat.Sign.apply]; omega⟩
  · exact ⟨.positive, z.natAbs, by omega, by simp only [UnpackedFloat.Sign.apply]; omega⟩

theorem normalize_apply (hn : 0 < n) (s t : Sign) (e : Int) :
    UnpackedFloat.normalize .binary64 (s.apply n) e t = .round .binary64 s n e := by
  unfold UnpackedFloat.normalize
  cases s with
  | negative =>
    have hneg : -(n : Int) < 0 := by omega
    simp only [UnpackedFloat.Sign.apply, Int.compare_eq_lt.2 hneg, Int.neg_neg, Int.toNat_natCast]
  | positive =>
    have hpos : 0 < (n : Int) := by omega
    simp only [UnpackedFloat.Sign.apply, Int.compare_eq_gt.2 hpos, Int.toNat_natCast]

theorem cast_apply (s : Sign) (n : Nat) : ((s.apply n : Int) : ℚ) = Sign.on s n := by
  cases s <;> simp [UnpackedFloat.Sign.apply, Sign.on]

theorem Sign.on_mul (s : Sign) (q r : ℚ) : Sign.on s (q * r) = Sign.on s q * r := by
  cases s <;> simp [Sign.on]

theorem eq_natAbs_of_on {r : ℚ} (hr : 0 < r) (h : Sign.on s r = k) :
    r = k.natAbs ∧ s.apply k.natAbs = k := by
  cases s with
  | negative =>
    have hneg : k < 0 := by
      have : (k : ℚ) < 0 := h ▸ neg_neg_of_pos hr
      exact_mod_cast this
    have habs : (k.natAbs : Int) = -k := by omega
    refine ⟨?_, by simp only [UnpackedFloat.Sign.apply]; omega⟩
    rw [← Int.cast_natCast, habs, Int.cast_neg, ← h, Sign.on, neg_neg]
  | positive =>
    have hpos : 0 < k := by
      have : (0 : ℚ) < k := h ▸ hr
      exact_mod_cast this
    have habs : (k.natAbs : Int) = k := by omega
    refine ⟨?_, by simp only [UnpackedFloat.Sign.apply]; omega⟩
    rw [← Int.cast_natCast, habs, ← h, Sign.on]

theorem holds_zero (s : Sign) : Holds (ofView (.zero s)) 0 := by
  cases s <;> exact rfl

theorem holds_normalize {z : Int} (hk : k.natAbs ≤ 2 ^ 53) (h : (z : ℚ) * 2 ^ e = k) :
    Holds (ofView (.normalize .binary64 z e .positive)) k := by
  by_cases hz : z = 0
  · rw [hz, Int.cast_zero, zero_mul] at h
    obtain rfl : k = 0 := by exact_mod_cast h.symm
    rw [hz]
    exact holds_zero .positive
  · obtain ⟨s, n, hn, rfl⟩ := exists_apply hz
    rw [cast_apply, ← Sign.on_mul] at h
    obtain ⟨hscaled, hsign⟩ := eq_natAbs_of_on (scaled_pos hn e) h
    rw [normalize_apply hn, ← hsign]
    exact holds_round hn hk hscaled

theorem Holds.cases (h : Holds x k) :
    (∃ s, view x = .zero s ∧ k = 0) ∨
      ∃ s m e hm, view x = .finite s m e hm ∧ Sign.on s (scaled m e) = k := by
  have hplace := h.place
  unfold Holds at h
  cases hview : view x with
  | zero s =>
    rw [hview] at h
    exact .inl ⟨s, rfl, h⟩
  | finite s m e hm =>
    rw [hview] at hplace
    exact .inr ⟨s, m, e, hm, rfl, Option.some.inj hplace⟩
  | _ =>
    rw [hview] at h
    exact h.elim

theorem add_eq (x y : Float) :
    x + y = ofView (UnpackedFloat.add .binary64 (view x) (view y)) := rfl

theorem cast_apply_shiftLeft {g : Int} (s : Sign) (m : Nat) (hg : g ≤ e) :
    ((s.apply (m <<< (e - g).toNat : Nat) : Int) : ℚ) * 2 ^ g = Sign.on s (scaled m e) := by
  rw [cast_apply, ← Sign.on_mul, ← scaled_shiftLeft m (e - g).toNat e,
    show e - (e - g).toNat = g by omega, scaled]

/-- Whole numbers add up as floats, too, as long as the sum is not too great. -/
theorem Holds.add (hx : Holds x j) (hy : Holds y k) (h : (j + k).natAbs ≤ 2 ^ 53) :
    Holds (x + y) (j + k) := by
  obtain ⟨s, hvx, rfl⟩ | ⟨s, m, e, hm, hvx, hj⟩ := hx.cases <;>
    obtain ⟨t, hvy, rfl⟩ | ⟨t, n, f, hn, hvy, hk⟩ := hy.cases
  · rw [add_eq, hvx, hvy]
    cases s <;> cases t <;> exact holds_zero _
  · rw [Int.zero_add]
    have hsum : x + y = ofView (view y) := by rw [add_eq, hvx, hvy]; rfl
    rwa [hsum, ofView_view]
  · rw [Int.add_zero]
    have hsum : x + y = ofView (view x) := by rw [add_eq, hvx, hvy]; rfl
    rwa [hsum, ofView_view]
  · rw [add_eq, hvx, hvy]
    refine holds_normalize h ?_
    rw [Int.cast_add, add_mul, cast_apply_shiftLeft s m (Int.min_le_left e f),
      cast_apply_shiftLeft t n (Int.min_le_right e f), hj, hk, Int.cast_add]

def Signed (s : Sign) : View → Prop
  | .notANumber => False
  | .infinity t | .zero t | .finite t _ _ _ => t = s

theorem signed_unpack_packComponents {s : Sign} {b : BitVec 11} {f : BitVec 52}
    (h : b ≠ -1#11 ∨ f = 0#52) : Signed s (unpack .binary64 (packComponents .binary64 s b f)) := by
  unfold unpack
  simp only [unpackExponent_packComponents, unpackMantissa_packComponents,
    unpackSign_packComponents, UnpackedFloat.Sign.ofBitVec_toBitVec]
  split
  · next htop =>
    rw [if_pos (h.resolve_left (not_not_intro htop))]
    exact rfl
  · split
    · split <;> exact rfl
    · exact rfl

theorem signed_view_ofView {v : View} (h : Signed s v) : Signed s (view (ofView v)) := by
  have hpack : view (ofView v) = unpack .binary64 (pack .binary64 v) := rfl
  rw [hpack]
  cases v with
  | notANumber => exact h.elim
  | infinity t =>
    obtain rfl : t = s := h
    exact signed_unpack_packComponents (.inr rfl)
  | zero t =>
    obtain rfl : t = s := h
    exact signed_unpack_packComponents (.inr rfl)
  | finite t m e hm =>
    obtain rfl : t = s := h
    unfold pack
    dsimp only
    split
    · exact signed_unpack_packComponents (.inr rfl)
    · next hexp =>
      split
      · refine signed_unpack_packComponents (.inl fun htop => ?_)
        have hbits := congrArg BitVec.toNat htop
        have htwo : 2 ^ Format.binary64.exponentBits = 2048 := by decide
        rw [htwo] at hexp
        rw [BitVec.toNat_ofNat, Nat.mod_eq_of_lt (by omega)] at hbits
        have hones : (-1#11).toNat = 2047 := by decide
        omega
      · exact signed_unpack_packComponents (.inl (by decide))

theorem signed_round (s : Sign) (m : Nat) (e : Int) :
    Signed s (UnpackedFloat.round .binary64 s m e) := by
  unfold UnpackedFloat.round roundWithAccuracy
  dsimp only
  split <;> exact rfl

theorem signed_normalize {z : Int} (hz : z < 0) (e : Int) (t : Sign) :
    Signed .negative (UnpackedFloat.normalize .binary64 z e t) := by
  unfold UnpackedFloat.normalize
  rw [Int.compare_eq_lt.2 hz]
  exact signed_round .negative _ _

theorem signed_of_on_neg {q : ℚ} (hq : 0 < q) (h : Sign.on s q < 0) : s = .negative := by
  cases s with
  | negative => rfl
  | positive => exact absurd h hq.le.not_gt

/-- A sum of whole numbers below zero has the sign, however great it is. -/
theorem Holds.signed_add (hx : Holds x j) (hy : Holds y k) (h : j + k < 0) :
    Signed .negative (view (x + y)) := by
  obtain ⟨s, hvx, rfl⟩ | ⟨s, m, e, hm, hvx, hj⟩ := hx.cases <;>
    obtain ⟨t, hvy, rfl⟩ | ⟨t, n, f, hn, hvy, hk⟩ := hy.cases
  · omega
  · have hneg : Sign.on t (scaled n f) < 0 := by rw [hk]; exact_mod_cast Int.zero_add k ▸ h
    rw [add_eq, hvx, hvy]
    exact signed_view_ofView (signed_of_on_neg (scaled_pos hn f) hneg)
  · have hneg : Sign.on s (scaled m e) < 0 := by rw [hj]; exact_mod_cast Int.add_zero j ▸ h
    rw [add_eq, hvx, hvy]
    exact signed_view_ofView (signed_of_on_neg (scaled_pos hm e) hneg)
  · rw [add_eq, hvx, hvy]
    refine signed_view_ofView (signed_normalize ?_ _ _)
    have hpow : (0 : ℚ) < 2 ^ min e f := by positivity
    have hvalue : ((s.apply (m <<< (e - min e f).toNat : Nat) +
        t.apply (n <<< (f - min e f).toNat : Nat) : Int) : ℚ) * 2 ^ min e f < 0 := by
      rw [Int.cast_add, add_mul, cast_apply_shiftLeft s m (Int.min_le_left e f),
        cast_apply_shiftLeft t n (Int.min_le_right e f), hj, hk]
      exact_mod_cast h
    exact_mod_cast neg_of_mul_neg_left hvalue hpow.le

theorem roundToInt_eq (s : Sign) (m : Nat) (e : Int) :
    roundToInt s m e = s.apply (wholePart m e) := by
  have hmantissa := (tells_shiftRight (m <<< e.toNat) (-(e - e.toNat)).toNat).mantissa
  unfold roundToInt
  simp only [decreaseExponent, shiftToExponent, Int.sub_zero, Int.zero_sub, hmantissa]
  rw [wholePart, Nat.shiftLeft_eq, show (-(e - e.toNat)).toNat = (-e).toNat by omega]

theorem toInt_view (h : truncate? x = some k) (low high : Int) : (view x).toInt low high = k := by
  unfold truncate? at h
  cases hview : view x with
  | zero s =>
    rw [hview] at h
    exact Option.some.inj h
  | finite s m e hm =>
    rw [hview] at h
    exact (roundToInt_eq s m e).trans (Option.some.inj h)
  | _ =>
    rw [hview] at h
    cases h

def maxSize : Nat := 2 ^ 64 - 1

theorem toNat_ofNatClamp (n : Nat) : (UInt64.ofNatClamp n).toNat = min n maxSize := by
  have hsize : UInt64.size = 2 ^ 64 := rfl
  unfold UInt64.ofNatClamp maxSize
  split
  · rw [UInt64.toNat_ofNatLT]
    omega
  · rw [UInt64.toNat_ofNatLT]
    omega

theorem size_eq (x : Float) : size x = min ((view x).toInt 0 maxSize).toNat maxSize :=
  toNat_ofNatClamp _

theorem size_of_truncate? (h : truncate? x = some k) : size x = min k.toNat maxSize := by
  rw [size_eq, toInt_view h]

theorem holds_cut (h : truncate? x = some k) : Holds (cut x) k := by
  unfold truncate? at h
  unfold cut
  cases hview : view x with
  | zero s =>
    rw [hview] at h
    unfold Holds
    rw [hview]
    exact (Option.some.inj h).symm
  | finite s m e hm =>
    rw [hview] at h
    obtain rfl := Option.some.inj h
    have hc := canonical_view hview
    dsimp only
    split
    · next he =>
      unfold Holds
      rw [hview]
      refine ⟨_, rfl, ?_⟩
      rw [Amounts, wholePart, show (-e).toNat = 0 by omega, Nat.pow_zero, Nat.div_one, Nat.mul_one]
    · next he =>
      have hle : wholePart m e ≤ m := by
        rw [wholePart, show e.toNat = 0 by omega, Nat.pow_zero, Nat.mul_one]
        exact Nat.div_le_self _ _
      have hlt := hc.mantissa_lt
      obtain hzero | hpos := Nat.eq_zero_or_pos (wholePart m e)
      · rw [hzero]
        cases s <;> exact rfl
      · have hbig : wholePart m e < 2 ^ 1023 := by
          calc wholePart m e
            _ < 2 ^ 53 := by omega
            _ ≤ 2 ^ 1023 := Nat.pow_le_pow_right (by decide) (by decide)
        have hself := roundedNat_eq_self (m := wholePart m e) (by omega)
        have hholds := holds_nearest s hpos hbig
        rwa [hself] at hholds
  | _ =>
    rw [hview] at h
    cases h

theorem le_iff_compare : x ≤ y ↔ ((view x).compare (view y)).any (·.isLE) = true := by
  have hle : x ≤ y ↔ decide (x.toModel ≤ y.toModel) = true := Iff.rfl
  rw [hle, decide_eq_true_iff]
  exact Iff.rfl

theorem max_eq (x y : Float) : max x y = if x ≤ y then y else x := rfl

theorem size_zero : size 0 = 0 := by decide

theorem size_max_of_signed (h : Signed .negative (view x)) : size (max x 0) = 0 := by
  have hle : x ≤ 0 := by
    have hzero : view 0 = .zero .positive := rfl
    rw [le_iff_compare, hzero]
    cases hview : view x with
    | notANumber =>
      rw [hview] at h
      exact h.elim
    | zero s => rfl
    | infinity s =>
      rw [hview] at h
      obtain rfl : s = .negative := h
      rfl
    | finite s m e hm =>
      rw [hview] at h
      obtain rfl : s = .negative := h
      rfl
  rw [max_eq, if_pos hle, size_zero]

theorem le_iff_place {p q : ℚ} (hx : place? (view x) = some p) (hy : place? (view y) = some q) :
    x ≤ y ↔ p ≤ q := by
  rw [le_iff_compare, compare_view (canonized_view x) (canonized_view y), hx, hy]
  simp only [Option.bind_some, Option.map_some, Option.any_some]
  rw [Ordering.isLE_iff_ne_gt, compare_gt_iff_gt, not_lt]

theorem Holds.lt_iff (hx : Holds x j) (hy : Holds y k) : x < y ↔ j < k := by
  rw [lt_iff_place hx.place hy.place]
  exact Int.cast_lt

theorem Holds.le_iff (hx : Holds x j) (hy : Holds y k) : x ≤ y ↔ j ≤ k := by
  rw [le_iff_place hx.place hy.place]
  exact Int.cast_le

theorem holds_float_zero : Holds 0 0 := rfl

/-- A whole number that is not too great for a size is that size, or zero if it is negative. -/
theorem Holds.size_max (h : Holds x k) (hk : k ≤ 2 ^ 53) : size (max x 0) = k.toNat := by
  rw [max_eq]
  split
  · next hle =>
    rw [h.le_iff holds_float_zero] at hle
    rw [size_zero]
    omega
  · rw [size_of_truncate? h.truncate?, maxSize]
    omega

theorem wholePart_le_scaled (m : Nat) (e : Int) : (wholePart m e : ℚ) ≤ scaled m e := by
  rw [wholePart, scaled, zpow_eq_div two_ne_zero, ← mul_div_assoc]
  exact_mod_cast Nat.cast_div_le (α := ℚ) (m := m * 2 ^ e.toNat) (n := 2 ^ (-e).toNat)

/-- A number that is not negative has a whole part, and is no less than that. -/
theorem exists_truncate?_le {q : ℚ} (hq : place? (view x) = some q) (hnonneg : 0 ≤ q)
    (hlt : q < brink) : ∃ n : Nat, truncate? x = some n ∧ (n : ℚ) ≤ q := by
  unfold truncate?
  have hbrink := brink_pos
  cases hview : view x with
  | notANumber =>
    rw [hview] at hq
    cases hq
  | infinity s =>
    rw [hview] at hq
    obtain rfl := Option.some.inj hq
    cases s <;> simp only [Sign.on] at hnonneg hlt <;> linarith
  | zero s =>
    rw [hview] at hq
    exact ⟨0, rfl, by rwa [Nat.cast_zero]⟩
  | finite s m e hm =>
    rw [hview] at hq
    obtain rfl := Option.some.inj hq
    cases s with
    | negative => exact absurd hnonneg (neg_neg_of_pos (scaled_pos hm e)).not_ge
    | positive => exact ⟨wholePart m e, rfl, wholePart_le_scaled m e⟩

theorem Holds.lt_brink (h : Holds x k) : (k : ℚ) < brink := by
  have hplace := h.place
  obtain ⟨q, hq, -, hlt⟩ := exists_place (canonized_view x)
    (fun hview => by rw [hview] at hplace; cases hplace)
    (fun s hview => by unfold Holds at h; rw [hview] at h; exact h)
  rwa [Option.some.inj (hplace.symm.trans hq)]

end TemplateBinding.Number
