import TemplateBinding.Proofs.Number.Rounding

set_option autoImplicit false

namespace TemplateBinding.Number

open Float.Model (Format UnpackedFloat)
open Float.Model.UnpackedFloat (pack unpack packComponents unpackExponent unpackMantissa
  unpackExponent_packComponents unpackMantissa_packComponents unpackSign_packComponents)

def scaled (m : Nat) (e : Int) : ℚ := m * 2 ^ e

section Packing

variable {s : Sign} {m : Nat} {e : Int} {hm : 0 < m}

theorem ofView_view (x : Float) : ofView (view x) = x :=
  Float.toBits_inj.1 <| UInt64.toBitVec_inj.1 <|
    Float.Model.UnpackedFloat.pack_unpack_of_valid x.toModel.valid

theorem view_ofView_least (hlt : m < 2 ^ 52) :
    view (ofView (.finite s m (-1074) hm)) = .finite s m (-1074) hm := by
  have hlog : m.log2 < 52 := (Nat.log2_lt hm.ne').2 hlt
  have hpack : pack .binary64 (.finite s m (-1074) hm) =
      packComponents .binary64 s 0#11 (BitVec.ofNat 52 m) := by
    unfold pack
    have hbias : (-1074 + Format.binary64.exponentBias +
        Format.binary64.mantissaBitsWithoutImplicit : Int).toNat = 1 := by
      simp [Format.exponentBias]
    have hall : Format.binary64.mantissaBits = 53 := rfl
    have hfew : m.log2 + 1 ≠ Format.binary64.mantissaBits := by omega
    simp only [hbias]
    rw [if_neg (by norm_num), if_neg hfew]
  have hbits : (BitVec.ofNat 52 m).toNat = m := by
    rw [BitVec.toNat_ofNat, Nat.mod_eq_of_lt hlt]
  have hmantissa : BitVec.ofNat 52 m ≠ 0#52 := fun heq => by
    have := congrArg BitVec.toNat heq
    rw [hbits] at this
    exact hm.ne' this
  have hexp : ((0#11).toNat : Int) - (Format.binary64.exponentBias +
      Format.binary64.mantissaBitsWithoutImplicit) + 1 = -1074 := by decide
  have htop : 0#11 ≠ -1#11 := by decide
  calc view (ofView (.finite s m (-1074) hm))
    _ = unpack .binary64 (pack .binary64 (.finite s m (-1074) hm)) := rfl
    _ = .finite s m (-1074) hm := by
      rw [hpack]
      unfold unpack
      simp only [unpackExponent_packComponents, unpackMantissa_packComponents,
        unpackSign_packComponents, Float.Model.UnpackedFloat.Sign.ofBitVec_toBitVec, hbits, hexp,
        if_neg htop, dif_neg hmantissa, if_true]

theorem Canonical.view_ofView (hc : Canonical m e) :
    view (ofView (.finite s m e hm)) = .finite s m e hm := by
  obtain hlt | hle := Nat.lt_or_ge m (2 ^ 52)
  · obtain rfl := hc.full.resolve_right (by omega)
    exact view_ofView_least hlt
  · exact Number.view_ofView ((Nat.log2_eq_iff hm.ne').2 ⟨hle, hc.mantissa_lt⟩) hc.le_exponent
      hc.exponent_le

theorem neg_ofView (hc : Canonical m e) :
    -ofView (.finite .positive m e hm) = ofView (.finite .negative m e hm) := by
  have hneg : -ofView (.finite .positive m e hm) =
      ofView (view (ofView (.finite .positive m e hm))).neg := rfl
  rw [hneg, hc.view_ofView]
  rfl

end Packing

theorem scaled_pos {m : Nat} (hm : 0 < m) (e : Int) : 0 < scaled m e := by
  unfold scaled
  positivity

theorem scaled_lt_scaled_iff (m n : Nat) (e : Int) : scaled m e < scaled n e ↔ m < n := by
  have he : (0 : ℚ) < 2 ^ e := by positivity
  rw [scaled, scaled, mul_lt_mul_iff_of_pos_right he, Nat.cast_lt]

/-- A full mantissa with a greater exponent makes a greater number. -/
theorem scaled_lt_scaled_of_exponent {m n : Nat} {e f : Int} (hm : m < 2 ^ 53) (hn : 2 ^ 52 ≤ n)
    (h : e < f) : scaled m e < scaled n f := by
  have he : (0 : ℚ) < 2 ^ e := by positivity
  calc scaled m e
    _ < scaled (2 ^ 53) e := (scaled_lt_scaled_iff ..).2 hm
    _ = 2 ^ 52 * 2 ^ (e + 1) := by
      rw [scaled, zpow_add_one₀ two_ne_zero]
      push_cast
      ring
    _ ≤ n * 2 ^ f := by
      have hn : (2 ^ 52 : ℚ) ≤ n := by exact_mod_cast hn
      have hf : (2 : ℚ) ^ (e + 1) ≤ 2 ^ f := zpow_le_zpow_right₀ one_le_two (by omega)
      gcongr

theorem compare_scaled {m n : Nat} {e f : Int} (hm : Canonical m e) (hn : Canonical n f) :
    compare (scaled m e) (scaled n f) = (compare e f).then (compare m n) := by
  have hme := hm.le_exponent
  have hnf := hn.le_exponent
  obtain h | rfl | h := lt_trichotomy e f
  · have hfull := hn.full.resolve_left (by omega)
    rw [compare_lt_iff_lt.2 h,
      compare_lt_iff_lt.2 (scaled_lt_scaled_of_exponent hm.mantissa_lt hfull h)]
    rfl
  · have hmono : StrictMono (scaled · e) := fun m n h => (scaled_lt_scaled_iff m n e).2 h
    rw [compare_eq_iff_eq.2 rfl, ← cmp_eq_compare, ← cmp_eq_compare]
    exact hmono.cmp_map_eq m n
  · have hfull := hm.full.resolve_left (by omega)
    rw [compare_gt_iff_gt.2 h,
      compare_gt_iff_gt.2 (scaled_lt_scaled_of_exponent hn.mantissa_lt hfull h)]
    rfl

def Sign.on : Sign → ℚ → ℚ
  | .negative, q => -q
  | .positive, q => q

/-- Where the floats would go on, had they one exponent more. -/
def brink : ℚ := scaled (2 ^ 52) 972

theorem brink_pos : 0 < brink := scaled_pos (by decide) _

/-- Where a float lies among the numbers. Both zeros lie at one place, and the infinities at the
brink. -/
def place? : View → Option ℚ
  | .notANumber => none
  | .infinity s => some (Sign.on s brink)
  | .zero _ => some 0
  | .finite s m e _ => some (Sign.on s (scaled m e))

def Canonized (v : View) : Prop := ∀ s m e h, v = .finite s m e h → Canonical m e

theorem canonized_view (x : Float) : Canonized (view x) := fun _ _ _ _ => canonical_view

theorem exists_place {v : View} (hv : Canonized v) (hnan : v ≠ .notANumber)
    (hinf : ∀ s, v ≠ .infinity s) : ∃ q, place? v = some q ∧ -brink < q ∧ q < brink := by
  have hbrink := brink_pos
  cases v with
  | notANumber => exact absurd rfl hnan
  | infinity s => exact absurd rfl (hinf s)
  | zero s => exact ⟨0, rfl, by linarith, hbrink⟩
  | finite s m e hm =>
    have hpos := scaled_pos hm e
    have hcan := hv s m e hm rfl
    have hexp := hcan.exponent_le
    have hlt : scaled m e < brink :=
      scaled_lt_scaled_of_exponent hcan.mantissa_lt le_rfl (by omega)
    refine ⟨_, rfl, ?_⟩
    cases s <;> simp only [Sign.on] <;> constructor <;> linarith

theorem compare_neg_neg (a b : ℚ) : compare (-a) (-b) = (compare a b).swap := by
  have hanti : StrictAnti fun a : ℚ => -a := fun _ _ h => neg_lt_neg h
  rw [← cmp_eq_compare, ← cmp_eq_compare, cmp_swap]
  exact hanti.cmp_map_eq a b

/-- Floats compare as the numbers that they stand for. -/
theorem compare_view {v w : View} (hv : Canonized v) (hw : Canonized w) :
    v.compare w = (place? v).bind fun a => (place? w).map (compare a) := by
  have hlt {a b : ℚ} (h : a < b) : some Ordering.lt = some (compare a b) :=
    congrArg some (compare_lt_iff_lt.2 h).symm
  have hgt {a b : ℚ} (h : b < a) : some Ordering.gt = some (compare a b) :=
    congrArg some (compare_gt_iff_gt.2 h).symm
  have heq (a : ℚ) : some Ordering.eq = some (compare a a) :=
    congrArg some (compare_eq_iff_eq.2 rfl).symm
  have hbrink := brink_pos
  have hneg {q : ℚ} (h : 0 < q) : -q < 0 := neg_neg_of_pos h
  fun_cases UnpackedFloat.compare v w with
  | case1 => rfl
  | case2 => cases v <;> rfl
  | case3 s t =>
    cases s <;> cases t
    · exact heq _
    · exact hlt ((hneg hbrink).trans hbrink)
    · exact hgt ((hneg hbrink).trans hbrink)
    · exact heq _
  | case4 _ hnan hinf =>
    obtain ⟨q, hq, -, hlt⟩ := exists_place hw hnan hinf
    rw [hq]
    exact hgt hlt
  | case5 _ hnan hinf =>
    obtain ⟨q, hq, hgt, -⟩ := exists_place hw hnan hinf
    rw [hq]
    exact hlt hgt
  | case6 _ hnan hinf =>
    obtain ⟨q, hq, -, hqlt⟩ := exists_place hv hnan hinf
    rw [hq]
    exact hlt hqlt
  | case7 _ hnan hinf =>
    obtain ⟨q, hq, hqgt, -⟩ := exists_place hv hnan hinf
    rw [hq]
    exact hgt hqgt
  | case8 m e hm => exact hgt (scaled_pos hm e)
  | case9 m e hm => exact hlt (hneg (scaled_pos hm e))
  | case10 _ m e hm => exact hlt (scaled_pos hm e)
  | case11 _ m e hm => exact hgt (hneg (scaled_pos hm e))
  | case12 => exact heq 0
  | case13 m e hm n f hn =>
    rw [← compare_scaled (hv _ _ _ _ rfl) (hw _ _ _ _ rfl), ← compare_neg_neg]
    rfl
  | case14 m e hm n f hn => exact hlt ((hneg (scaled_pos hm e)).trans (scaled_pos hn f))
  | case15 m e hm n f hn => exact hgt ((hneg (scaled_pos hn f)).trans (scaled_pos hm e))
  | case16 m e hm n f hn =>
    rw [← compare_scaled (hv _ _ _ _ rfl) (hw _ _ _ _ rfl)]
    rfl

theorem place_eq_none_iff {x : Float} : place? (view x) = none ↔ x.isNaN = true := by
  have hnan : x.isNaN = (view x).isNaN := rfl
  rw [hnan]
  cases view x <;> simp [place?, UnpackedFloat.isNaN]

theorem lt_iff_compare {x y : Float} : x < y ↔ (view x).compare (view y) = some .lt := by
  have hlt : x < y ↔ decide (x.toModel < y.toModel) = true := Iff.rfl
  have hmodel : x.toModel < y.toModel ↔ ((view x).compare (view y) == some .lt) = true := Iff.rfl
  rw [hlt, decide_eq_true_iff, hmodel, beq_iff_eq]

theorem beq_iff_compare {x y : Float} :
    (x == y) = true ↔ (view x).compare (view y) = some .eq := by
  have hmodel : (x == y) = ((view x).compare (view y) == some .eq) := rfl
  rw [hmodel, beq_iff_eq]

theorem lt_iff_place {x y : Float} {p q : ℚ} (hx : place? (view x) = some p)
    (hy : place? (view y) = some q) : x < y ↔ p < q := by
  rw [lt_iff_compare, compare_view (canonized_view x) (canonized_view y), hx, hy, Option.bind_some,
    Option.map_some, Option.some.injEq, compare_lt_iff_lt]

theorem roundDiv_mono {j k den : Nat} (h : j ≤ k) :
    roundDiv j den .even ≤ roundDiv k den .even := by
  have hdiv : j / den ≤ k / den := Nat.div_le_div_right h
  obtain hlt | heq := Nat.lt_or_eq_of_le hdiv
  · obtain ⟨hj, -⟩ | ⟨hj, -⟩ := roundDiv_cases j den .even <;>
      obtain ⟨hk, -⟩ | ⟨hk, -⟩ := roundDiv_cases k den .even <;> omega
  · have hmod : j % den ≤ k % den := by
      have hj := Nat.div_add_mod j den
      have hk := Nat.div_add_mod k den
      rw [heq] at hj
      omega
    simp only [roundDiv, heq]
    split_ifs <;> omega

theorem roundedNat_mono {j k : Nat} (h : j ≤ k) : roundedNat j ≤ roundedNat k := by
  have hlost : lostBits j ≤ lostBits k := by
    rw [lostBits, lostBits, Nat.log2_eq_log_two, Nat.log2_eq_log_two]
    exact Nat.sub_le_sub_right (Nat.log_mono_right h) 52
  obtain hlt | heq := Nat.lt_or_eq_of_le hlost
  · have hk : 52 ≤ k.log2 := by
      unfold lostBits at hlt
      omega
    calc roundedNat j
      _ ≤ 2 ^ 53 * 2 ^ lostBits j := Nat.mul_le_mul_right _ (mantissaOf_le j)
      _ = 2 ^ 52 * 2 ^ (lostBits j + 1) := by rw [Nat.pow_succ _ (lostBits j)]; omega
      _ ≤ mantissaOf k * 2 ^ lostBits k :=
        Nat.mul_le_mul (le_mantissaOf hk) (Nat.pow_le_pow_right (by decide) hlt)
  · rw [roundedNat, roundedNat, mantissaOf, mantissaOf, heq]
    exact Nat.mul_le_mul_right _ (roundDiv_mono h)

theorem rounded_mono {j k : Int} (h : j ≤ k) : rounded j ≤ rounded k := by
  have hneg : k.natAbs ≤ j.natAbs → roundedNat k.natAbs ≤ roundedNat j.natAbs := roundedNat_mono
  have hpos : j.natAbs ≤ k.natAbs → roundedNat j.natAbs ≤ roundedNat k.natAbs := roundedNat_mono
  unfold rounded
  split <;> split <;> omega

/-- Only great numbers are rounded, and stay great. -/
theorem rounded_eq_or_le {n : Int} (hn : 0 ≤ n) :
    rounded n = n ∨ 2 ^ 53 ≤ n ∧ 2 ^ 53 ≤ rounded n := by
  obtain hlt | hle := Int.lt_or_le (2 ^ 53) n
  · have hself : rounded (2 ^ 53) = 2 ^ 53 := rounded_eq_self (by decide)
    exact .inr ⟨hlt.le, hself ▸ rounded_mono hlt.le⟩
  · exact .inl (rounded_eq_self (by omega))

theorem zpow_eq_div {b : ℚ} (hb : b ≠ 0) (k : Int) : b ^ k = b ^ k.toNat / b ^ (-k).toNat := by
  rw [← zpow_natCast, ← zpow_natCast, ← zpow_sub₀ hb]
  congr 1
  omega

theorem Amounts.scaled_eq {m k : Nat} {e : Int} (h : Amounts m e k) : scaled m e = k := by
  have hamounts : (m : ℚ) * 2 ^ e.toNat = k * 2 ^ (-e).toNat := by exact_mod_cast h
  rw [scaled, zpow_eq_div two_ne_zero, ← mul_div_assoc, hamounts,
    mul_div_cancel_right₀ _ (by positivity)]

theorem Holds.place {x : Float} {k : Int} (h : Holds x k) : place? (view x) = some (k : ℚ) := by
  unfold Holds at h
  generalize view x = v at h ⊢
  cases v with
  | zero s =>
    rw [show k = 0 from h]
    rfl
  | finite s m e hm =>
    obtain ⟨n, rfl, hn⟩ := h
    rw [place?, hn.scaled_eq]
    cases s <;> simp [Sign.on, Float.Model.UnpackedFloat.Sign.apply]
  | _ => exact h.elim

theorem place_ofInt (n : Int64) : place? (view (ofInt n.toInt)) = some (rounded n.toInt : ℚ) :=
  (holds_ofInt_toInt n).place

theorem isNaN_ofInt (n : Int64) : (ofInt n.toInt).isNaN = false := by
  rw [← Bool.not_eq_true, ← place_eq_none_iff, place_ofInt]
  exact Option.some_ne_none _

end TemplateBinding.Number
