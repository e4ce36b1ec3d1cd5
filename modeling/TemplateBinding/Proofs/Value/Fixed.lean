import TemplateBinding.Proofs.Number.Places
import TemplateBinding.Value.Method

set_option autoImplicit false

namespace TemplateBinding.Value

open Number (Sign Decimal Rounds WritesFixed view scaled)

def exactValue? (x : Float) : Option ℚ :=
  match view x with
  | .notANumber | .infinity _ => none
  | .zero _ => some 0
  | .finite s m e _ => some (Sign.on s (scaled m e))

/-- The number that is rounded: what a decimal keeps of the float, if there are at most 28 places
and there is a decimal, and else the float itself. -/
def settled (places : Nat) (x : Float) : ℚ :=
  match if places ≤ 28 then Decimal.ofFloatRetaining x else none with
  | some d => d.value
  | none => (exactValue? x).getD 0

variable {x : Float} {q : ℚ} {places : Nat} {s : Sign} {m : Nat} {e : Int} {hm : 0 < m}

/-- Through a decimal the digits are rounded away from zero. -/
theorem toFixed_of_retaining {d : Decimal} (hle : places ≤ 28)
    (hd : Decimal.ofFloatRetaining x = some d) :
    toFixed x places = (d.roundPlaces places).withPlaces places ∧ settled places x = d.value := by
  rw [toFixed, settled, if_pos hle, hd]
  exact ⟨rfl, rfl⟩

/-- Without a decimal they are rounded to the even neighbour in a tie. -/
theorem toFixed_of_not_retaining (h : 28 < places ∨ Decimal.ofFloatRetaining x = none) :
    toFixed x places = Number.fixed places x ∧ settled places x = (exactValue? x).getD 0 := by
  have hnone : (if places ≤ 28 then Decimal.ofFloatRetaining x else none) = none := by
    obtain hlt | hnone := h
    · exact if_neg (by omega)
    · rw [hnone, ite_self]
  rw [toFixed, settled, hnone]
  exact ⟨rfl, rfl⟩

theorem exists_rounds_of_retaining {d : Decimal} {a : ℚ} (ha : 0 ≤ a) (hle : places ≤ 28)
    (hd : Decimal.ofFloatRetaining x = some d) (hsign : d.negative = Sign.isNegative s)
    (hkeeps : Decimal.Keeps a d.magnitude) (hlimit : a ≤ Decimal.limit) :
    ∃ k : Int, WritesFixed (toFixed x places) places k ∧
      Rounds places (Sign.on s a) (settled places x) k := by
  have hmagnitude : 0 ≤ d.magnitude := by
    unfold Decimal.magnitude Number.decimal
    positivity
  obtain ⟨hfixed, hsettled⟩ := toFixed_of_retaining hle hd
  rw [hsettled, Decimal.value_eq hsign]
  refine ⟨_, ?_, Number.rounds_away s ha hmagnitude ?_ hkeeps.near ?_ rfl⟩
  · rw [hfixed]
    exact Decimal.writesFixed_roundPlaces hsign places
  · rintro (hlt | hfits | hgreat)
    · omega
    · exact hkeeps.exact hfits
    · exact absurd hgreat hlimit.not_gt
  · exact fun h => by omega

theorem not_isEvenTie_natCast (n : Nat) : ¬Number.IsEvenTie n := by
  rintro ⟨j, hj⟩
  have hdouble : (2 * n : ℚ) = 4 * j + 1 := by rw [hj]; ring
  have : 2 * n = 4 * j + 1 := by exact_mod_cast hdouble
  omega

theorem exists_rounds_of_fixed (hview : view x = .finite s m e hm)
    (h : 28 < places ∨ Decimal.ofFloatRetaining x = none) (he : places ≤ 28 → 0 ≤ e) :
    ∃ k : Int, WritesFixed (toFixed x places) places k ∧
      Rounds places (Sign.on s (scaled m e)) (settled places x) k := by
  obtain ⟨hfixed, hsettled⟩ := toFixed_of_not_retaining h
  rw [exactValue?, hview, Option.getD_some] at hsettled
  have hpos := Number.scaled_pos hm e
  have hden : 0 < 2 ^ (-e).toNat := Nat.two_pow_pos _
  have hvalue : ((m * 10 ^ places * 2 ^ e.toNat : Nat) : ℚ) / (2 ^ (-e).toNat : Nat) =
      scaled m e * 10 ^ places := by
    rw [scaled, Number.zpow_eq_div two_ne_zero e]
    push_cast
    ring
  have hwrites : WritesFixed (toFixed x places) places (s.apply (Number.roundDiv
      (m * 10 ^ places * 2 ^ e.toNat) (2 ^ (-e).toNat) .even)) := by
    rw [hfixed, Number.fixed, hview]
    exact Number.writesFixed_withPoint s _ places
  by_cases htie : Number.IsEvenTie (scaled m e * 10 ^ places)
  · obtain ⟨j, hj⟩ := htie
    -- With fewer places there is no decimal for great floats only, and these are whole.
    have hlt : 28 < places := by
      by_contra hle
      obtain ⟨n, rfl⟩ := Int.eq_ofNat_of_zero_le (he (Nat.le_of_not_lt hle))
      refine not_isEvenTie_natCast (m * 2 ^ n * 10 ^ places) ⟨j, ?_⟩
      rw [← hj, Decimal.scaled_natCast]
      push_cast
      rfl
    rw [Number.roundDiv_even_of_tie hden (hvalue.trans hj)] at hwrites
    rw [hsettled]
    exact ⟨_, hwrites, Number.rounds_even s hpos.le hlt hj⟩
  · rw [Number.roundDiv_even_of_not_tie hden (by rwa [hvalue]), Number.roundDiv_away _ hden,
      hvalue] at hwrites
    rw [hsettled]
    refine ⟨_, hwrites, Number.rounds_away s hpos.le hpos.le (fun _ => rfl) ?_
      (fun h => htie h.2) rfl⟩
    rw [sub_self, abs_zero]
    positivity

theorem scaled_lt_limit (hmantissa : m < 2 ^ 53) (hneg : e < 0) : scaled m e < Decimal.limit := by
  obtain ⟨n, rfl⟩ := Int.exists_eq_neg_ofNat hneg.le
  have hpow : (1 : ℚ) ≤ 2 ^ n := one_le_pow₀ one_le_two
  calc scaled m (-n)
    _ = m / 2 ^ n := Decimal.scaled_neg m n
    _ ≤ m := div_le_self (Nat.cast_nonneg m) hpow
    _ < Decimal.limit := by
      have : m < Decimal.limit := by
        unfold Decimal.limit
        omega
      exact_mod_cast this

theorem exists_rounds_toFixed (hq : exactValue? x = some q) (places : Nat) :
    ∃ k : Int, WritesFixed (toFixed x places) places k ∧
      Rounds places q (settled places x) k := by
  cases hview : view x with
  | zero s =>
    rw [exactValue?, hview] at hq
    obtain rfl := Option.some.inj hq
    have hon : Sign.on s 0 = 0 := by cases s <;> simp [Sign.on]
    obtain hlt | hle := Nat.lt_or_ge 28 places
    · obtain ⟨hfixed, hsettled⟩ := toFixed_of_not_retaining (.inl hlt)
      rw [exactValue?, hview, Option.getD_some] at hsettled
      rw [hfixed, hsettled, Number.fixed, hview]
      exact ⟨0, Number.writesFixed_zero _ places, Number.rounds_zero places⟩
    · have hzero : Decimal.magnitude (.zero (Sign.isNegative s)) = 0 := by
        simp [Decimal.zero, Decimal.ofNat, Decimal.magnitude, Number.decimal]
      rw [← hon]
      exact exists_rounds_of_retaining (le_refl 0) hle (Decimal.ofFloatRetaining_of_zero hview) rfl
        (by rw [hzero]; exact .refl (le_refl 0)) (Nat.cast_nonneg _)
  | finite s m e hm =>
    rw [exactValue?, hview] at hq
    obtain rfl := Option.some.inj hq
    have hc := Number.canonical_view hview
    have hpos := Number.scaled_pos hm e
    obtain hlt | hle := Nat.lt_or_ge 28 places
    · exact exists_rounds_of_fixed hview (.inl hlt) (by omega)
    · obtain hneg | hnonneg := Int.lt_or_le e 0
      · obtain ⟨d, hd, hsign, hkeeps⟩ :=
          Decimal.exists_retaining_of_neg hc.le_exponent hneg hview
        exact exists_rounds_of_retaining hpos.le hle hd hsign hkeeps
          (scaled_lt_limit hc.mantissa_lt hneg).le
      · cases hd : Decimal.ofFloatRetaining x with
        | none => exact exists_rounds_of_fixed hview (.inr hd) fun _ => hnonneg
        | some d =>
          obtain ⟨hsign, hkeeps, hlimit⟩ := Decimal.keeps_of_nonneg hc hnonneg hview hd
          exact exists_rounds_of_retaining hpos.le hle hd hsign hkeeps hlimit
  | _ =>
    rw [exactValue?, hview] at hq
    cases hq

theorem exists_truncate?_of_exactValue? (hq : exactValue? x = some q) :
    ∃ t, Number.truncate? x = some t := by
  unfold exactValue? at hq
  unfold Number.truncate?
  cases hview : view x with
  | zero s => exact ⟨0, rfl⟩
  | finite s m e hm => exact ⟨_, rfl⟩
  | _ =>
    rw [hview] at hq
    cases hq

theorem exists_truncate?_of_le (hlow : 0 ≤ x) (hhigh : x ≤ 100) :
    ∃ places : Nat, Number.truncate? x = some (places : Int) := by
  rw [Number.le_iff_compare] at hlow hhigh
  unfold Number.truncate?
  cases hview : view x with
  | notANumber =>
    rw [hview] at hhigh
    cases hhigh
  | infinity s =>
    rw [hview] at hlow hhigh
    cases s with
    | negative => cases hlow
    | positive => cases hhigh
  | zero s => exact ⟨0, rfl⟩
  | finite s m e hm =>
    rw [hview] at hlow
    cases s with
    | negative => cases hlow
    | positive => exact ⟨_, rfl⟩

theorem fixedMethod_eq {t : Int} (hx : Number.truncate? x = some t) (arg : Option Value)
    (hlow : 0 ≤ arg.elim 0 number) (hhigh : arg.elim 0 number ≤ 100)
    (hplaces : Number.truncate? (arg.elim 0 number) = some (places : Int)) :
    fixedMethod x arg.toList = .ok (.string (String.ofList (toFixed x places))) := by
  unfold fixedMethod
  cases arg with
  | none =>
    rw [Option.elim_none] at hlow hhigh hplaces
    simp only [Option.toList_none, hlow, hhigh, hplaces, hx, decide_true, Bool.and_self, if_true]
    rfl
  | some v =>
    rw [Option.elim_some] at hlow hhigh hplaces
    simp only [Option.toList_some, hlow, hhigh, hplaces, hx, decide_true, Bool.and_self, if_true]
    rfl

theorem callMethod_toFixed {v : Value} (hv : v.isNumber = true) (args : List Value) :
    callMethod v "toFixed" args = fixedMethod v.number args := by
  cases v with
  | integer _ => rfl
  | float _ => rfl
  | _ => cases hv

theorem exactValue?_ofInt {n : Int64} (hq : exactValue? (integer n).number = some q) :
    q = Number.rounded n.toInt := by
  have hplace : Number.place? (view (integer n).number) = some (Number.rounded n.toInt : ℚ) :=
    Number.place_ofInt n
  unfold exactValue? at hq
  generalize view (integer n).number = v at hq hplace
  cases v with
  | zero s => exact Option.some.inj (hq.symm.trans hplace)
  | finite s m e hm => exact Option.some.inj (hq.symm.trans hplace)
  | _ => cases hq

/-- Every finite number is written with every number of places. The text has just so many digits
behind the point, and writes the number rounded: away from zero in a tie, after what a decimal of
96 bits with 28 places cannot hold is lost, or, with more than 28 places, to the even neighbour in
a tie with nothing lost. -/
theorem toFixed_rounds (v : Value) (hv : v.isNumber = true) {q : ℚ}
    (hq : exactValue? v.number = some q) (arg : Option Value) (hlow : 0 ≤ arg.elim 0 number)
    (hhigh : arg.elim 0 number ≤ 100) :
    ∃ (places : Nat) (cs : List Char) (k : Int),
      Number.truncate? (arg.elim 0 number) = some (places : Int) ∧
      callMethod v "toFixed" arg.toList = .ok (.string (String.ofList cs)) ∧
      WritesFixed cs places k ∧ Rounds places q (settled places v.number) k ∧
      ∀ n : Int64, v = .integer n → q = Number.rounded n.toInt := by
  obtain ⟨t, ht⟩ := exists_truncate?_of_exactValue? hq
  obtain ⟨places, hplaces⟩ := exists_truncate?_of_le hlow hhigh
  obtain ⟨k, hwrites, hrounds⟩ := exists_rounds_toFixed hq places
  refine ⟨places, _, k, hplaces, ?_, hwrites, hrounds, ?_⟩
  · rw [callMethod_toFixed hv, fixedMethod_eq ht arg hlow hhigh hplaces]
  · rintro n rfl
    exact exactValue?_ofInt hq

theorem exactValue?_ofView (hc : Number.Canonical m e) :
    exactValue? (Number.ofView (.finite s m e hm)) = some (Sign.on s (scaled m e)) := by
  rw [exactValue?, hc.view_ofView]

theorem toFixed_rounds_half :
    let half := Number.ofView (.finite .positive (2 ^ 52) (-53) (by decide))
    ∃ (places : Nat) (cs : List Char) (k : Int),
      Number.truncate? 0 = some (places : Int) ∧
      callMethod (.float half) "toFixed" [] = .ok (.string (String.ofList cs)) ∧
      WritesFixed cs places k ∧
      Rounds places (scaled (2 ^ 52) (-53)) (settled places half) k := by
  intro half
  have hq : exactValue? half = some (scaled (2 ^ 52) (-53)) :=
    exactValue?_ofView ⟨by decide, by decide, by decide, .inr (by decide)⟩
  obtain ⟨places, cs, k, hplaces, hcall, hwrites, hrounds, -⟩ :=
    toFixed_rounds (.float half) rfl hq none (by decide) (by decide)
  exact ⟨places, cs, k, hplaces, hcall, hwrites, hrounds⟩

/-- With 29 places `2 ^ -30` lies half-way between two numbers, and is rounded to the one that is
nearer to zero. What is nine tenths of the 28th place is lost before it is rounded. -/
theorem toFixed_misses :
    let tie := Number.ofView (.finite .positive (2 ^ 52) (-82) (by decide))
    let small := Number.ofView (.finite .positive 8028268271471024 (-146) (by decide))
    (Number.awayFromZero (scaled (2 ^ 52) (-82) * 10 ^ 29) = 93132257461547851563 ∧
      callMethod (.float tie) "toFixed" [.integer 29] =
        .ok (.string "0.00000000093132257461547851562")) ∧
    Number.awayFromZero (scaled 8028268271471024 (-146) * 10 ^ 28) = 1 ∧
      callMethod (.float small) "toFixed" [.integer 28] =
        .ok (.string "0.0000000000000000000000000000") := by
  intro tie small
  have htie : toFixed tie 29 = "0.00000000093132257461547851562".toList := by decide
  have hsmall : toFixed small 28 = "0.0000000000000000000000000000".toList := by decide
  have hcall29 : fixedMethod tie [.integer 29] = .ok (.string (String.ofList (toFixed tie 29))) :=
    fixedMethod_eq (t := 0) (by decide) (some (.integer 29)) (by decide) (by decide) (by decide)
  have hcall28 : fixedMethod small [.integer 28] =
      .ok (.string (String.ofList (toFixed small 28))) :=
    fixedMethod_eq (t := 0) (by decide) (some (.integer 28)) (by decide) (by decide) (by decide)
  refine ⟨⟨?_, ?_⟩, ?_, ?_⟩
  · norm_num [Number.awayFromZero, scaled]
  · rw [callMethod_toFixed rfl, number, hcall29, htie, String.ofList_toList]
  · norm_num [Number.awayFromZero, scaled]
  · rw [callMethod_toFixed rfl, number, hcall28, hsmall, String.ofList_toList]

end TemplateBinding.Value
