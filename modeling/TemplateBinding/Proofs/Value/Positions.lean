import TemplateBinding.Proofs.Number.Sizes
import TemplateBinding.Value.Method

set_option autoImplicit false

namespace TemplateBinding.Value

open Number (maxSize)

/-- What a number means as a position in a sequence: the number without its fraction, counted from
the end if it is negative, and at most as far as the sequence goes. -/
def resolvedPosition (length : Nat) (x : Float) : Nat :=
  match Number.view x, Number.truncate? x with
  | _, some t => if t < 0 then (max (length + t) 0).toNat else (min t length).toNat
  | .infinity .positive, none => length
  | _, none => 0

theorem resolvedPosition_le (length : Nat) (x : Float) : resolvedPosition length x ≤ length := by
  unfold resolvedPosition
  split
  · split <;> omega
  · exact Nat.le_refl length
  · exact Nat.zero_le length

/-- A number below zero of which nothing is left without its fraction. -/
def IsSliver (x : Float) : Prop := x < 0 ∧ Number.truncate? x = some 0

variable {length : Nat} {x : Float} {t : Int}

theorem isNaN_of_truncate? (h : Number.truncate? x = some t) : x.isNaN = false := by
  rw [← Bool.not_eq_true, ← Number.place_eq_none_iff]
  unfold Number.truncate? at h
  generalize Number.view x = v at h ⊢
  cases v <;> simp_all [Number.place?]

theorem truncate?_sign (h : Number.truncate? x = some t) :
    (x < 0 → t ≤ 0) ∧ (¬x < 0 → 0 ≤ t) := by
  rw [Number.lt_iff_compare]
  unfold Number.truncate? at h
  generalize Number.view x = v at h ⊢
  cases v with
  | zero s => simp_all
  | finite s m e hm =>
    obtain rfl := Option.some.inj h
    cases s with
    | negative =>
      have hlt : Float.Model.UnpackedFloat.compare (.finite .negative m e hm) (Number.view 0) =
          some .lt := rfl
      simp [hlt, Float.Model.UnpackedFloat.Sign.apply]
    | positive =>
      have hgt : Float.Model.UnpackedFloat.compare (.finite .positive m e hm) (Number.view 0) =
          some .gt := rfl
      simp [hgt, Float.Model.UnpackedFloat.Sign.apply]
  | _ => cases h

theorem holds_length (hl : length < 2 ^ 53) : Number.Holds (Number.ofInt length) length := by
  have hlt : ((length : Int)).natAbs < 2 ^ 1023 := by
    calc ((length : Int)).natAbs
      _ < 2 ^ 53 := by omega
      _ ≤ 2 ^ 1023 := Nat.pow_le_pow_right (by decide) (by decide)
  have hholds := Number.holds_ofInt hlt
  rwa [Number.rounded_eq_self (by omega)] at hholds

/-- Counting from the end is exact, though it is done in floats. -/
theorem size_max_add (hl : length < 2 ^ 53) (h : Number.truncate? x = some t) (ht : t ≤ 0) :
    Number.size (max (Number.ofInt length + Number.cut x) 0) = (max (length + t) 0).toNat := by
  have hlength := holds_length hl
  have hcut := Number.holds_cut h
  by_cases hsmall : (length + t).natAbs ≤ 2 ^ 53
  · rw [(hlength.add hcut hsmall).size_max (by omega)]
    omega
  · rw [Number.size_max_of_signed (hlength.signed_add hcut (by omega))]
    omega

theorem min_size_cut (hl : length < 2 ^ 53) (h : Number.truncate? x = some t) (ht : 0 ≤ t) :
    min (Number.size (Number.cut x)) length = (min t length).toNat := by
  rw [Number.size_of_truncate? (Number.holds_cut h).truncate?, maxSize]
  omega

theorem relativePosition_of_truncate? (hl : length < 2 ^ 53) (h : Number.truncate? x = some t) :
    relativePosition length x =
      if x < 0 then (max (length + t) 0).toNat else (min t length).toNat := by
  obtain ⟨hneg, hpos⟩ := truncate?_sign h
  rw [relativePosition, isNaN_of_truncate? h, if_neg Bool.false_ne_true]
  split
  · next hx => exact size_max_add hl h (hneg hx)
  · next hx => exact min_size_cut hl h (hpos hx)

theorem resolvedPosition_of_truncate? (h : Number.truncate? x = some t) :
    resolvedPosition length x =
      if t < 0 then (max (length + t) 0).toNat else (min t length).toNat := by
  unfold resolvedPosition
  rw [h]

theorem size_max_add_negInfinity (hl : length < 2 ^ 53)
    (hview : Number.view x = .infinity .negative) :
    Number.size (max (Number.ofInt length + Number.cut x) 0) = 0 := by
  have hcut : Number.cut x = x := by rw [Number.cut, hview]
  rw [hcut]
  refine Number.size_max_of_signed ?_
  rw [Number.add_eq, hview]
  obtain ⟨s, hlength, -⟩ | ⟨s, m, e, hm, hlength, -⟩ := (holds_length hl).cases <;> rw [hlength] <;>
    exact Number.signed_view_ofView rfl

theorem min_size_infinity (hl : length < 2 ^ 53) (hview : Number.view x = .infinity .positive) :
    min (Number.size (Number.cut x)) length = length := by
  have hcut : Number.cut x = x := by rw [Number.cut, hview]
  have hsize : Number.size x = maxSize := by
    rw [Number.size_eq, hview]
    rfl
  rw [hcut, hsize, maxSize]
  omega

/-- Numbers that have no whole part are not positions in between. -/
theorem relativePosition_of_not_truncate? (hl : length < 2 ^ 53) (h : Number.truncate? x = none) :
    relativePosition length x = resolvedPosition length x := by
  have hspec : resolvedPosition length x =
      match Number.view x with
      | .infinity .positive => length
      | _ => 0 := by
    unfold resolvedPosition
    rw [h]
    cases Number.view x with
    | infinity s => cases s <;> rfl
    | _ => rfl
  rw [hspec, relativePosition]
  cases hview : Number.view x with
  | notANumber =>
    have hnan : x.isNaN = true := by rw [← Number.place_eq_none_iff, hview]; rfl
    rw [hnan]
    rfl
  | infinity s =>
    have hnan : x.isNaN = false := by
      rw [← Bool.not_eq_true, ← Number.place_eq_none_iff, hview]
      cases s <;> exact nofun
    have hlt : x < 0 ↔ s = .negative := by
      rw [Number.lt_iff_compare, hview]
      cases s <;> exact ⟨fun h => by cases h <;> rfl, fun h => by cases h <;> rfl⟩
    rw [hnan, if_neg Bool.false_ne_true]
    cases s with
    | negative => rw [if_pos (hlt.2 rfl), size_max_add_negInfinity hl hview]
    | positive => rw [if_neg (hlt.not.2 nofun), min_size_infinity hl hview]
  | zero s =>
    rw [Number.truncate?, hview] at h
    cases h
  | finite s m e hm =>
    rw [Number.truncate?, hview] at h
    cases h

/-- The position is the one that the number means, but slivers mean the end. -/
theorem relativePosition_eq (hl : length < 2 ^ 53) (x : Float) :
    (¬IsSliver x → relativePosition length x = resolvedPosition length x) ∧
      (IsSliver x → relativePosition length x = length) := by
  cases ht : Number.truncate? x with
  | some t =>
    obtain ⟨hneg, hpos⟩ := truncate?_sign ht
    rw [relativePosition_of_truncate? hl ht, resolvedPosition_of_truncate? ht]
    constructor
    -- The sign of the number decides in one place, that of its whole part in the other; they differ
    -- for slivers only.
    · intro hsliver
      by_cases hx : x < 0
      · have hzero : t ≠ 0 := fun h => hsliver ⟨hx, h ▸ ht⟩
        have hle := hneg hx
        rw [if_pos hx, if_pos (by omega)]
      · have hle := hpos hx
        rw [if_neg hx, if_neg (by omega)]
    · rintro ⟨hx, hzero⟩
      obtain rfl := Option.some.inj (ht.symm.trans hzero)
      rw [if_pos hx]
      omega
  | none =>
    refine ⟨fun _ => relativePosition_of_not_truncate? hl ht, fun hsliver => ?_⟩
    cases ht.symm.trans hsliver.2

theorem relativePosition_le (hl : length < 2 ^ 53) (x : Float) :
    relativePosition length x ≤ length := by
  by_cases hsliver : IsSliver x
  · exact ((relativePosition_eq hl x).2 hsliver).le
  · rw [(relativePosition_eq hl x).1 hsliver]
    exact resolvedPosition_le length x

theorem relativePosition_integer (hl : length < 2 ^ 53) {j : Int64} (hj : 0 ≤ j.toInt) :
    relativePosition length (Value.integer j).number = min j.toInt.toNat length := by
  have hholds := Number.holds_ofInt_toInt j
  have hrounded := Number.rounded_eq_or_le hj
  have hneg : ¬Number.ofInt j.toInt < 0 := by
    rw [hholds.lt_iff Number.holds_float_zero]
    omega
  rw [number, relativePosition_of_truncate? hl hholds.truncate?, if_neg hneg]
  omega

theorem relativePosition_lt (hl : length < 2 ^ 53) {k : Nat} (hk : k ≤ length) {q : ℚ}
    (hq : Number.place? (Number.view x) = some q) (h0 : 0 ≤ q) (hqk : q < k) :
    relativePosition length x < k := by
  have hbrink : (k : ℚ) < Number.brink := by
    exact_mod_cast (holds_length (Nat.lt_of_le_of_lt hk hl)).lt_brink
  obtain ⟨n, hn, hnq⟩ := Number.exists_truncate?_le hq h0 (hqk.trans hbrink)
  have hnk : n < k := by exact_mod_cast hnq.trans_lt hqk
  have hneg : ¬x < 0 := by
    rw [Number.lt_iff_place hq Number.holds_float_zero.place, Int.cast_zero]
    exact h0.not_gt
  rw [relativePosition_of_truncate? hl hn, if_neg hneg]
  omega

end TemplateBinding.Value
