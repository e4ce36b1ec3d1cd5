import TemplateBinding.Number.Power

/-!
Floats as exact numbers. A finite float is `± m · 2 ^ e` with a natural `m`; the conversions
here go through that form and round once, to the nearest float, ties to even.
-/

set_option autoImplicit false

namespace TemplateBinding.Number

open Float.Model (Format UnpackedFloat)

/-- A float as an infinity, a zero, a not-a-number, or a sign with `m` and `e`. -/
abbrev View := Float.Model.UnpackedFloat

abbrev Sign := Float.Model.UnpackedFloat.Sign

def view (x : Float) : View := x.toModel.unpack

theorem toNat_hiddenBit_append (f : BitVec 52) : (1#1 ++ f).toNat = 2 ^ 52 + f.toNat := by
  calc (1#1 ++ f).toNat
    _ = 1 <<< 52 ||| f.toNat := by rw [BitVec.toNat_append, BitVec.toNat_ofNat]
    _ = 1 <<< 52 + f.toNat := (Nat.shiftLeft_add_eq_or_of_lt f.isLt 1).symm
    _ = 2 ^ 52 + f.toNat := by rw [Nat.one_shiftLeft]

/-- The form in which finite floats are unpacked: the mantissa has 53 bits, or fewer at the least
exponent. -/
structure Canonical (m : Nat) (e : Int) : Prop where
  mantissa_lt : m < 2 ^ 53
  le_exponent : -1074 ≤ e
  exponent_le : e ≤ 971
  full : e = -1074 ∨ 2 ^ 52 ≤ m

theorem canonical_unpack {b : BitVec 64} {s : Sign} {m : Nat} {e : Int} {hm : 0 < m}
    (h : UnpackedFloat.unpack .binary64 b = .finite s m e hm) : Canonical m e := by
  have hbias : (Format.binary64.exponentBias : Int) = 1023 := by decide
  have hexp : (@UnpackedFloat.unpackExponent .binary64 b).toNat < 2 ^ 11 := BitVec.isLt _
  have hman : (@UnpackedFloat.unpackMantissa .binary64 b).toNat < 2 ^ 52 := BitVec.isLt _
  unfold UnpackedFloat.unpack at h
  dsimp only at h
  by_cases htop : @UnpackedFloat.unpackExponent .binary64 b = -1#11
  · rw [if_pos htop] at h
    by_cases hzero : @UnpackedFloat.unpackMantissa .binary64 b = 0#52
    · rw [if_pos hzero] at h
      cases h
    · rw [if_neg hzero] at h
      cases h
  · rw [if_neg htop] at h
    have htop : (@UnpackedFloat.unpackExponent .binary64 b).toNat ≠ 2047 := fun heq =>
      htop (BitVec.eq_of_toNat_eq heq)
    by_cases hleast : @UnpackedFloat.unpackExponent .binary64 b = 0#11
    · rw [if_pos hleast] at h
      have hleast : (@UnpackedFloat.unpackExponent .binary64 b).toNat = 0 := by rw [hleast]; rfl
      by_cases hzero : @UnpackedFloat.unpackMantissa .binary64 b = 0#52
      · rw [dif_pos hzero] at h
        cases h
      · rw [dif_neg hzero] at h
        obtain ⟨rfl, rfl, rfl⟩ := UnpackedFloat.finite.inj h
        rw [hleast]
        exact ⟨by omega, by omega, by omega, .inl (by omega)⟩
    · rw [if_neg hleast] at h
      have hleast : (@UnpackedFloat.unpackExponent .binary64 b).toNat ≠ 0 := fun heq =>
        hleast (BitVec.eq_of_toNat_eq heq)
      obtain ⟨rfl, rfl, rfl⟩ := UnpackedFloat.finite.inj h
      rw [toNat_hiddenBit_append]
      exact ⟨by omega, by omega, by omega, .inr (by omega)⟩

theorem canonical_view {x : Float} {s : Sign} {m : Nat} {e : Int} {hm : 0 < m}
    (h : view x = .finite s m e hm) : Canonical m e := canonical_unpack h

def ofView (v : View) : Float := .ofModel (.pack v)

def nearest (sign : Sign) (m : Nat) (e : Int) : Float :=
  ofView (.round .binary64 sign m e)

def nan : Float := ofView .notANumber

def infinity (sign : Sign) : Float := ofView (.infinity sign)

def zero (sign : Sign) : Float := ofView (.zero sign)

def ofInt (n : Int) : Float := .ofModel (.ofInt n)

/-- The float nearest to `m · 10 ^ e`. From `2 ^ 1024` on there is none but the infinite one. -/
def ofDecimal (m : Nat) (e : Int) : Float :=
  if 2 ^ 1024 * 10 ^ (-e).toNat ≤ m then infinity .positive else .ofModel (.ofScientific m e)

def Sign.isNegative : Sign → Bool
  | .negative => true
  | .positive => false

def wholePart (m : Nat) (e : Int) : Nat := m * 2 ^ e.toNat / 2 ^ (-e).toNat

def truncate? (x : Float) : Option Int :=
  match view x with
  | .notANumber | .infinity _ => none
  | .zero _ => some 0
  | .finite s m e _ => some (s.apply (wholePart m e))

def cut (x : Float) : Float :=
  match view x with
  | .finite s m e _ => if 0 ≤ e then x else nearest s (wholePart m e) 0
  | _ => x

/-- The float as a size of 64 bits: its fraction is dropped, and what is below zero or beyond the
greatest size becomes the nearest one. No number is no size, that is zero. -/
def size (x : Float) : Nat := x.toUInt64.toNat

def remainder (x y : Float) : Float :=
  match view x, view y with
  | .notANumber, _ | _, .notANumber | .infinity _, _ | _, .zero _ => nan
  | .zero _, _ | _, .infinity _ => x
  | .finite s m e _, .finite _ n f _ =>
    let g := min e f
    nearest s (m * 2 ^ (e - g).toNat % (n * 2 ^ (f - g).toNat)) g

def roundAway (x : Float) : Float :=
  match view x with
  | .finite s m e _ =>
    if 0 ≤ e then x else nearest s ((2 * m + 2 ^ (-e).toNat) / 2 ^ ((-e).toNat + 1)) 0
  | _ => x

end TemplateBinding.Number
