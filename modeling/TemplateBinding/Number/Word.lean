import TemplateBinding.Number.Power

set_option autoImplicit false

namespace TemplateBinding.Number

def word? (n : Int) : Option Int64 :=
  if -2 ^ 63 ≤ n ∧ n < 2 ^ 63 then some (Int64.ofInt n) else none

theorem word?_eq_some_iff {n : Int} {w : Int64} : word? n = some w ↔ w.toInt = n := by
  unfold word?
  constructor
  · intro h
    split at h
    · obtain rfl := Option.some.inj h
      exact Int64.toInt_ofInt_of_le (by omega) (by omega)
    · simp at h
  · rintro rfl
    have h1 := w.le_toInt
    have h2 := w.toInt_lt
    rw [if_pos (by omega), Int64.ofInt_toInt]

@[simp] theorem word?_toInt (w : Int64) : word? w.toInt = some w := word?_eq_some_iff.2 rfl

theorem word?_eq_none_iff {n : Int} : word? n = none ↔ n < -2 ^ 63 ∨ 2 ^ 63 ≤ n := by
  unfold word?
  split
  · simp only [reduceCtorEq, false_iff]; omega
  · simp only [true_iff]; omega

end TemplateBinding.Number
