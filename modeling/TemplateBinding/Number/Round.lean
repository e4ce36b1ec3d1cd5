set_option autoImplicit false

namespace TemplateBinding.Number

inductive Tie where
  | even
  | away
  deriving DecidableEq, Repr

/-- The whole number nearest to `num / den`. -/
def roundDiv (num den : Nat) (tie : Tie) : Nat :=
  if 2 * (num % den) < den then num / den
  else if den < 2 * (num % den) then num / den + 1
  else match tie with
    | .away => num / den + 1
    | .even => num / den + num / den % 2

theorem roundDiv_cases (num den : Nat) (tie : Tie) :
    (roundDiv num den tie = num / den ∧ 2 * (num % den) ≤ den) ∨
      (roundDiv num den tie = num / den + 1 ∧ den ≤ 2 * (num % den)) := by
  unfold roundDiv
  split
  · omega
  · split
    · omega
    · cases tie <;> dsimp only <;> omega

theorem roundDiv_le_succ (num den : Nat) (tie : Tie) : roundDiv num den tie ≤ num / den + 1 := by
  obtain ⟨h, -⟩ | ⟨h, -⟩ := roundDiv_cases num den tie <;> omega

theorem roundDiv_le_self (num : Nat) {den : Nat} (tie : Tie) (hden : 0 < den) :
    roundDiv num den tie ≤ num := by
  have hd := Nat.div_add_mod num den
  have hq := Nat.le_mul_of_pos_left (num / den) hden
  obtain ⟨h, -⟩ | ⟨h, hm⟩ := roundDiv_cases num den tie <;> omega

theorem roundDiv_le (num den : Nat) (tie : Tie) :
    2 * (den * roundDiv num den tie) ≤ 2 * num + den := by
  have hd := Nat.div_add_mod num den
  obtain ⟨h, hm⟩ | ⟨h, hm⟩ := roundDiv_cases num den tie <;> rw [h]
  · omega
  · rw [Nat.mul_add]; omega

theorem le_roundDiv (num : Nat) {den : Nat} (tie : Tie) (hden : 0 < den) :
    2 * num ≤ 2 * (den * roundDiv num den tie) + den := by
  have hd := Nat.div_add_mod num den
  have hlt := Nat.mod_lt num hden
  obtain ⟨h, hm⟩ | ⟨h, hm⟩ := roundDiv_cases num den tie <;> rw [h]
  · omega
  · rw [Nat.mul_add]; omega

end TemplateBinding.Number
