import TemplateBinding.Proofs.Value.Exactness

set_option autoImplicit false

namespace TemplateBinding

open Number (word?)

/-- The value is the word that is `exact`, under the condition, and else the float. -/
structure Value.WordIf (v : Value) (condition : Prop) (exact : Int) (x : Float) : Prop where
  word : condition → ∃ w : Int64, v = .integer w ∧ w.toInt = exact
  float : ¬condition → v = .float x

theorem Value.wordIf_elim {o : Option Int64} {condition : Prop} {exact : Int} {x : Float}
    (hsome : condition → ∃ w, o = some w ∧ w.toInt = exact) (hnone : ¬condition → o = none) :
    (o.elim (.float x) Value.integer).WordIf condition exact x where
  word hc := by
    obtain ⟨w, rfl, hw⟩ := hsome hc
    exact ⟨w, rfl, hw⟩
  float hc := by rw [hnone hc, Option.elim_none]

variable {a b w : Int64}

theorem word?_tdiv_eq_none_iff (hb : b.toInt ≠ 0) :
    word? (a.toInt.tdiv b.toInt) = none ↔ a.toInt = -2 ^ 63 ∧ b.toInt = -1 := by
  have hlo := a.le_toInt
  have hhi := a.toInt_lt
  rw [Number.word?_eq_none_iff]
  constructor
  · intro hout
    have habs : (a.toInt.tdiv b.toInt).natAbs = a.toInt.natAbs / b.toInt.natAbs :=
      Int.natAbs_tdiv _ _
    obtain hone | htwo := Nat.lt_or_ge b.toInt.natAbs 2
    · obtain hpos | hneg : b.toInt = 1 ∨ b.toInt = -1 := by omega
      · rw [hpos, Int.tdiv_one] at hout
        omega
      · rw [hneg, Int.tdiv_neg, Int.tdiv_one] at hout
        omega
    · have hhalf : a.toInt.natAbs / b.toInt.natAbs ≤ a.toInt.natAbs / 2 :=
        Nat.div_le_div_left htwo (by decide)
      omega
  · rintro ⟨ha, hb⟩
    rw [ha, hb]
    decide

theorem exists_word?_tmod (hb : b.toInt ≠ 0) :
    ∃ w, word? (a.toInt.tmod b.toInt) = some w ∧ w.toInt = a.toInt.tmod b.toInt := by
  have hlo := b.le_toInt
  have hhi := b.toInt_lt
  have habs := Int.natAbs_tmod a.toInt b.toInt
  have hlt := Nat.mod_lt a.toInt.natAbs (Int.natAbs_pos.2 hb)
  have hsome : word? (a.toInt.tmod b.toInt) ≠ none := fun hnone => by
    have := Number.word?_eq_none_iff.1 hnone
    omega
  obtain ⟨w, hw⟩ := Option.ne_none_iff_exists'.1 hsome
  exact ⟨w, hw, Number.word?_eq_some_iff.1 hw⟩

theorem exists_remainder_words (h : b.toInt ≠ 0 ∧ ¬(a.toInt = -2 ^ 63 ∧ b.toInt = -1)) :
    ∃ w, Arithmetic.remainder.words a b = some w ∧ w.toInt = a.toInt.tmod b.toInt := by
  obtain ⟨hb, hleast⟩ := h
  obtain ⟨w, hw, hexact⟩ := exists_word?_tmod (a := a) hb
  refine ⟨w, ?_, hexact⟩
  rw [← hw]
  refine if_neg (not_or.2 ⟨hb, ?_⟩)
  rwa [Option.isNone_iff_eq_none, word?_tdiv_eq_none_iff hb]

theorem remainder_words_eq_none (h : ¬(b.toInt ≠ 0 ∧ ¬(a.toInt = -2 ^ 63 ∧ b.toInt = -1))) :
    Arithmetic.remainder.words a b = none := by
  refine if_pos (Decidable.or_iff_not_imp_left.2 fun hb => ?_)
  rw [Option.isNone_iff_eq_none, word?_tdiv_eq_none_iff hb]
  exact Decidable.not_not.1 fun hleast => h ⟨hb, hleast⟩

theorem Arithmetic.remainder_wordIf (a b : Int64) :
    (remainder.apply (.integer a) (.integer b)).WordIf
      (b.toInt ≠ 0 ∧ ¬(a.toInt = -2 ^ 63 ∧ b.toInt = -1)) (a.toInt.tmod b.toInt)
      (Number.remainder (Number.ofInt a.toInt) (Number.ofInt b.toInt)) := by
  rw [apply_integers]
  exact Value.wordIf_elim exists_remainder_words remainder_words_eq_none

/-- The powers of `0`, `1` and `-1` repeat. -/
theorem pow_add_two_mul {m : Int} (hm : m.natAbs ≤ 1) {k : Nat} (hk : 0 < k) (j : Nat) :
    m ^ (k + 2 * j) = m ^ k := by
  obtain rfl | hunit : m = 0 ∨ m ^ 2 = 1 := by
    obtain rfl | rfl | rfl : m = 0 ∨ m = 1 ∨ m = -1 := by omega
    · exact .inl rfl
    · exact .inr rfl
    · exact .inr rfl
  · rw [Int.zero_pow (by omega), Int.zero_pow (by omega)]
  · rw [Int.pow_add, Int.pow_mul, hunit, Int.one_pow, Int.mul_one]

/-- The powers of all other numbers outgrow a word before the 64th. -/
theorem word?_pow_eq_none {m : Int} (hm : 2 ≤ m.natAbs) {k : Nat} (hk : 64 ≤ k) :
    word? (m ^ k) = none := by
  have hbig : 2 ^ 64 ≤ (m ^ k).natAbs := by
    calc 2 ^ 64
      _ ≤ 2 ^ k := Nat.pow_le_pow_right Nat.two_pos hk
      _ ≤ m.natAbs ^ k := Nat.pow_le_pow_left hm k
      _ = (m ^ k).natAbs := (Int.natAbs_pow m k).symm
  rw [Number.word?_eq_none_iff]
  omega

theorem word?_pow_parity (m : Int) {e : Nat} (he : 64 ≤ e) :
    word? (m ^ (64 + e % 2)) = word? (m ^ e) := by
  obtain hsmall | hbig := Nat.lt_or_ge m.natAbs 2
  · have hrepeat := pow_add_two_mul (m := m) (k := 64 + e % 2) (by omega) (by omega) ((e - 64) / 2)
    rw [show 64 + e % 2 + 2 * ((e - 64) / 2) = e by omega] at hrepeat
    rw [hrepeat]
  · rw [word?_pow_eq_none hbig he, word?_pow_eq_none hbig (by omega)]

theorem wordPower?_eq_some_iff :
    Value.wordPower? a b = some w ↔
      0 ≤ b.toInt ∧ b.toInt < 2 ^ 32 ∧ w.toInt = a.toInt ^ b.toInt.toNat := by
  have hneg : b < 0 ↔ b.toInt < 0 := Int64.lt_iff_toInt_lt
  have hpow : word? (a.toInt ^ (if b.toInt.toNat < 64 then b.toInt.toNat
      else 64 + b.toInt.toNat % 2)) = word? (a.toInt ^ b.toInt.toNat) := by
    split
    · rfl
    · exact word?_pow_parity _ (by omega)
  simp only [Value.wordPower?, hpow, hneg]
  split
  · simp only [reduceCtorEq, false_iff]
    omega
  · rw [Number.word?_eq_some_iff]
    omega

/-- A word holds the power, and it is looked for: the exponent is not negative, and has 32 bits
where the power may be small whatever the exponent. -/
def PowerFits (a b : Int) : Prop :=
  0 ≤ b ∧ -2 ^ 63 ≤ a ^ b.toNat ∧ a ^ b.toNat < 2 ^ 63 ∧ (a.natAbs ≤ 1 → b < 2 ^ 32)

theorem exists_wordPower? (h : PowerFits a.toInt b.toInt) :
    ∃ w, Value.wordPower? a b = some w ∧ w.toInt = a.toInt ^ b.toInt.toNat := by
  obtain ⟨hnonneg, hlo, hhi, hsmall⟩ := h
  obtain ⟨w, hw⟩ : ∃ w, word? (a.toInt ^ b.toInt.toNat) = some w := ⟨_, if_pos ⟨hlo, hhi⟩⟩
  have hb : b.toInt < 2 ^ 32 := by
    obtain hlt | hle := Nat.lt_or_ge a.toInt.natAbs 2
    · exact hsmall (Nat.le_of_lt_succ hlt)
    · refine Int.lt_of_not_ge fun hb => ?_
      rw [word?_pow_eq_none hle (by omega)] at hw
      cases hw
  have hexact := Number.word?_eq_some_iff.1 hw
  exact ⟨w, wordPower?_eq_some_iff.2 ⟨hnonneg, hb, hexact⟩, hexact⟩

theorem wordPower?_eq_none (h : ¬PowerFits a.toInt b.toInt) : Value.wordPower? a b = none := by
  cases hsome : Value.wordPower? a b with
  | none => rfl
  | some w =>
    obtain ⟨hnonneg, hb, hexact⟩ := wordPower?_eq_some_iff.1 hsome
    exact absurd ⟨hnonneg, hexact ▸ w.le_toInt, hexact ▸ w.toInt_lt, fun _ => hb⟩ h

theorem Value.power_wordIf (a b : Int64) :
    (power (.integer a) (.integer b)).WordIf (PowerFits a.toInt b.toInt)
      (a.toInt ^ b.toInt.toNat) ((Number.ofInt a.toInt).pow (Number.ofInt b.toInt)) := by
  have hpower : power (.integer a) (.integer b) = (wordPower? a b).elim
      (.float ((Number.ofInt a.toInt).pow (Number.ofInt b.toInt))) .integer := by
    simp only [power, operand]
    cases wordPower? a b <;> rfl
  rw [hpower]
  exact wordIf_elim exists_wordPower? wordPower?_eq_none

/-- Of words, `%` yields the exact remainder, which a word always holds, where the divisor is not
zero and the quotient is a word, too, and `**` the exact power where a word holds it, though not
the powers of `0`, `1` and `-1` with an exponent that 32 bits do not hold. Everywhere else they
yield what they yield for the floats of the words. -/
theorem eval_remainder_power (env : Environment) {left right : Tree} {a b : Int64}
    {calls calls' : List HostCall} (hl : left.eval env = ⟨.ok (.integer a), calls⟩)
    (hr : right.eval env = ⟨.ok (.integer b), calls'⟩) :
    (∃ v : Value, (Tree.binary .remainder left right).eval env = ⟨.ok v, calls ++ calls'⟩ ∧
      v.WordIf (b.toInt ≠ 0 ∧ ¬(a.toInt = -2 ^ 63 ∧ b.toInt = -1)) (a.toInt.tmod b.toInt)
        (Number.remainder (Number.ofInt a.toInt) (Number.ofInt b.toInt))) ∧
    ∃ v : Value, (Tree.binary .power left right).eval env = ⟨.ok v, calls ++ calls'⟩ ∧
      v.WordIf (PowerFits a.toInt b.toInt) (a.toInt ^ b.toInt.toNat)
        ((Number.ofInt a.toInt).pow (Number.ofInt b.toInt)) := by
  exact ⟨⟨_, eval_binary_ok rfl hl hr, Arithmetic.remainder_wordIf a b⟩,
    _, eval_binary_ok rfl hl hr, Value.power_wordIf a b⟩

theorem eval_remainder_power_least :
    let env : Environment := ⟨fun _ _ => .ok .undefined, .undefined, []⟩
    let left : Tree := .literal (.integer (-2))
    let right : Tree := .literal (.integer 63)
    (∃ w : Int64, (Tree.binary .remainder left right).eval env = ⟨.ok (.integer w), []⟩ ∧
      w.toInt = -2) ∧
    ∃ w : Int64, (Tree.binary .power left right).eval env = ⟨.ok (.integer w), []⟩ ∧
      w.toInt = -2 ^ 63 := by
  intro env left right
  have ha : (-2 : Int64).toInt = -2 := by decide
  have hb : (63 : Int64).toInt = 63 := by decide
  have hl : left.eval env = ⟨.ok (.integer (-2)), []⟩ := rfl
  have hr : right.eval env = ⟨.ok (.integer 63), []⟩ := rfl
  obtain ⟨⟨rest, hrest, hremainder⟩, power, heval, hpower⟩ := eval_remainder_power env hl hr
  rw [ha, hb] at hremainder hpower
  obtain ⟨w, rfl, hw⟩ := hremainder.word (by decide)
  obtain ⟨u, rfl, hu⟩ := hpower.word ⟨by decide, by decide, by decide, by decide⟩
  exact ⟨⟨w, hrest, hw⟩, u, heval, hu⟩

/-- The least word leaves no remainder by `-1`, and all powers of `1` are `1`; yet these are
floats. -/
theorem eval_remainder_power_floats :
    let env : Environment := ⟨fun _ _ => .ok .undefined, .undefined, []⟩
    let least : Tree := .literal (.integer Int64.minValue)
    (∃ x, (Tree.binary .remainder least (.literal (.integer (-1)))).eval env =
      ⟨.ok (.float x), []⟩) ∧ Int64.minValue.toInt.tmod (-1) = 0 ∧
    (∃ x, (Tree.binary .power (.literal (.integer 1)) (.literal (.integer 4294967296))).eval env =
      ⟨.ok (.float x), []⟩) ∧ (1 : Int) ^ 4294967296 = 1 := by
  intro env least
  exact ⟨⟨_, rfl⟩, by decide, ⟨_, rfl⟩, Int.one_pow⟩

end TemplateBinding
