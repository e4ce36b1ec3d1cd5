import TemplateBinding.Proofs.Number.Decimal
import TemplateBinding.Proofs.Value.Exactness

set_option autoImplicit false

namespace TemplateBinding

open Number (rounded)

namespace Arithmetic

def operator : Arithmetic → Operator
  | .add => .add
  | .subtract => .subtract
  | .multiply => .multiply
  | .divide => .divide
  | .remainder => .remainder

def Exact (a b r : Int) : Arithmetic → Prop
  | .add => r = a + b
  | .subtract => r = a - b
  | .multiply => r = a * b
  | .divide => b ≠ 0 ∧ r * b = a
  | .remainder => b ≠ 0 ∧ r = a.tmod b

variable {op : Arithmetic} {d : Number.Decimal} {n m r : Int64}

theorem exact_of_words (h : op.words n m = some r) : op.Exact n.toInt m.toInt r.toInt := by
  cases op with
  | divide => exact divide_words_iff.1 h
  | remainder =>
    simp only [words] at h
    split at h
    · cases h
    · next hm => exact ⟨(not_or.1 hm).1, Number.word?_eq_some_iff.1 h⟩
  | _ => exact Number.word?_eq_some_iff.1 h

theorem ofDecimal_eq_integer_iff : ofDecimal d = .integer r ↔ d.whole? = some r.toInt := by
  unfold ofDecimal Number.Decimal.whole? Number.Decimal.toWord?
  by_cases hwhole : d.isWhole
  · rw [if_pos hwhole, if_pos hwhole, Option.some.injEq, eq_comm (b := r.toInt),
      ← Number.word?_eq_some_iff]
    cases Number.word? _ <;> simp
  · simp [hwhole]

theorem decimals_whole?_iff {a b : Number.Decimal} {j k z : Int} (ha : a.Denotes j)
    (hb : b.Denotes k) (hj : j.natAbs ≤ 2 ^ 64) (hk : k.natAbs ≤ 2 ^ 53)
    (hz : z.natAbs < Number.Decimal.limit) :
    (op.decimals a b).bind Number.Decimal.whole? = some z ↔ op.Exact j k z := by
  have hlimit : Number.Decimal.limit = 2 ^ 96 := rfl
  have hdenotes {o : Option Number.Decimal} {i : Int} (h : ∃ d, o = some d ∧ d.Denotes i) :
      o.bind Number.Decimal.whole? = some z ↔ z = i := by
    obtain ⟨d, rfl, hd⟩ := h
    rw [Option.bind_some, hd.whole?_eq, Option.some.injEq, eq_comm]
  cases op with
  | add => exact hdenotes (ha.add hb (by omega))
  | subtract => exact hdenotes (ha.sub hb (by omega))
  | multiply =>
    by_cases hfit : (j * k).natAbs < Number.Decimal.limit
    · exact hdenotes (ha.mul hb hfit)
    · have hne : z ≠ j * k := by
        rintro rfl
        exact hfit hz
      simp [decimals, ha.mul_eq_none hb (Nat.le_of_not_lt hfit), Exact, hne]
  | divide =>
    by_cases hk0 : k = 0
    · subst hk0
      simp [decimals, hb.div_eq_none, Exact]
    · simpa [decimals, Exact, hk0] using ha.div_whole?_iff hb hj hk hk0 z
  | remainder =>
    by_cases hk0 : k = 0
    · subst hk0
      simp [decimals, hb.rem_eq_none, Exact]
    · simpa [decimals, Exact, hk0] using hdenotes (ha.rem hb hk0)

theorem mixed_eq_integer_iff (hm : m.toInt.natAbs ≤ 2 ^ 53) :
    op.mixed (Number.ofInt n.toInt) (Number.ofInt m.toInt) = .integer r ↔
      op.Exact (rounded n.toInt) m.toInt r.toInt := by
  have hlimit : Number.Decimal.limit = 2 ^ 96 := rfl
  have hn : n.toInt.natAbs < 2 ^ 64 := by
    have := n.le_toInt
    have := n.toInt_lt
    omega
  have hr : r.toInt.natAbs < Number.Decimal.limit := by
    have := r.le_toInt
    have := r.toInt_lt
    omega
  have hrounded := Number.natAbs_rounded_le hn
  have hfloat := Number.holds_ofInt_toInt m
  rw [Number.rounded_eq_self hm] at hfloat
  obtain ⟨a, ha, hda⟩ := Number.Decimal.exists_ofFloat (Number.holds_ofInt_toInt n) (by omega)
  obtain ⟨b, hb, hdb⟩ := Number.Decimal.exists_ofFloat hfloat (by omega)
  rw [← decimals_whole?_iff hda hdb hrounded hm hr, mixed, ha, hb]
  simp only [Option.bind_eq_bind, Option.bind_some]
  cases op.decimals a b with
  | none => simp
  | some d => exact ofDecimal_eq_integer_iff

theorem tmod_eq_tmod_iff {i j k : Int} (h : 0 ≤ i ∧ 0 ≤ j ∨ i ≤ 0 ∧ j ≤ 0) :
    i.tmod k = j.tmod k ↔ k ∣ j - i := by
  have hnonneg {i j : Int} (hi : 0 ≤ i) (hj : 0 ≤ j) : i.tmod k = j.tmod k ↔ k ∣ j - i := by
    rw [Int.tmod_eq_emod_of_nonneg hi, Int.tmod_eq_emod_of_nonneg hj]
    exact Int.modEq_iff_dvd
  obtain ⟨hi, hj⟩ | ⟨hi, hj⟩ := h
  · exact hnonneg hi hj
  · have hneg := hnonneg (Int.neg_nonneg_of_nonpos hi) (Int.neg_nonneg_of_nonpos hj)
    rwa [Int.neg_tmod, Int.neg_tmod, Int.neg_inj, show -j - -i = -(j - i) by omega,
      Int.dvd_neg] at hneg

/-- Where the left operand is not itself when rounded, the result is another, but for a product with
zero and for a remainder by a divisor of the difference. -/
theorem exact_rounded_iff {i k z : Int} (h : op.Exact i k z) :
    op.Exact (rounded i) k z ↔
      rounded i = i ∨ op = .multiply ∧ k = 0 ∨ op = .remainder ∧ k ∣ rounded i - i := by
  cases op with
  | add =>
    simp only [Exact] at h ⊢
    simp only [reduceCtorEq, false_and, or_false]
    omega
  | subtract =>
    simp only [Exact] at h ⊢
    simp only [reduceCtorEq, false_and, or_false]
    omega
  | multiply =>
    simp only [Exact] at h ⊢
    simp only [reduceCtorEq, false_and, or_false, true_and]
    rw [h, mul_eq_mul_right_iff, eq_comm]
  | divide =>
    simp only [Exact] at h ⊢
    simp only [reduceCtorEq, false_and, or_false]
    omega
  | remainder =>
    obtain ⟨hk, rfl⟩ := h
    have hsign : 0 ≤ i ∧ 0 ≤ rounded i ∨ i ≤ 0 ∧ rounded i ≤ 0 := by
      obtain hneg | hnonneg := Int.lt_or_le i 0
      · have := Number.rounded_of_neg hneg
        omega
      · have := Number.rounded_of_nonneg hnonneg
        omega
    have hsame : rounded i = i → k ∣ rounded i - i := fun heq => by simp [heq]
    simp only [Exact, reduceCtorEq, false_and, false_or, true_and]
    rw [tmod_eq_tmod_iff hsign]
    tauto

theorem operator_function (op : Arithmetic) :
    ∃ f, op.operator.binaryFunction? = some f ∧
      ∀ a b : Value, a.isTextual = false → b.isTextual = false → f a b = op.apply a b := by
  cases op with
  | add =>
    refine ⟨Value.add, rfl, fun a b ha hb => ?_⟩
    simp [Value.add, ha, hb]
  | _ => exact ⟨_, rfl, fun _ _ _ _ => rfl⟩

theorem eval_operator {env : Environment} {left right : Tree} {a b : Value}
    {calls calls' : List HostCall} (hl : left.eval env = ⟨.ok a, calls⟩)
    (hr : right.eval env = ⟨.ok b, calls'⟩) (ha : a.isTextual = false)
    (hb : b.isTextual = false) :
    (Tree.binary op.operator left right).eval env = ⟨.ok (op.apply a b), calls ++ calls'⟩ := by
  obtain ⟨f, hf, happly⟩ := op.operator_function
  rw [eval_binary_ok hf hl hr, happly a b ha hb]

end Arithmetic

/-- Where two words `n` and `m` have a word for a result, the same word is the result of `n` and
of the float that is `m`, if the float next to `n` is `n` itself, as it is up to `2 ^ 53`. If it is
another number `n'`, the result is still the same for a product with zero, and for a remainder by
a divisor of the difference, and never else. -/
theorem eval_mixed (env : Environment) (op : Arithmetic) {left right right' : Tree} {n m r : Int64}
    {calls calls' calls'' : List HostCall} (hl : left.eval env = ⟨.ok (.integer n), calls⟩)
    (hr : right.eval env = ⟨.ok (.integer m), calls'⟩)
    (hf : right'.eval env = ⟨.ok (.float (Number.ofInt m.toInt)), calls''⟩)
    (hm : m.toInt.natAbs ≤ 2 ^ 53)
    (hw : (Tree.binary op.operator left right).eval env = ⟨.ok (.integer r), calls ++ calls'⟩) :
    ∃ n' : Int, Number.truncate? (Number.ofInt n.toInt) = some n' ∧
      ((Tree.binary op.operator left right').eval env = ⟨.ok (.integer r), calls ++ calls''⟩ ↔
        n' = n.toInt ∨ op = .multiply ∧ m.toInt = 0 ∨
          op = .remainder ∧ m.toInt ∣ n' - n.toInt) ∧
      (n.toInt.natAbs ≤ 2 ^ 53 → n' = n.toInt) := by
  refine ⟨rounded n.toInt, (Number.holds_ofInt_toInt n).truncate?, ?_, Number.rounded_eq_self⟩
  have hwords : op.words n m = some r := by
    rw [Arithmetic.eval_operator hl hr rfl rfl, Arithmetic.apply_integers] at hw
    cases hsome : op.words n m with
    | none => simp [hsome] at hw
    | some w => simpa [hsome] using hw
  have happly : op.apply (.integer n) (.float (Number.ofInt m.toInt)) =
      op.mixed (Number.ofInt n.toInt) (Number.ofInt m.toInt) := rfl
  rw [← Arithmetic.exact_rounded_iff (Arithmetic.exact_of_words hwords),
    ← Arithmetic.mixed_eq_integer_iff hm, ← happly, Arithmetic.eval_operator hl hf rfl rfl]
  simp

theorem eval_mixed_twelve :
    let env : Environment := ⟨fun _ _ => .ok .undefined, .undefined, []⟩
    let twelve : Tree := .literal (.integer 12)
    (Tree.binary .divide twelve (.literal (.integer 4))).eval env = ⟨.ok (.integer 3), []⟩ ∧
      (Tree.binary .divide twelve (.literal (.float (Number.ofInt 4)))).eval env =
        ⟨.ok (.integer 3), []⟩ := by
  intro env twelve
  have hfour : (4 : Int64).toInt = 4 := by decide
  have hl : twelve.eval env = ⟨.ok (.integer 12), []⟩ := rfl
  have hr : (Tree.literal (.integer 4)).eval env = ⟨.ok (.integer 4), []⟩ := rfl
  have hf : (Tree.literal (.float (Number.ofInt 4))).eval env =
      ⟨.ok (.float (Number.ofInt (4 : Int64).toInt)), []⟩ := by rw [hfour]; rfl
  have hw : (Tree.binary Arithmetic.divide.operator twelve (.literal (.integer 4))).eval env =
      ⟨.ok (.integer 3), [] ++ []⟩ := rfl
  obtain ⟨n', -, hiff, hself⟩ := eval_mixed env .divide hl hr hf (by decide) hw
  exact ⟨hw, hiff.2 (.inl (hself (by decide)))⟩

/-- One more than `2 ^ 53` plus zero is itself, and plus zero as a float it is `2 ^ 53`. -/
theorem eval_mixed_rounds :
    let env : Environment := ⟨fun _ _ => .ok .undefined, .undefined, []⟩
    let left : Tree := .literal (.integer 9007199254740993)
    (Tree.binary .add left (.literal (.integer 0))).eval env =
        ⟨.ok (.integer 9007199254740993), []⟩ ∧
      (Tree.binary .add left (.literal (.float (Number.ofInt 0)))).eval env =
        ⟨.ok (.integer 9007199254740992), []⟩ := by
  exact ⟨rfl, rfl⟩

end TemplateBinding
