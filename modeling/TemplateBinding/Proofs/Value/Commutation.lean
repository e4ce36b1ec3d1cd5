import TemplateBinding.Proofs.Value.Exactness

set_option autoImplicit false

namespace TemplateBinding

namespace Number

open Float.Model (UnpackedFloat)

theorem Sign.mul_comm (s t : Sign) : s * t = t * s := by
  cases s <;> cases t <;> rfl

theorem mul_finite (s t : Sign) {m n : Nat} (e f : Int) (hm : 0 < m) (hn : 0 < n) :
    UnpackedFloat.mul .binary64 (.finite s m e hm) (.finite t n f hn) =
      UnpackedFloat.roundWithAccuracy .binary64 (s * t) (m * n) (e + f) .exact := rfl

theorem add_finite (s t : Sign) {m n : Nat} (e f : Int) (hm : 0 < m) (hn : 0 < n) :
    UnpackedFloat.add .binary64 (.finite s m e hm) (.finite t n f hn) =
      UnpackedFloat.normalize .binary64
        (s.apply (UnpackedFloat.decreaseExponent m e (min e f)).1 +
          t.apply (UnpackedFloat.decreaseExponent n f (min e f)).1) (min e f) .positive := rfl

theorem view_mul_comm (v w : View) :
    UnpackedFloat.mul .binary64 v w = UnpackedFloat.mul .binary64 w v := by
  cases v with
  | infinity s => cases w with
    | infinity t | finite t => exact congrArg UnpackedFloat.infinity (Sign.mul_comm s t)
    | _ => rfl
  | zero s => cases w with
    | zero t | finite t => exact congrArg UnpackedFloat.zero (Sign.mul_comm s t)
    | _ => rfl
  | finite s m e hm => cases w with
    | infinity t => exact congrArg UnpackedFloat.infinity (Sign.mul_comm s t)
    | zero t => exact congrArg UnpackedFloat.zero (Sign.mul_comm s t)
    | finite t n f hn =>
      rw [mul_finite, mul_finite, Sign.mul_comm s, Nat.mul_comm m, Int.add_comm e]
    | notANumber => rfl
  | notANumber => cases w <;> rfl

theorem view_add_comm (v w : View) :
    UnpackedFloat.add .binary64 v w = UnpackedFloat.add .binary64 w v := by
  cases v with
  | infinity s => cases w with
    | infinity t => cases s <;> cases t <;> rfl
    | _ => rfl
  | zero s => cases w with
    | zero t => cases s <;> cases t <;> rfl
    | _ => rfl
  | finite s m e hm => cases w with
    | finite t n f hn => rw [add_finite, add_finite, Int.min_comm e f, Int.add_comm]
    | _ => rfl
  | notANumber => cases w <;> rfl

theorem float_mul_comm (x y : Float) : x * y = y * x :=
  congrArg ofView (view_mul_comm (view x) (view y))

theorem float_add_comm (x y : Float) : x + y = y + x :=
  congrArg ofView (view_add_comm (view x) (view y))

namespace Decimal

theorem mul_comm (a b : Decimal) : a.mul b = b.mul a := by
  have hsign : (a.negative != b.negative) = (b.negative != a.negative) := by
    cases a.negative <;> cases b.negative <;> rfl
  simp only [mul, or_comm (a := a.mantissa = 0), hsign, Nat.mul_comm a.mantissa,
    Nat.add_comm a.scale]

/-- Sums of numbers other than zero do not depend on the order. Of two zeros the second is the
sum, so that the sign of a zero sum does. -/
theorem add_comm {a b : Decimal} (h : a.mantissa ≠ 0 ∨ b.mantissa ≠ 0) : a.add b = b.add a := by
  unfold add
  by_cases ha : a.mantissa = 0
  · have hb : b.mantissa ≠ 0 := h.resolve_left (not_not_intro ha)
    simp only [ha, hb, ne_eq, not_true_eq_false, not_false_eq_true, and_self, if_true, if_false]
  · by_cases hb : b.mantissa = 0
    · simp only [ha, hb, ne_eq, not_false_eq_true, and_self, if_true, if_false, not_true_eq_false]
    · simp only [ha, hb, false_and, if_false, Nat.max_comm a.scale, Int.add_comm (a.numerator _)]

theorem add_of_zero {a : Decimal} (ha : a.mantissa = 0) (b : Decimal) : a.add b = some b := by
  rw [add, if_neg (fun h => h.2 ha), if_pos ha]

end Decimal

end Number

namespace Arithmetic

open Number (Decimal)

variable {op : Arithmetic}

def Commutative (op : Arithmetic) : Prop := op = .add ∨ op = .multiply

theorem Commutative.words (h : op.Commutative) (m n : Int64) : op.words m n = op.words n m := by
  obtain rfl | rfl := h
  · simp only [Arithmetic.words, Int.add_comm]
  · simp only [Arithmetic.words, Int.mul_comm]

theorem Commutative.floats (h : op.Commutative) (x y : Float) : op.floats x y = op.floats y x := by
  obtain rfl | rfl := h
  · exact Number.float_add_comm x y
  · exact Number.float_mul_comm x y

theorem ofDecimal_of_zero {d : Decimal} (h : d.mantissa = 0) : ofDecimal d = .integer 0 := by
  have hwhole : d.isWhole = true := by simp only [Decimal.isWhole, h, Nat.zero_mod, decide_true]
  have hword : d.toWord? = some 0 := by
    rw [Decimal.toWord?, h, Nat.zero_div]
    cases d.negative <;> rfl
  rw [ofDecimal, hwhole, if_pos rfl, hword]

theorem Commutative.decimals (h : op.Commutative) (a b : Decimal) :
    (op.decimals a b).map ofDecimal = (op.decimals b a).map ofDecimal := by
  obtain rfl | rfl := h
  · by_cases hzeros : a.mantissa = 0 ∧ b.mantissa = 0
    · obtain ⟨ha, hb⟩ := hzeros
      simp only [Arithmetic.decimals, Decimal.add_of_zero ha, Decimal.add_of_zero hb,
        Option.map_some, ofDecimal_of_zero ha, ofDecimal_of_zero hb]
    · exact congrArg _ (Decimal.add_comm (Decidable.not_and_iff_not_or_not.1 hzeros))
  · exact congrArg _ (Decimal.mul_comm a b)

theorem mixed_eq (op : Arithmetic) (x y : Float) :
    op.mixed x y =
      ((Decimal.ofFloat x).bind fun a => (Decimal.ofFloat y).bind fun b =>
        (op.decimals a b).map ofDecimal).getD (.float (op.floats x y)) := by
  unfold mixed
  cases Decimal.ofFloat x with
  | none => rfl
  | some a => cases Decimal.ofFloat y with
    | none => rfl
    | some b =>
      simp only [Option.bind_eq_bind, Option.bind_some]
      cases op.decimals a b <;> rfl

theorem Commutative.mixed (h : op.Commutative) (x y : Float) : op.mixed x y = op.mixed y x := by
  rw [mixed_eq, mixed_eq, Option.bind_comm, h.floats x y]
  simp only [h.decimals]

theorem Commutative.apply (h : op.Commutative) (a b : Value) : op.apply a b = op.apply b a := by
  unfold Arithmetic.apply
  cases a.operand with
  | whole m => cases b.operand with
    | whole n => simp only [h.words m n, h.floats (Number.ofInt m.toInt)]
    | float y => exact h.mixed _ _
  | float x => cases b.operand with
    | whole n => exact h.mixed _ _
    | float y => exact congrArg Value.float (h.floats x y)

end Arithmetic

/-- A product is the same value in either order, and so is a sum of values of which none is a text,
a container or a function. -/
theorem eval_commutes (env : Environment) {left right : Tree} {a b : Value}
    {calls calls' : List HostCall} (hl : left.eval env = ⟨.ok a, calls⟩)
    (hr : right.eval env = ⟨.ok b, calls'⟩) :
    (∃ v, (Tree.binary .multiply left right).eval env = ⟨.ok v, calls ++ calls'⟩ ∧
      (Tree.binary .multiply right left).eval env = ⟨.ok v, calls' ++ calls⟩) ∧
    (a.isTextual = false → b.isTextual = false →
      ∃ v, (Tree.binary .add left right).eval env = ⟨.ok v, calls ++ calls'⟩ ∧
        (Tree.binary .add right left).eval env = ⟨.ok v, calls' ++ calls⟩) := by
  constructor
  · refine ⟨_, eval_binary_ok rfl hl hr, ?_⟩
    have hproduct : Arithmetic.multiply.apply a b = Arithmetic.multiply.apply b a :=
      Arithmetic.Commutative.apply (.inr rfl) a b
    rw [hproduct]
    exact eval_binary_ok rfl hr hl
  · intro ha hb
    refine ⟨_, eval_binary_ok rfl hl hr, ?_⟩
    have hsum : a.add b = b.add a := by
      simp only [Value.add, ha, hb, Bool.or_self, Bool.false_eq_true, if_false]
      exact Arithmetic.Commutative.apply (.inl rfl) a b
    rw [hsum]
    exact eval_binary_ok rfl hr hl

/-- Of the zeros that meet here one is a word and one is a float with a sign, which their sum as
decimals has in one order only. -/
theorem eval_commutes_zeros :
    let env : Environment := ⟨fun _ _ => .ok .undefined, .undefined, []⟩
    let zero : Tree := .literal .null
    let minusZero : Tree := .literal (.float (Number.zero .negative))
    (Tree.binary .multiply minusZero zero).eval env = ⟨.ok (.integer 0), []⟩ ∧
      (Tree.binary .add minusZero zero).eval env = ⟨.ok (.integer 0), []⟩ := by
  intro env zero minusZero
  have hl : zero.eval env = ⟨.ok .null, []⟩ := rfl
  have hr : minusZero.eval env = ⟨.ok (.float (Number.zero .negative)), []⟩ := rfl
  have hproduct : (Tree.binary .multiply zero minusZero).eval env = ⟨.ok (.integer 0), []⟩ := rfl
  have hsum : (Tree.binary .add zero minusZero).eval env = ⟨.ok (.integer 0), []⟩ := rfl
  obtain ⟨⟨v, hv, hv'⟩, hadd⟩ := eval_commutes env hl hr
  obtain ⟨w, hw, hw'⟩ := hadd rfl rfl
  obtain rfl : v = .integer 0 := by simpa using hv.symm.trans hproduct
  obtain rfl : w = .integer 0 := by simpa using hw.symm.trans hsum
  exact ⟨hv', hw'⟩

end TemplateBinding
