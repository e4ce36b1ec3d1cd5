import TemplateBinding.Proofs.Tree.Calls

set_option autoImplicit false

namespace TemplateBinding

/-- What an operator comes to in whole numbers. A quotient is one only where nothing remains. -/
def Operator.Exact (a b : Int) : Operator → Int → Prop
  | .add, n => n = a + b
  | .subtract, n => n = a - b
  | .multiply, n => n = a * b
  | .divide, n => b ≠ 0 ∧ n * b = a
  | _, _ => False

/-- The value is the whole number that is asked for, where a word holds it, and a float where there
is no such number, or none that a word holds. -/
structure Value.Represents (v : Value) (exact : Int → Prop) : Prop where
  word : ∀ n, exact n → -2 ^ 63 ≤ n → n < 2 ^ 63 → ∃ w : Int64, v = .integer w ∧ w.toInt = n
  float : (∀ n, exact n → n < -2 ^ 63 ∨ 2 ^ 63 ≤ n) → ∃ x, v = .float x

variable {exact : Int → Prop} {a b : Int64}

theorem Value.represents_of_word {r : Option Int64} (h : ∀ w, r = some w ↔ exact w.toInt)
    (x : Float) : (r.elim (.float x) Value.integer).Represents exact where
  word n hn hle hlt := by
    have hword : (Int64.ofInt n).toInt = n := Int64.toInt_ofInt_of_le (by omega) (by omega)
    rw [(h (Int64.ofInt n)).2 (by rwa [hword])]
    exact ⟨_, rfl, hword⟩
  float hout := by
    cases r with
    | none => exact ⟨x, rfl⟩
    | some w =>
      have hle := w.le_toInt
      have hlt := w.toInt_lt
      have := hout w.toInt ((h w).1 rfl)
      omega

theorem Value.negate_represents (a : Int64) :
    (negate (.integer a)).Represents (· = -a.toInt) := by
  have hnegate : negate (.integer a) =
      (Number.word? (-a.toInt)).elim (.float (-(Number.ofInt a.toInt))) .integer := by
    simp only [negate, operand]
    cases Number.word? (-a.toInt) <;> rfl
  rw [hnegate]
  exact represents_of_word (fun _ => Number.word?_eq_some_iff) _

namespace Arithmetic

/-- Of words, an operator yields the word that it finds, or the result in floats. -/
theorem apply_integers (op : Arithmetic) (a b : Int64) :
    op.apply (.integer a) (.integer b) = (op.words a b).elim
      (.float (op.floats (Number.ofInt a.toInt) (Number.ofInt b.toInt))) .integer := by
  simp only [apply, Value.operand]
  cases op.words a b <;> rfl

theorem apply_represents {op : Arithmetic} (h : ∀ w, op.words a b = some w ↔ exact w.toInt) :
    (op.apply (.integer a) (.integer b)).Represents exact := by
  rw [apply_integers]
  exact Value.represents_of_word h _

theorem divide_words_iff {w : Int64} :
    divide.words a b = some w ↔ b.toInt ≠ 0 ∧ w.toInt * b.toInt = a.toInt := by
  have hwords : divide.words a b = if b.toInt = 0 ∨ a.toInt.tmod b.toInt ≠ 0 then none
      else Number.word? (a.toInt.tdiv b.toInt) := rfl
  rw [hwords]
  constructor
  · intro h
    split at h
    · cases h
    · next hb =>
      obtain ⟨hb, hrest⟩ := not_or.1 hb
      rw [Number.word?_eq_some_iff.1 h]
      exact ⟨hb, Int.tdiv_mul_cancel (Int.dvd_of_tmod_eq_zero (Decidable.not_not.1 hrest))⟩
  · rintro ⟨hb, hq⟩
    have hrest : a.toInt.tmod b.toInt = 0 := by rw [← hq, Int.mul_tmod_left]
    rw [if_neg (by simp [hb, hrest]), Number.word?_eq_some_iff, ← hq, Int.mul_tdiv_cancel _ hb]

end Arithmetic

theorem Operator.function_represents {op : Operator}
    (hop : op ∈ [Operator.add, .subtract, .multiply, .divide]) (a b : Int64) :
    ∃ f, op.binaryFunction? = some f ∧
      (f (.integer a) (.integer b)).Represents (op.Exact a.toInt b.toInt) := by
  cases op with
  | add => exact ⟨_, rfl, Arithmetic.apply_represents fun _ => Number.word?_eq_some_iff⟩
  | subtract => exact ⟨_, rfl, Arithmetic.apply_represents fun _ => Number.word?_eq_some_iff⟩
  | multiply => exact ⟨_, rfl, Arithmetic.apply_represents fun _ => Number.word?_eq_some_iff⟩
  | divide => exact ⟨_, rfl, Arithmetic.apply_represents fun _ => Arithmetic.divide_words_iff⟩
  | _ => exact absurd hop (by decide)

theorem Run.ok_bind {α β : Type} (x : α) (calls : List HostCall) (f : α → Run β) :
    ((⟨.ok x, calls⟩ : Run α) >>= f) = ⟨(f x).outcome, calls ++ (f x).calls⟩ := rfl

theorem eval_binary_ok {env : Environment} {op : Operator} {f : Value → Value → Value}
    {left right : Tree} {v w : Value} {calls calls' : List HostCall}
    (hf : op.binaryFunction? = some f) (hl : left.eval env = ⟨.ok v, calls⟩)
    (hr : right.eval env = ⟨.ok w, calls'⟩) :
    (Tree.binary op left right).eval env = ⟨.ok (f v w), calls ++ calls'⟩ := by
  rw [Tree.eval_binary, hf, hl, hr]
  simp only [Run.ok_bind, Run.outcome_pure, Run.calls_pure, List.append_nil]

theorem eval_unary_ok {env : Environment} {op : Operator} {f : Value → Value} {operand : Tree}
    {v : Value} {calls : List HostCall} (hf : op.unaryFunction? = some f)
    (hv : operand.eval env = ⟨.ok v, calls⟩) :
    (Tree.unary op operand).eval env = ⟨.ok (f v), calls⟩ := by
  rw [Tree.eval_unary, hf, hv]
  simp only [Run.ok_bind, Run.outcome_pure, Run.calls_pure, List.append_nil]

/-- Of words, an operator yields the exact whole number if a word holds it, and a float if there is
none that one holds; so does a sign before a word. There is no fault, and no call is made beyond
those of the operands. -/
theorem eval_arithmetic (env : Environment) {left : Tree} {a : Int64} {calls : List HostCall}
    (hl : left.eval env = ⟨.ok (.integer a), calls⟩) :
    (∀ op ∈ [Operator.add, .subtract, .multiply, .divide],
      ∀ (right : Tree) (b : Int64) (calls' : List HostCall),
        right.eval env = ⟨.ok (.integer b), calls'⟩ →
          ∃ v : Value, (Tree.binary op left right).eval env = ⟨.ok v, calls ++ calls'⟩ ∧
            v.Represents (op.Exact a.toInt b.toInt)) ∧
    ∃ v : Value, (Tree.unary .negate left).eval env = ⟨.ok v, calls⟩ ∧
      v.Represents (· = -a.toInt) := by
  constructor
  · intro op hop right b calls' hr
    obtain ⟨f, hf, hv⟩ := Operator.function_represents hop a b
    refine ⟨_, ?_, hv⟩
    rw [Tree.eval_binary, hf, hl, hr]
    simp only [Run.ok_bind, Run.outcome_pure, Run.calls_pure, List.append_nil]
  · have hnegate : Operator.unaryFunction? .negate = some Value.negate := rfl
    refine ⟨_, ?_, Value.negate_represents a⟩
    rw [Tree.eval_unary, hnegate, hl]
    simp only [Run.ok_bind, Run.outcome_pure, Run.calls_pure, List.append_nil]

/-- The least word by `-1` is too great for a word, and so is its opposite. One more than the least
word is not. -/
theorem eval_arithmetic_least :
    let env : Environment := ⟨fun _ _ => .ok .undefined, .undefined, []⟩
    let least : Tree := .literal (.integer Int64.minValue)
    let minusOne : Tree := .literal (.integer (-1))
    (∃ x, (Tree.binary .divide least minusOne).eval env = ⟨.ok (.float x), []⟩) ∧
    (∃ w : Int64, (Tree.binary .subtract least minusOne).eval env = ⟨.ok (.integer w), []⟩ ∧
      w.toInt = -2 ^ 63 + 1) ∧
    ∃ x, (Tree.unary .negate least).eval env = ⟨.ok (.float x), []⟩ := by
  intro env least minusOne
  have hleast : Int64.minValue.toInt = -2 ^ 63 := by decide
  have hminus : (-1 : Int64).toInt = -1 := by decide
  have hl : least.eval env = ⟨.ok (.integer Int64.minValue), []⟩ := rfl
  have hr : minusOne.eval env = ⟨.ok (.integer (-1)), []⟩ := rfl
  obtain ⟨hbinary, opposite, hopposite, ho⟩ := eval_arithmetic env hl
  obtain ⟨quotient, hquotient, hq⟩ := hbinary .divide (by decide) minusOne (-1) [] hr
  obtain ⟨difference, hdifference, hd⟩ := hbinary .subtract (by decide) minusOne (-1) [] hr
  rw [hleast, hminus] at hq hd
  rw [hleast] at ho
  have hexact : (-2 ^ 63 + 1 : Int) = -2 ^ 63 - -1 := by decide
  obtain ⟨x, rfl⟩ := hq.float fun n ⟨_, hn⟩ => by omega
  obtain ⟨w, rfl, hw⟩ := hd.word (-2 ^ 63 + 1) hexact (by omega) (by omega)
  obtain ⟨y, rfl⟩ := ho.float fun n hn => by omega
  exact ⟨⟨x, hquotient⟩, ⟨w, hdifference, hw⟩, y, hopposite⟩

end TemplateBinding
