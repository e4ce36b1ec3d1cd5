import TemplateBinding.Proofs.Number.Line
import TemplateBinding.Proofs.Value.Equality
import TemplateBinding.Proofs.Value.Exactness

set_option autoImplicit false

namespace TemplateBinding

def Operator.Holds (op : Operator) (a b : Value) : Prop :=
  ∀ env : Environment,
    (Tree.binary op (.literal a) (.literal b)).eval env = ⟨.ok (.boolean true), []⟩

variable {a b c : Value}

theorem Operator.eval_literals {op : Operator} {f : Value → Value → Value}
    (hf : op.binaryFunction? = some f) (a b : Value) (env : Environment) :
    (Tree.binary op (.literal a) (.literal b)).eval env = ⟨.ok (f a b), []⟩ := by
  have hl : (Tree.literal a).eval env = ⟨.ok a, []⟩ := rfl
  have hr : (Tree.literal b).eval env = ⟨.ok b, []⟩ := rfl
  exact eval_binary_ok hf hl hr

theorem Operator.holds_iff {op : Operator} {f : Value → Value → Value}
    (hf : op.binaryFunction? = some f) : op.Holds a b ↔ f a b = .boolean true := by
  constructor
  · intro h
    have hrun := h ⟨fun _ _ => .ok .undefined, .undefined, []⟩
    rw [eval_literals hf] at hrun
    simpa using hrun
  · intro h env
    rw [eval_literals hf, h]

theorem Operator.lessThan_holds_iff :
    Operator.lessThan.Holds a b ↔ a.order? b = some .lt := by
  rw [holds_iff rfl]
  simp

theorem Operator.lessEqual_holds_iff :
    Operator.lessEqual.Holds a b ↔ a.order? b = some .lt ∨ a.order? b = some .eq := by
  rw [holds_iff rfl]
  simp

theorem Operator.greaterThan_holds_iff :
    Operator.greaterThan.Holds a b ↔ a.order? b = some .gt := by
  rw [holds_iff rfl]
  simp

theorem Operator.greaterEqual_holds_iff :
    Operator.greaterEqual.Holds a b ↔ a.order? b = some .gt ∨ a.order? b = some .eq := by
  rw [holds_iff rfl]
  simp

theorem Operator.strictEqual_holds_iff :
    Operator.strictEqual.Holds a b ↔ a.strictEquals b = true := by
  rw [holds_iff rfl]
  simp

theorem Operator.equal_holds_iff : Operator.equal.Holds a b ↔ a.looseEquals b = true := by
  rw [holds_iff rfl]
  simp

namespace Value

def place? (v : Value) : Option ℚ := Number.place? (Number.view v.number)

/-- What decides between numbers whose floats are equal: words are compared exactly. -/
def tie : Value → Value → Ordering
  | .integer m, .integer n => compare m n
  | _, _ => .eq

theorem tie_swap (a b : Value) : b.tie a = (a.tie b).swap := by
  cases a with
  | integer m =>
    cases b with
    | integer n =>
      have hswap : compare n m = (compare m n).swap := Std.OrientedCmp.eq_swap
      exact hswap
    | _ => rfl
  | _ => cases b <;> rfl

/-- The order of floats, found by asking for each answer in turn. -/
def orderFloats? (x y : Float) : Option Ordering :=
  if x < y then some .lt else if x == y then some .eq else if y < x then some .gt else none

theorem orderFloats?_eq (x y : Float) :
    orderFloats? x y = (Number.view x).compare (Number.view y) := by
  simp only [orderFloats?, Number.lt_iff_compare, Number.beq_iff_compare,
    Number.compare_view (Number.canonized_view x) (Number.canonized_view y),
    Number.compare_view (Number.canonized_view y) (Number.canonized_view x)]
  cases Number.place? (Number.view x) with
  | none => cases Number.place? (Number.view y) <;> rfl
  | some p =>
    cases Number.place? (Number.view y) with
    | none => rfl
    | some q =>
      simp only [Option.bind_some, Option.map_some, Option.some.injEq, compare_lt_iff_lt,
        compare_eq_iff_eq]
      obtain h | rfl | h := lt_trichotomy p q
      · rw [if_pos h, compare_lt_iff_lt.2 h]
      · simp
      · rw [if_neg h.le.not_gt, if_neg h.ne', if_pos h, compare_gt_iff_gt.2 h]

/-- Words are in the order of their floats, as far as those tell them apart. -/
theorem compare_rounded_then (m n : Int64) :
    (compare (Number.rounded m.toInt : ℚ) (Number.rounded n.toInt)).then (compare m n) =
      compare m n := by
  have hmono {j k : Int64} (h : j < k) :
      (Number.rounded j.toInt : ℚ) ≤ Number.rounded k.toInt := by
    exact_mod_cast Number.rounded_mono (Int64.lt_iff_toInt_lt.1 h).le
  cases h : compare m n with
  | lt =>
    obtain hlt | heq := (hmono (Std.compare_eq_lt.1 h)).lt_or_eq
    · rw [compare_lt_iff_lt.2 hlt]
      rfl
    · rw [compare_eq_iff_eq.2 heq]
      rfl
  | eq =>
    obtain rfl := Std.compare_eq_iff_eq.1 h
    rw [compare_eq_iff_eq.2 rfl]
    rfl
  | gt =>
    obtain hlt | heq := (hmono (Std.compare_eq_gt.1 h)).lt_or_eq
    · rw [compare_gt_iff_gt.2 hlt]
      rfl
    · rw [compare_eq_iff_eq.2 heq.symm]
      rfl

/-- Numbers are in the order of their places. Words at one place are compared exactly. -/
theorem order?_eq (ha : a.isNumber = true) (hb : b.isNumber = true) :
    a.order? b = a.place?.bind fun p => b.place?.map fun q => (compare p q).then (a.tie b) := by
  have hfloats (htie : a.tie b = .eq) (horder : a.order? b = orderFloats? a.number b.number) :
      a.order? b =
        a.place?.bind fun p => b.place?.map fun q => (compare p q).then (a.tie b) := by
    rw [horder, orderFloats?_eq, Number.compare_view (Number.canonized_view _)
      (Number.canonized_view _), htie]
    simp only [Ordering.then_eq]
    rfl
  cases a with
  | integer m =>
    cases b with
    | integer n =>
      simp only [place?, number, Number.place_ofInt, Option.bind_some, Option.map_some, tie,
        compare_rounded_then]
      rfl
    | float y => exact hfloats rfl rfl
    | _ => cases hb
  | float x =>
    cases b with
    | integer n => exact hfloats rfl rfl
    | float y => exact hfloats rfl rfl
    | _ => cases hb
  | _ => cases ha

inductive Comparable : Value → Value → Prop where
  | numbers {a b : Value} : a.isNumber = true → b.isNumber = true → Comparable a b
  | texts (s t : String) : Comparable (.string s) (.string t)

def isNaN : Value → Bool
  | .float x => x.isNaN
  | _ => false

theorem place?_eq_none_iff (ha : a.isNumber = true) : a.place? = none ↔ a.isNaN = true := by
  cases a with
  | integer n => simp [place?, number, Number.place_ofInt, isNaN]
  | float x => exact Number.place_eq_none_iff
  | _ => cases ha

theorem Comparable.order?_eq_none_iff (h : Comparable a b) :
    a.order? b = none ↔ a.isNaN = true ∨ b.isNaN = true := by
  cases h with
  | numbers ha hb =>
    rw [order?_eq ha hb, ← place?_eq_none_iff ha, ← place?_eq_none_iff hb]
    cases a.place? <;> simp
  | texts s t => simp [order?, isNaN]

theorem Comparable.order?_swap (h : Comparable a b) :
    b.order? a = (a.order? b).map Ordering.swap := by
  cases h with
  | numbers ha hb =>
    rw [order?_eq ha hb, order?_eq hb ha, tie_swap a b]
    cases a.place? with
    | none => cases b.place? <;> rfl
    | some p =>
      cases b.place? with
      | none => rfl
      | some q =>
        have hswap : compare q p = (compare p q).swap := Std.OrientedCmp.eq_swap
        simp only [Option.bind_some, Option.map_some, hswap, Ordering.swap_then]
  | texts s t =>
    have hswap : compare t s = (compare s t).swap := Std.OrientedCmp.eq_swap
    exact congrArg some hswap

theorem Comparable.strictEquals_iff (h : Comparable a b) :
    a.strictEquals b = true ↔ a.order? b = some .eq := by
  cases h with
  | numbers ha hb =>
    have hfloats (x y : Float) : (x == y) = true ↔ orderFloats? x y = some .eq := by
      rw [orderFloats?_eq]
      exact Number.beq_iff_compare
    cases a with
    | integer m =>
      cases b with
      | integer n => simp [strictEquals, order?]
      | float y => exact hfloats _ _
      | _ => cases hb
    | float x =>
      cases b with
      | integer n => exact hfloats _ _
      | float y => exact hfloats _ _
      | _ => cases hb
    | _ => cases ha
  | texts s t => simp [strictEquals, order?]

/-- A number is less than another one at its place or behind it; at its place, only as a word. -/
theorem order?_eq_lt_iff (ha : a.isNumber = true) (hb : b.isNumber = true) :
    a.order? b = some .lt ↔ ∃ p q, a.place? = some p ∧ b.place? = some q ∧
      (p < q ∨ p = q ∧ a.tie b = .lt) := by
  rw [order?_eq ha hb]
  cases a.place? <;> cases b.place? <;> simp [Ordering.then_eq_lt, compare_lt_iff_lt]

theorem tie_trans (hab : a.tie b = .lt) (hbc : b.tie c = .lt) : a.tie c = .lt := by
  cases a with
  | integer m =>
    cases b with
    | integer n =>
      cases c with
      | integer k =>
        have hmn : compare m n = .lt := hab
        have hnk : compare n k = .lt := hbc
        have hmk : compare m k = .lt := Std.TransCmp.lt_trans hmn hnk
        exact hmk
      | _ => cases hbc
    | _ => cases hab
  | _ => cases hab

theorem order?_lt_trans (ha : a.isNumber = true) (hb : b.isNumber = true) (hc : c.isNumber = true)
    (hab : a.order? b = some .lt) (hbc : b.order? c = some .lt) : a.order? c = some .lt := by
  obtain ⟨p, q, hp, hq, hpq⟩ := (order?_eq_lt_iff ha hb).1 hab
  obtain ⟨q', r, hq', hr, hqr⟩ := (order?_eq_lt_iff hb hc).1 hbc
  obtain rfl := Option.some.inj (hq.symm.trans hq')
  refine (order?_eq_lt_iff ha hc).2 ⟨p, r, hp, hr, ?_⟩
  obtain hpq | ⟨rfl, htie⟩ := hpq
  · exact .inl (hpq.trans_le (hqr.elim le_of_lt fun h => h.1.le))
  · exact hqr.imp_right fun ⟨hqr, htie'⟩ => ⟨hqr, tie_trans htie htie'⟩

theorem Comparable.order?_trans (h : Comparable a b) (h' : Comparable b c)
    (hab : a.order? b = some .lt) (hbc : b.order? c = some .lt) : a.order? c = some .lt := by
  cases h with
  | numbers ha hb =>
    cases h' with
    | numbers _ hc => exact order?_lt_trans ha hb hc hab hbc
    | texts => cases hb
  | texts s t =>
    cases h' with
    | numbers hb _ => cases hb
    | texts _ u =>
      have hst : compare s t = .lt := Option.some.inj hab
      have htu : compare t u = .lt := Option.some.inj hbc
      exact congrArg some (Std.TransCmp.lt_trans hst htu)

def comparisons : List Operator :=
  [.lessThan, .lessEqual, .greaterThan, .greaterEqual, .strictEqual]

theorem exists_eval_comparison (a b : Value) {op : Operator} (hop : op ∈ comparisons) :
    ∃ yes : Bool, ∀ env : Environment,
      (Tree.binary op (.literal a) (.literal b)).eval env = ⟨.ok (.boolean yes), []⟩ := by
  have hbinary {f : Value → Value → Bool}
      (hf : op.binaryFunction? = some fun a b => .boolean (f a b)) :
      ∃ yes : Bool, ∀ env : Environment,
        (Tree.binary op (.literal a) (.literal b)).eval env = ⟨.ok (.boolean yes), []⟩ :=
    ⟨f a b, Operator.eval_literals hf a b⟩
  simp only [comparisons, List.mem_cons, List.not_mem_nil, or_false] at hop
  obtain rfl | rfl | rfl | rfl | rfl := hop <;> exact hbinary rfl

def teller : Ordering → Operator
  | .lt => .lessThan
  | .eq => .strictEqual
  | .gt => .greaterThan

theorem Comparable.holds_teller_iff (h : Comparable a b) (o : Ordering) :
    (teller o).Holds a b ↔ a.order? b = some o := by
  cases o with
  | lt => exact Operator.lessThan_holds_iff
  | eq => exact Operator.strictEqual_holds_iff.trans h.strictEquals_iff
  | gt => exact Operator.greaterThan_holds_iff

theorem Comparable.existsUnique_holds (h : Comparable a b) (ha : a.isNaN = false)
    (hb : b.isNaN = false) :
    ∃! op, op ∈ [Operator.lessThan, .strictEqual, .greaterThan] ∧ op.Holds a b := by
  have hsome : a.order? b ≠ none := fun hnone => by simp [h.order?_eq_none_iff, ha, hb] at hnone
  obtain ⟨o, ho⟩ := Option.ne_none_iff_exists'.1 hsome
  refine ⟨teller o, ⟨by cases o <;> simp [teller], (h.holds_teller_iff o).2 ho⟩, ?_⟩
  rintro op ⟨hop, hholds⟩
  obtain ⟨o', rfl⟩ : ∃ o', op = teller o' := by
    simp only [List.mem_cons, List.not_mem_nil, or_false] at hop
    obtain rfl | rfl | rfl := hop
    · exact ⟨.lt, rfl⟩
    · exact ⟨.eq, rfl⟩
    · exact ⟨.gt, rfl⟩
  rw [h.holds_teller_iff, ho] at hholds
  rw [Option.some.inj hholds]

theorem Comparable.not_holds (h : Comparable a b) (hnan : a.isNaN = true ∨ b.isNaN = true)
    {op : Operator} (hop : op ∈ comparisons) : ¬op.Holds a b := by
  have hnone := h.order?_eq_none_iff.2 hnan
  simp only [comparisons, List.mem_cons, List.not_mem_nil, or_false] at hop
  obtain rfl | rfl | rfl | rfl | rfl := hop
  · simp [Operator.lessThan_holds_iff, hnone]
  · simp [Operator.lessEqual_holds_iff, hnone]
  · simp [Operator.greaterThan_holds_iff, hnone]
  · simp [Operator.greaterEqual_holds_iff, hnone]
  · simp [Operator.strictEqual_holds_iff, h.strictEquals_iff, hnone]

theorem Comparable.lessEqual_holds_iff (h : Comparable a b) :
    Operator.lessEqual.Holds a b ↔ Operator.lessThan.Holds a b ∨ Operator.strictEqual.Holds a b := by
  rw [Operator.lessEqual_holds_iff, Operator.lessThan_holds_iff, Operator.strictEqual_holds_iff,
    h.strictEquals_iff]

theorem Comparable.greaterThan_holds_iff (h : Comparable a b) :
    Operator.greaterThan.Holds a b ↔ Operator.lessThan.Holds b a := by
  rw [Operator.greaterThan_holds_iff, Operator.lessThan_holds_iff, h.order?_swap]
  cases a.order? b with
  | none => simp
  | some o => cases o <;> simp

theorem Comparable.greaterEqual_holds_iff (h : Comparable a b) :
    Operator.greaterEqual.Holds a b ↔ Operator.lessEqual.Holds b a := by
  rw [Operator.greaterEqual_holds_iff, Operator.lessEqual_holds_iff, h.order?_swap]
  cases a.order? b with
  | none => simp
  | some o => cases o <;> simp

/-- On numbers, and on texts, comparisons form one order. Each of them is evaluated to a yes or a
no. Of two values, unless one is not-a-number, the first is less than the second, equal to it or
greater, and only one of these; a not-a-number compares with nothing. The other comparisons follow
from these, and a value that is less than another is less than what is greater than that one. -/
theorem comparison_laws :
    (∀ op ∈ comparisons, ∀ a b : Value, ∃ yes : Bool, ∀ env : Environment,
      (Tree.binary op (.literal a) (.literal b)).eval env = ⟨.ok (.boolean yes), []⟩) ∧
    (∀ a b : Value, Comparable a b → a.isNaN = false → b.isNaN = false →
      ∃! op, op ∈ [Operator.lessThan, .strictEqual, .greaterThan] ∧ op.Holds a b) ∧
    (∀ a b : Value, Comparable a b → a.isNaN = true ∨ b.isNaN = true →
      ∀ op ∈ comparisons, ¬op.Holds a b) ∧
    (∀ a b : Value, Comparable a b →
      (Operator.lessEqual.Holds a b ↔
        Operator.lessThan.Holds a b ∨ Operator.strictEqual.Holds a b) ∧
      (Operator.greaterThan.Holds a b ↔ Operator.lessThan.Holds b a) ∧
      (Operator.greaterEqual.Holds a b ↔ Operator.lessEqual.Holds b a)) ∧
    ∀ a b c : Value, Comparable a b → Comparable b c → Operator.lessThan.Holds a b →
      Operator.lessThan.Holds b c → Operator.lessThan.Holds a c :=
  ⟨fun _ hop a b => exists_eval_comparison a b hop,
    fun _ _ h => h.existsUnique_holds,
    fun _ _ h hnan _ hop => h.not_holds hnan hop,
    fun _ _ h => ⟨h.lessEqual_holds_iff, h.greaterThan_holds_iff, h.greaterEqual_holds_iff⟩,
    fun _ _ _ h h' hab hbc => by
      rw [Operator.lessThan_holds_iff] at hab hbc ⊢
      exact h.order?_trans h' hab hbc⟩

/-- A word, the float `2 ^ 53` and a greater word are in order. The word after `2 ^ 53` becomes that
float, so it is neither less nor greater. -/
theorem comparison_laws_words :
    let a : Value := .integer 9007199254740991
    let b : Value := .float (Number.ofInt 9007199254740992)
    let c : Value := .integer 9007199254740993
    let d : Value := .integer 9007199254740995
    Operator.lessThan.Holds a d ∧ Operator.greaterThan.Holds d b ∧
      Operator.lessEqual.Holds b c ∧ ¬Operator.lessThan.Holds b c ∧
      ¬Operator.strictEqual.Holds (.float Number.nan) b ∧
      Operator.greaterThan.Holds (.string "b") (.string "Z") := by
  intro a b c d
  obtain ⟨-, hone, hnan, hrest, htrans⟩ := comparison_laws
  have hab : Comparable a b := .numbers rfl rfl
  have hbc : Comparable b c := .numbers rfl rfl
  have hbd : Comparable b d := .numbers rfl rfl
  have hdb : Comparable d b := .numbers rfl rfl
  have hless : Operator.lessThan.Holds b d := Operator.lessThan_holds_iff.2 (by decide)
  have hequal : Operator.strictEqual.Holds b c := Operator.strictEqual_holds_iff.2 (by decide)
  have htext : Operator.lessThan.Holds (.string "Z") (.string "b") :=
    Operator.lessThan_holds_iff.2 (by decide)
  refine ⟨?_, (hrest d b hdb).2.1.2 hless, (hrest b c hbc).1.2 (.inr hequal), fun h => ?_, ?_, ?_⟩
  · exact htrans a b d hab hbd (Operator.lessThan_holds_iff.2 (by decide)) hless
  · have heq := (hone b c hbc (by decide) rfl).unique ⟨by simp, h⟩ ⟨by simp, hequal⟩
    cases heq
  · exact hnan _ b (.numbers rfl rfl) (.inl (by decide)) .strictEqual (by decide)
  · exact (hrest _ _ (.texts "b" "Z")).2.1.2 htext

end Value

end TemplateBinding
