import TemplateBinding.Proofs.Value.Equality

set_option autoImplicit false

namespace TemplateBinding.Value

variable {a b : Value}

theorem isNullish_eq_false_of_isPrimitive (h : a.isPrimitive = true) : a.isNullish = false := by
  cases a with
  | undefined => cases h
  | null => cases h
  | _ => rfl

theorem isNullish_eq_false_of_isContainer (h : a.isContainer = true) : a.isNullish = false := by
  cases a with
  | array _ => rfl
  | object _ => rfl
  | _ => cases h

theorem isContainer_eq_false_of_isPrimitive (h : a.isPrimitive = true) :
    a.isContainer = false := by
  cases a with
  | array _ => cases h
  | object _ => cases h
  | _ => rfl

theorem isNullish_eq (v : Value) :
    v.isNullish = decide (v.typeName ∈ ["undefined", "null"]) := by
  cases v <;> rfl

theorem isPrimitive_eq (v : Value) :
    v.isPrimitive = decide (v.typeName ∈ ["boolean", "number", "string"]) := by
  cases v <;> rfl

theorem isContainer_eq (v : Value) :
    v.isContainer = decide (v.typeName ∈ ["array", "object"]) := by
  cases v <;> rfl

theorem typeName_ne_of_isContainer (ha : a.isContainer = true) (hb : b.isPrimitive = true) :
    a.typeName ≠ b.typeName := by
  intro h
  have hcontainer : b.isContainer = true := by rwa [isContainer_eq, ← h, ← isContainer_eq]
  rw [isContainer_eq_false_of_isPrimitive hb] at hcontainer
  cases hcontainer

theorem looseEquals_of_isNullish (h : (a.isNullish || b.isNullish) = true) :
    a.looseEquals b = (a.isNullish && b.isNullish) := if_pos h

theorem looseEquals_of_typeName (ha : a.isNullish = false) (hb : b.isNullish = false)
    (h : a.typeName = b.typeName) : a.looseEquals b = a.strictEquals b := by
  rw [looseEquals, if_neg (by simp [ha, hb]), if_pos h]

theorem looseEquals_of_isPrimitive (ha : a.isPrimitive = true) (hb : b.isPrimitive = true) :
    a.looseEquals b = looseEqualsPrimitive a b := by
  simp [looseEquals, looseEqualsPrimitive, isNullish_eq_false_of_isPrimitive ha,
    isNullish_eq_false_of_isPrimitive hb, isContainer_eq_false_of_isPrimitive ha,
    isContainer_eq_false_of_isPrimitive hb, ha, hb]

/-- A container meets a primitive value as its text. -/
theorem looseEquals_of_isContainer (ha : a.isContainer = true) (hb : b.isPrimitive = true) :
    a.looseEquals b = (string a.text).looseEquals b := by
  have htext : (string a.text).isPrimitive = true := rfl
  rw [looseEquals_of_isPrimitive htext hb]
  simp [looseEquals, isNullish_eq_false_of_isContainer ha, isNullish_eq_false_of_isPrimitive hb,
    typeName_ne_of_isContainer ha hb, ha, hb]

theorem looseEquals_of_isContainer_right (ha : a.isPrimitive = true) (hb : b.isContainer = true) :
    a.looseEquals b = a.looseEquals (string b.text) := by
  have htext : (string b.text).isPrimitive = true := rfl
  rw [looseEquals_of_isPrimitive ha htext]
  simp [looseEquals, isNullish_eq_false_of_isContainer hb, isNullish_eq_false_of_isPrimitive ha,
    isContainer_eq_false_of_isPrimitive ha, (typeName_ne_of_isContainer hb ha).symm, ha, hb]

theorem typeName_eq_of_strictEquals (h : a.strictEquals b = true) : a.typeName = b.typeName := by
  cases a with
  | integer m => obtain rfl | ⟨y, rfl, -⟩ := integer_strictEquals_iff.1 h <;> rfl
  | float x => obtain ⟨n, rfl, -⟩ | ⟨y, rfl, -⟩ := float_strictEquals_iff.1 h <;> rfl
  | array vs =>
    obtain ⟨ws, rfl, -⟩ := array_strictEquals_iff.1 h
    rfl
  | object es =>
    obtain ⟨fs, rfl, -⟩ := object_strictEquals_iff.1 h
    rfl
  | _ => rw [(strictEquals_iff_eq rfl rfl).1 h]

theorem isNullish_eq_of_strictEquals (h : a.strictEquals b = true) :
    a.isNullish = b.isNullish := by
  rw [isNullish_eq, isNullish_eq, typeName_eq_of_strictEquals h]

/-- Without a primitive value nothing is converted: values are equal if they are strictly equal, or
if both are missing. -/
theorem looseEquals_of_not_isPrimitive (ha : a.isPrimitive = false) (hb : b.isPrimitive = false) :
    a.looseEquals b = (a.isNullish && b.isNullish || a.strictEquals b) := by
  cases hstrict : a.strictEquals b with
  | true =>
    simp [looseEquals, isNullish_eq_of_strictEquals hstrict, typeName_eq_of_strictEquals hstrict,
      hstrict]
  | false =>
    cases hnullish : a.isNullish || b.isNullish with
    | true => rw [looseEquals_of_isNullish hnullish, Bool.or_false]
    | false =>
      have hboth : (a.isNullish && b.isNullish) = false := by
        rw [(Bool.or_eq_false_iff.1 hnullish).1, Bool.false_and]
      rw [hboth]
      simp [looseEquals, hnullish, ha, hb, hstrict]

theorem looseEquals_eq_false (ha : a.isPrimitive = true) (hb : b.isPrimitive = false)
    (hb' : b.isContainer = false) : a.looseEquals b = false ∧ b.looseEquals a = false := by
  have htype : a.typeName ≠ b.typeName := fun h => by
    rw [isPrimitive_eq, h, ← isPrimitive_eq, hb] at ha
    cases ha
  simp [looseEquals, isNullish_eq_false_of_isPrimitive ha, isContainer_eq_false_of_isPrimitive ha,
    htype, htype.symm, hb, hb']

theorem looseEqualsPrimitive_comm (a b : Value) :
    looseEqualsPrimitive a b = looseEqualsPrimitive b a := by
  unfold looseEqualsPrimitive
  by_cases h : a.typeName = b.typeName
  · rw [if_pos h, if_pos h.symm, strictEquals_comm]
  · rw [if_neg h, if_neg (Ne.symm h), BEq.comm]

theorem looseEquals_comm_of_isPrimitive (ha : a.isPrimitive = true) (b : Value) :
    a.looseEquals b = b.looseEquals a := by
  have hcomm {c : Value} (hc : c.isPrimitive = true) : a.looseEquals c = c.looseEquals a := by
    rw [looseEquals_of_isPrimitive ha hc, looseEquals_of_isPrimitive hc ha,
      looseEqualsPrimitive_comm]
  cases hb : b.isPrimitive with
  | true => exact hcomm hb
  | false =>
    cases hb' : b.isContainer with
    | true =>
      have htext : (string b.text).isPrimitive = true := rfl
      rw [looseEquals_of_isContainer_right ha hb', looseEquals_of_isContainer hb' ha, hcomm htext]
    | false =>
      obtain ⟨hab, hba⟩ := looseEquals_eq_false ha hb hb'
      rw [hab, hba]

theorem looseEquals_comm (a b : Value) : a.looseEquals b = b.looseEquals a := by
  cases ha : a.isPrimitive with
  | true => exact looseEquals_comm_of_isPrimitive ha b
  | false =>
    cases hb : b.isPrimitive with
    | true => exact (looseEquals_comm_of_isPrimitive hb a).symm
    | false =>
      rw [looseEquals_of_not_isPrimitive ha hb, looseEquals_of_not_isPrimitive hb ha,
        Bool.and_comm, strictEquals_comm]

theorem looseEquals_of_strictEquals (h : a.strictEquals b = true) : a.looseEquals b = true := by
  have hnullish := isNullish_eq_of_strictEquals h
  cases ha : a.isNullish with
  | true =>
    rw [looseEquals_of_isNullish (by simp [ha]), ← hnullish, ha]
    rfl
  | false => rwa [looseEquals_of_typeName ha (hnullish ▸ ha) (typeName_eq_of_strictEquals h)]

/-- Loose equality is symmetric, and holds of values that are strictly equal. Of values of one type
that are not missing it holds of no others; between types, a container stands for its text. -/
theorem looseEquals_laws :
    (∀ a b : Value, a.looseEquals b = b.looseEquals a) ∧
    (∀ a b : Value, a.strictEquals b = true → a.looseEquals b = true) ∧
    (∀ a b : Value, a.isNullish = false → b.isNullish = false → a.typeName = b.typeName →
      (a.looseEquals b = true ↔ a.strictEquals b = true)) ∧
    ∀ a b : Value, a.isContainer = true → b.isPrimitive = true →
      a.looseEquals b = (string a.text).looseEquals b :=
  ⟨looseEquals_comm, fun _ _ => looseEquals_of_strictEquals,
    fun _ _ ha hb h => by rw [looseEquals_of_typeName ha hb h],
    fun _ _ => looseEquals_of_isContainer⟩

/-- Arrays of a word and of the same number as a float are equal, and are no texts; but they equal
the text that they have. -/
theorem looseEquals_laws_items :
    let words : Value := .array [.integer 1, .null]
    let floats : Value := .array [.float (Number.ofInt 1), .null]
    words.strictEquals floats = true ∧ words.looseEquals floats = true ∧
      words.looseEquals (.string "1,") = true ∧ (string "1,").looseEquals words = true := by
  intro words floats
  obtain ⟨hcomm, hstrict, htype, htext⟩ := looseEquals_laws
  have hequal : words.strictEquals floats = true := by decide
  have hwords : words.looseEquals (.string "1,") = true := by
    have hname : (string words.text).typeName = (string "1,").typeName := rfl
    rw [htext words (.string "1,") rfl rfl, htype _ _ rfl rfl hname]
    decide
  exact ⟨hequal, hstrict _ _ hequal, hwords, hcomm _ _ ▸ hwords⟩

end TemplateBinding.Value
