import TemplateBinding.Proofs.Number.Reading
import TemplateBinding.Proofs.Text.Trimming
import TemplateBinding.Proofs.Value.Looseness
import TemplateBinding.Value.Operation

set_option autoImplicit false

namespace TemplateBinding

namespace Value

open Number (Numeral)

theorem numberOfChars_nil : numberOfChars [] = 0 := rfl

theorem numberOfChars_of_mem {cs : List Char} (h : ',' ∈ cs) : numberOfChars cs = Number.nan := by
  have hmem : ',' ∈ Text.trim cs := Text.mem_trim h (by decide)
  have hword : ∀ word : List Char, ',' ∉ word → Text.trim cs ≠ word := by
    rintro word hword rfl
    exact hword hmem
  have hread : Number.readFloat? (Text.trim cs) = none := by
    cases hx : Number.readFloat? (Text.trim cs) with
    | none => rfl
    | some x =>
      have hcomma := Number.alphabet_of_readFloat? hx hmem
      cases hcomma
  simp only [numberOfChars, hread, hword [] (by decide), hword Number.infinityWord (by decide),
    hword ('+' :: Number.infinityWord) (by decide), hword ('-' :: Number.infinityWord) (by decide),
    or_self, if_false, Option.getD_none, ite_self]

theorem mem_chars_array (v w : Value) (items : List Value) :
    ',' ∈ (array (v :: w :: items)).chars := by
  simp [chars, itemChars]

/-- The array has a single item, and that one is missing. -/
def IsLoneNullish (items : List Value) : Prop := ∃ v, items = [v] ∧ v.isNullish = true

theorem number_text (v : Value) : (string v.text).number = numberOfChars v.chars := by
  rw [text_eq_ofList_chars, number, String.toList_ofList]

theorem numberOfChars_of_isNullish {v : Value} (h : v.isNullish = true) :
    numberOfChars v.chars = Number.nan := by
  cases v with
  | undefined => rfl
  | null => rfl
  | _ => cases h

theorem number_array_of_isNullish {v : Value} (h : v.isNullish = true) :
    (array [v]).number = Number.nan ∧ (string (array [v]).text).number = 0 := by
  refine ⟨numberOfChars_of_isNullish h, ?_⟩
  rw [number_text]
  simp [chars, itemChars, h, numberOfChars_nil]

theorem number_array {items : List Value} (h : ¬IsLoneNullish items) :
    (array items).number = (string (array items).text).number := by
  rw [number_text]
  match items with
  | [] => rfl
  | [v] =>
    have hv : v.isNullish = false := by
      rw [← Bool.not_eq_true]
      exact fun hv => h ⟨v, rfl, hv⟩
    simp [number, chars, itemChars, hv]
  | v :: w :: items => exact (numberOfChars_of_mem (mem_chars_array v w items)).symm

theorem number_array_iff (items : List Value) :
    (array items).number = (string (array items).text).number ↔ ¬IsLoneNullish items := by
  refine ⟨?_, number_array⟩
  rintro h ⟨v, rfl, hv⟩
  obtain ⟨harray, htext⟩ := number_array_of_isNullish hv
  rw [harray, htext] at h
  exact absurd h (by decide)

variable {items : List Value} {b : Value}

theorem order?_array (h : ¬IsLoneNullish items) (hb : b.string? = none) :
    (array items).order? b = (string (array items).text).order? b ∧
      b.order? (array items) = b.order? (string (array items).text) := by
  have hnumber := number_array h
  cases b with
  | string s => cases hb
  | _ => simp only [order?, hnumber, and_self]

theorem looseEquals_array (h : ¬IsLoneNullish items) (hb : b.isPrimitive = true)
    (hs : b.string? = none) :
    (array items).looseEquals b = ((array items).number == b.number) := by
  have htext : (string (array items).text).isPrimitive = true := rfl
  have hcontainer : (array items).isContainer = true := rfl
  have htype : (string (array items).text).typeName ≠ b.typeName := by
    cases b with
    | string s => cases hs
    | _ => simp [typeName]
  rw [looseEquals_of_isContainer hcontainer hb, looseEquals_of_isPrimitive htext hb,
    looseEqualsPrimitive, if_neg htype, number_array h]

/-- The number of an array is that of its text, unless its only item is missing: then the text is
empty and zero, and the array is not-a-number. Apart from that a sign, comparisons with other
values than texts, and loose equality with booleans and numbers all take the array for that one
number. -/
theorem number_array_laws (items : List Value) :
    ((array items).number = (string (array items).text).number ↔ ¬IsLoneNullish items) ∧
    (IsLoneNullish items →
      (array items).number = Number.nan ∧ (string (array items).text).number = 0) ∧
    (¬IsLoneNullish items →
      (array items).positive = (string (array items).text).positive ∧
      ∀ b : Value, b.string? = none →
        (array items).order? b = (string (array items).text).order? b ∧
        b.order? (array items) = b.order? (string (array items).text) ∧
        (b.isPrimitive = true →
          (array items).looseEquals b = ((array items).number == b.number))) := by
  refine ⟨number_array_iff items, ?_, fun h => ⟨congrArg float (number_array h), fun b hb => ?_⟩⟩
  · rintro ⟨v, rfl, hv⟩
    exact number_array_of_isNullish hv
  · obtain ⟨hleft, hright⟩ := order?_array h hb
    exact ⟨hleft, hright, fun hp => looseEquals_array h hp hb⟩

/-- An array of an empty array is zero, like `false`. An array of nothing but `null` is no number,
though its text is the same. -/
theorem number_array_laws_empty :
    ¬IsLoneNullish [array []] ∧ (array [array []]).looseEquals (.boolean false) = true ∧
      IsLoneNullish [null] ∧ (array [null]).number = Number.nan ∧
      (string (array [null]).text).number = 0 := by
  have hempty : ¬IsLoneNullish [array []] := by
    rintro ⟨v, hv, hnullish⟩
    obtain rfl := (List.cons.inj hv).1
    cases hnullish
  have hnull : IsLoneNullish [null] := ⟨null, rfl, rfl⟩
  obtain ⟨-, -, hlaw⟩ := number_array_laws [array []]
  obtain ⟨-, -, hequals⟩ := (hlaw hempty).2 (.boolean false) rfl
  obtain ⟨-, hlone, -⟩ := number_array_laws [null]
  refine ⟨hempty, ?_, hnull, hlone hnull⟩
  rw [hequals rfl]
  decide

/-- The number of `[null]` is not that of its text. -/
theorem number_array_ne :
    (array [.null]).number ≠ (string (array [.null]).text).number := by
  decide

end Value

end TemplateBinding
