import TemplateBinding.Proofs.Number.Spelling
import TemplateBinding.Proofs.Value.Comparison
import TemplateBinding.Proofs.Value.Conversion

set_option autoImplicit false

namespace TemplateBinding

namespace Number.Numeral

theorem forall_alphabet {P : Char → Prop} (hdigits : ∀ n ∈ List.range' 48 10, P (Char.ofNat n))
    (hmarks : ['.', 'e', 'E', '+', '-'].Forall P) {c : Char} (hc : alphabet c = true) : P c := by
  rw [alphabet, Bool.or_eq_true] at hc
  obtain hdigit | hmark := hc
  · exact forall_digit hdigits hdigit
  · exact List.forall_iff_forall_mem.1 hmarks c (List.contains_iff_mem.1 hmark)

theorem isBlank_of_alphabet {c : Char} (h : alphabet c = true) : Text.isBlank c = false :=
  forall_alphabet (P := fun c => Text.isBlank c = false) (by decide) (by decide) h

theorem isAlpha_of_alphabet {c : Char} (h : alphabet c = true) :
    (c.isAlpha && c != 'e' && c != 'E') = false :=
  forall_alphabet (P := fun c => (c.isAlpha && c != 'e' && c != 'E') = false) (by decide)
    (by decide) h

end Number.Numeral

namespace Value

open Number (Numeral Sign)

theorem numberOfChars_of_readFloat? {cs : List Char} {x : Float}
    (h : Number.readFloat? cs = some x) : numberOfChars cs = x := by
  have halphabet {c : Char} (hc : c ∈ cs) := Number.alphabet_of_readFloat? h hc
  have htrim : Text.trim cs = cs :=
    Text.trim_eq_self fun c hc => Numeral.isBlank_of_alphabet (halphabet hc)
  have hempty : cs ≠ [] := by
    rintro rfl
    cases h
  have hword : ∀ word : List Char, 'I' ∈ word → cs ≠ word := by
    rintro word hword rfl
    cases halphabet hword
  have hletters : (cs.any fun c => c.isAlpha && c != 'e' && c != 'E') = false :=
    List.any_eq_false.2 fun c hc => by simp [Numeral.isAlpha_of_alphabet (halphabet hc)]
  simp only [numberOfChars, htrim, hempty, hword Number.infinityWord (by decide),
    hword ('+' :: Number.infinityWord) (by decide), hword ('-' :: Number.infinityWord) (by decide),
    or_self, if_false, hletters, Bool.false_eq_true, h, Option.getD_some]

theorem numberOfChars_signed {n : Numeral} (hn : n.Complete) (negative : Bool) :
    numberOfChars (Number.signed negative n.spelling) = if negative then -n.value else n.value := by
  apply numberOfChars_of_readFloat?
  cases negative with
  | true =>
    rw [Number.signed, if_pos rfl, if_pos rfl]
    exact Number.readFloat?_neg_spelling hn
  | false =>
    rw [Number.signed, if_neg Bool.false_ne_true, if_neg Bool.false_ne_true]
    exact Number.readFloat?_spelling hn

theorem numberOfChars_whole (n : Int64) :
    numberOfChars (Number.whole n.toInt) = Number.ofInt n.toInt := by
  have hlt := Number.natAbs_toInt_lt n
  obtain ⟨x, hx, hwhole, hvalue⟩ := Number.exists_numeral_whole n.toInt
  rw [hwhole, numberOfChars_signed hx, hvalue, ← Number.signed_ofDecimal n.toInt hlt]
  simp

theorem beq_self_of_isNaN {x : Float} (h : x.isNaN = false) : (x == x) = true := by
  simpa using h

theorem numberOfChars_text {x : Float} (hx : x.isNaN = false) :
    (numberOfChars (Number.text x) == x) = true := by
  have hself := beq_self_of_isNaN hx
  cases h : Number.view x with
  | notANumber =>
    have hnan : x.isNaN = (Number.view x).isNaN := rfl
    rw [hnan, h] at hx
    cases hx
  | infinity s =>
    have hread : numberOfChars (Number.text x) = Number.infinity s := by
      unfold Number.text
      rw [h]
      cases s <;> rfl
    have hx : x = Number.infinity s := by rw [← Number.ofView_view x, h, Number.infinity]
    rw [hread, ← hx, hself]
  | zero s =>
    -- A zero is written without its sign.
    have hread : numberOfChars (Number.text x) = Number.ofInt 0 := by
      unfold Number.text
      rw [h]
      exact numberOfChars_whole 0
    have hx : x = Number.zero s := by rw [← Number.ofView_view x, h, Number.zero]
    rw [hread, hx]
    cases s <;> decide
  | finite s m e hm =>
    obtain ⟨n, hn, htext, hvalue⟩ := Number.exists_numeral_text h
    have hneg : -Number.ofView (.finite .positive m e hm) = Number.ofView (.finite .negative m e hm) :=
      Number.neg_ofView (Number.canonical_view h)
    have hread : numberOfChars (Number.text x) = x := by
      rw [htext, numberOfChars_signed hn, hvalue, ← Number.ofView_view x, h]
      cases s with
      | negative => exact (if_pos rfl).trans hneg
      | positive => exact if_neg Bool.false_ne_true
    rw [hread, hself]

variable {v : Value}

/-- The number of a number's text is the number. Only the sign of a zero is lost. -/
theorem number_text_beq (hv : v.isNumber = true) (hnan : v.isNaN = false) :
    ((string v.text).number == v.number) = true := by
  rw [number_text]
  cases v with
  | integer n =>
    have hread : numberOfChars (integer n).chars = Number.ofInt n.toInt := numberOfChars_whole n
    rw [hread]
    exact beq_self_of_isNaN (Number.isNaN_ofInt n)
  | float x => exact numberOfChars_text hnan
  | _ => cases hv

theorem typeName_of_isNumber (hv : v.isNumber = true) : v.typeName = "number" := by
  cases v with
  | integer _ => rfl
  | float _ => rfl
  | _ => cases hv

theorem looseEquals_text (hv : v.isNumber = true) (hnan : v.isNaN = false) :
    v.looseEquals (.string v.text) = true := by
  have htext : (string v.text).isPrimitive = true := rfl
  have hprimitive : v.isPrimitive = true := by
    rw [isPrimitive_eq, typeName_of_isNumber hv]
    rfl
  have htype : v.typeName ≠ (string v.text).typeName := by
    rw [typeName_of_isNumber hv]
    show "number" ≠ "string"
    decide
  rw [looseEquals_of_isPrimitive hprimitive htext, looseEqualsPrimitive, if_neg htype]
  exact BEq.symm (number_text_beq hv hnan)

theorem float_strictEquals_of_isNumber (x : Float) (hv : v.isNumber = true) :
    (float x).strictEquals v = (x == v.number) := by
  cases v with
  | integer _ => rfl
  | float _ => rfl
  | _ => cases hv

/-- Numbers survive as texts. The text of a number is not a not-a-number; with a plus in front it
is a number that is strictly equal to the first, and the first and its text equal each other. -/
theorem text_reads_back (v : Value) (hv : v.isNumber = true) (hnan : v.isNaN = false) :
    (∃ r : Value, r.isNumber = true ∧ Operator.strictEqual.Holds r v ∧
      ∀ env : Environment,
        (Tree.unary .positive (.literal (.string v.text))).eval env = ⟨.ok r, []⟩) ∧
    Operator.equal.Holds v (.string v.text) ∧ Operator.equal.Holds (.string v.text) v := by
  refine ⟨⟨(string v.text).positive, rfl, ?_, fun env => ?_⟩, ?_, ?_⟩
  · rw [Operator.strictEqual_holds_iff]
    exact (float_strictEquals_of_isNumber _ hv).trans (number_text_beq hv hnan)
  · have hpositive : Operator.unaryFunction? .positive = some Value.positive := rfl
    have htext : (Tree.literal (.string v.text)).eval env = ⟨.ok (.string v.text), []⟩ := rfl
    exact eval_unary_ok hpositive htext
  · rw [Operator.equal_holds_iff]
    exact looseEquals_text hv hnan
  · rw [Operator.equal_holds_iff, looseEquals_comm]
    exact looseEquals_text hv hnan

/-- The word after `2 ^ 53` is read as the float before it, and equals that one; it is written with
its own digits. Of `0.1` the text is not needed. -/
theorem text_reads_back_word :
    let word : Value := .integer 9007199254740993
    let tenth : Value := .float (Number.ofView (.finite .positive 7205759403792794 (-56) (by decide)))
    word.isNumber = true ∧ word.isNaN = false ∧ tenth.isNaN = false ∧
      Operator.equal.Holds word (.string "9007199254740993") ∧
      Operator.equal.Holds (.string tenth.text) tenth := by
  intro word tenth
  have htext : word.text = "9007199254740993" := by decide
  have hword := text_reads_back word rfl rfl
  rw [htext] at hword
  exact ⟨rfl, rfl, by decide, hword.2.1, (text_reads_back tenth rfl (by decide)).2.2⟩

end Value

end TemplateBinding
