import TemplateBinding.Proofs.Grammar.Composition

set_option autoImplicit false

namespace TemplateBinding

def escapeLetter? : Char → Option Char
  | '\n' => some 'n'
  | '\t' => some 't'
  | '\r' => some 'r'
  | '\x08' => some 'b'
  | '\x0c' => some 'f'
  | '\x0b' => some 'v'
  | '\x00' => some '0'
  | _ => none

def WritesDigit (ch : Char) (digit : Nat) : Prop :=
  ch = Nat.digitChar digit ∨ ch = (Nat.digitChar digit).toUpper

/-- The text is written for the character. -/
inductive Writes (quote : Char) : List Char → Char → Prop
  | plain {c : Char} : c ≠ quote → c ≠ '\\' → Writes quote [c] c
  | named {c letter : Char} : escapeLetter? c = some letter → Writes quote ['\\', letter] c
  | escaped {c : Char} : c ∉ ['n', 't', 'r', 'b', 'f', 'v', '0', 'u'] → Writes quote ['\\', c] c
  | code {c d₃ d₂ d₁ d₀ : Char} : c.toNat ≤ 0xffff →
      WritesDigit d₃ (c.toNat / 4096) → WritesDigit d₂ (c.toNat / 256 % 16) →
      WritesDigit d₁ (c.toNat / 16 % 16) → WritesDigit d₀ (c.toNat % 16) →
        Writes quote ['\\', 'u', d₃, d₂, d₁, d₀] c

inductive WritesAll (quote : Char) : List Char → List Char → Prop
  | nil : WritesAll quote [] []
  | cons {word text cs : List Char} {c : Char} : Writes quote word c → WritesAll quote text cs →
      WritesAll quote (word ++ text) (c :: cs)

variable {quote : Char}

theorem WritesDigit.value_eq {ch : Char} {digit : Nat} (h : WritesDigit ch digit)
    (hd : digit < 16) :
    Cursor.isHexDigit ch = true ∧ Cursor.hexDigitValue ch = digit := by
  have hall : (List.range 16).all (fun n => [Nat.digitChar n, (Nat.digitChar n).toUpper].all
      fun ch => Cursor.isHexDigit ch && Cursor.hexDigitValue ch == n) = true := by decide
  have hch : ch ∈ [Nat.digitChar digit, (Nat.digitChar digit).toUpper] := by
    simpa [WritesDigit] using h
  have hvalue := List.all_eq_true.1 (List.all_eq_true.1 hall digit (List.mem_range.2 hd)) ch hch
  simpa using hvalue

theorem namedEscape_letter {c letter : Char} (h : escapeLetter? c = some letter) :
    letter ≠ 'u' ∧ Cursor.namedEscape letter = c := by
  unfold escapeLetter? at h
  split at h <;> first | cases h; decide | cases h

theorem namedEscape_self {c : Char} (h : c ∉ ['n', 't', 'r', 'b', 'f', 'v', '0', 'u']) :
    c ≠ 'u' ∧ Cursor.namedEscape c = c := by
  simp only [List.mem_cons, List.not_mem_nil, or_false, not_or] at h
  obtain ⟨hn, ht, hr, hb, hf, hv, h0, hu⟩ := h
  refine ⟨hu, ?_⟩
  unfold Cursor.namedEscape
  split <;> first | contradiction | rfl

theorem Writes.exists_stroke {word : List Char} {c : Char} (h : Writes quote word c) :
    ∃ s : Stroke quote, s.chars = word ∧ s.value = c := by
  cases h with
  | plain hq hb => exact ⟨.plain c ⟨hq, hb⟩, rfl, rfl⟩
  | @named _ letter hl =>
    obtain ⟨hu, hvalue⟩ := namedEscape_letter hl
    exact ⟨.escape letter hu, rfl, hvalue⟩
  | escaped hc =>
    obtain ⟨hu, hvalue⟩ := namedEscape_self hc
    exact ⟨.escape c hu, rfl, hvalue⟩
  | @code _ d₃ d₂ d₁ d₀ hc h₃ h₂ h₁ h₀ =>
    obtain ⟨hx₃, hv₃⟩ := h₃.value_eq (by omega)
    obtain ⟨hx₂, hv₂⟩ := h₂.value_eq (by omega)
    obtain ⟨hx₁, hv₁⟩ := h₁.value_eq (by omega)
    obtain ⟨hx₀, hv₀⟩ := h₀.value_eq (by omega)
    have hvalue : Cursor.hexValue [d₃, d₂, d₁, d₀] = c.toNat := by
      simp only [Cursor.hexValue, List.foldl_cons, List.foldl_nil, hv₃, hv₂, hv₁, hv₀]
      omega
    have hhex : ∀ d ∈ [d₃, d₂, d₁, d₀], Cursor.isHexDigit d = true := by
      simp [hx₃, hx₂, hx₁, hx₀]
    have hvalid : (Cursor.hexValue [d₃, d₂, d₁, d₀]).isValidChar := by
      rw [hvalue]
      exact c.valid
    refine ⟨.code [d₃, d₂, d₁, d₀] rfl hhex hvalid, rfl, ?_⟩
    rw [Stroke.value, hvalue, Char.ofNat_toNat]

theorem WritesAll.exists_strokes {text cs : List Char} (h : WritesAll quote text cs) :
    ∃ strokes : List (Stroke quote),
      strokes.flatMap Stroke.chars = text ∧ strokes.map Stroke.value = cs := by
  induction h with
  | nil => exact ⟨[], rfl, rfl⟩
  | cons hw _ ih =>
    obtain ⟨s, hs, hv⟩ := hw.exists_stroke
    obtain ⟨strokes, hstrokes, hvalues⟩ := ih
    exact ⟨s :: strokes, by rw [List.flatMap_cons, hs, hstrokes],
      by rw [List.map_cons, hv, hvalues]⟩

theorem WritesAll.exists_quotation {text : List Char} {s : String}
    (hq : quote = '\"' ∨ quote = '\'') (h : WritesAll quote text s.toList) :
    ∃ q : Quotation, q.chars = quote :: (text ++ [quote]) ∧ q.text = s := by
  obtain ⟨strokes, hstrokes, hvalues⟩ := h.exists_strokes
  refine ⟨⟨quote, hq, strokes⟩, ?_, ?_⟩
  · rw [Quotation.chars, hstrokes]
  · rw [Quotation.text, hvalues, String.ofList_toList]

def NumberWord.one : NumberWord where
  numeral := ⟨['1'], none, none⟩
  whole := List.all_eq_true.1 (by decide)
  fraction := nofun
  exponent := nofun
  nonempty := .inl nofun

namespace Arrangement

variable {limits : Limits}

theorem yields_quotation (q : Quotation) :
    Yields limits 0 {} q.chars [.of (.string q.text)] := by
  rw [← List.append_nil q.chars]
  exact yields_word rfl (Lexeme.reads_quotation q) delimits_nil fun _ =>
    ⟨_, rfl, yields_end (List.forall_mem_nil _) rfl⟩

theorem yields_entry (key : KeyWord) :
    Yields limits 1 {} ('\x7b' :: (key.chars ++ ':' :: ' ' :: '1' :: '\x7d' :: []))
      [.of (.key key.text), .of (.integer 1), ⟨.object, 1⟩] := by
  refine yields_opening .curly .object nofun (fun _ => accept_opening .curly nofun) Nat.one_pos
    fun position => ?_
  refine yields_key key rfl (yields_blank ?_)
  change Yields limits 1 _ (NumberWord.one.numeral.spelling ++ ['\x7d']) _
  refine yields_word rfl (Lexeme.reads_number .one) (delimits_cons (by decide)) fun _ =>
    ⟨_, rfl, ?_⟩
  exact yields_closing rfl (List.forall_mem_nil _) (yields_end (List.forall_mem_nil _) rfl)

end Arrangement

open Arrangement

def enclosed (quote : Char) (text : String) : String :=
  String.singleton quote ++ text ++ String.singleton quote

/-- A text in quotes is a string of the characters that it is written for, whichever way each of
them is written, and so is the key of an entry. -/
theorem tokenize_enclosed (limits : Limits) (hq : quote = '\"' ∨ quote = '\'') {text s : String}
    (h : WritesAll quote text.toList s.toList) :
    ((enclosed quote text).length ≤ limits.maxLength →
      tokenize limits (enclosed quote text) = .ok [.of (.string s)]) ∧
    (tokenize limits ("\x7b" ++ enclosed quote text ++ ": 1\x7d") =
        .ok [.of (.key s), .of (.integer 1), ⟨.object, 1⟩] ∨
      ∃ fault, tokenize limits ("\x7b" ++ enclosed quote text ++ ": 1\x7d") =
        .error (.limit fault)) ∧
    (("\x7b" ++ enclosed quote text ++ ": 1\x7d").length ≤ limits.maxLength →
      0 < limits.maxDepth →
        tokenize limits ("\x7b" ++ enclosed quote text ++ ": 1\x7d") =
          .ok [.of (.key s), .of (.integer 1), ⟨.object, 1⟩]) := by
  obtain ⟨q, hchars, rfl⟩ := h.exists_quotation hq
  have hliteral : (enclosed quote text).toList = q.chars := by
    simp [enclosed, hchars]
  have hobject : ("\x7b" ++ enclosed quote text ++ ": 1\x7d").toList =
      '\x7b' :: (q.chars ++ ':' :: ' ' :: '1' :: '\x7d' :: []) := by
    simp [hliteral]
  constructor
  · exact fun hl => (tokenize_of_arrange (yields_quotation q _ hliteral)).2 hl (Nat.zero_le _)
  · exact tokenize_of_arrange (yields_entry (.quoted q) _ hobject)

theorem tokenize_enclosed_mixed : WritesAll '\'' "\\u00E9\\n\\'0".toList "é\n'0".toList ∧
    tokenize {} "'\\u00E9\\n\\'0'" = .ok [.of (.string "é\n'0")] ∧
    tokenize {} "\x7b'\\u00E9\\n\\'0': 1\x7d" =
      .ok [.of (.key "é\n'0"), .of (.integer 1), ⟨.object, 1⟩] := by
  have hcode : Writes '\'' ['\\', 'u', '0', '0', 'E', '9'] 'é' :=
    .code (by decide) (.inl rfl) (.inl rfl) (.inr rfl) (.inl rfl)
  have hplain : Writes '\'' ['0'] '0' := .plain (by decide) (by decide)
  have h : WritesAll '\'' "\\u00E9\\n\\'0".toList "é\n'0".toList :=
    .cons hcode (.cons (.named rfl) (.cons (.escaped (by decide)) (.cons hplain .nil)))
  obtain ⟨hliteral, -, hobject⟩ := tokenize_enclosed {} (.inr rfl) h
  exact ⟨h, hliteral (by decide), hobject (by decide) (by decide)⟩

end TemplateBinding
