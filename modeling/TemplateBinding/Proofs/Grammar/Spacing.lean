import TemplateBinding.Source.Lexeme

set_option autoImplicit false

namespace TemplateBinding

def Blank (gap : List Char) : Prop := ∀ c ∈ gap, Text.isBlank c = true

inductive Spaced : List (List Char) → List Char → Prop
  | nil : Spaced [] []
  | last {word gap : List Char} : Blank gap → Spaced [word] (word ++ gap)
  | cons {word next gap text : List Char} {words : List (List Char)} :
      Blank gap → gap ≠ [] → Spaced (next :: words) text →
        Spaced (word :: next :: words) (word ++ (gap ++ text))

/-- What comes next, behind blanks or none, are words with blanks between them. -/
def Cursor.Ahead (c : Cursor) (words : List (List Char)) : Prop :=
  ∃ gap text, c.rest = gap ++ text ∧ Blank gap ∧ Spaced words text

def Apart (follow : List Char) : Prop := ∀ c cs, follow = c :: cs → Text.isBlank c = true

theorem apart_of_blank {gap : List Char} (h : Blank gap) : Apart gap := by
  rintro c cs rfl
  exact h c List.mem_cons_self

theorem apart_append {gap text : List Char} (h : Blank gap) (hne : gap ≠ []) :
    Apart (gap ++ text) := by
  cases gap with
  | nil => exact absurd rfl hne
  | cons b gap =>
    rintro c cs ⟨⟩
    exact h b List.mem_cons_self

namespace Cursor

theorem rest_skipBlanks (c : Cursor) : c.skipBlanks.rest = c.rest.dropWhile Text.isBlank := rfl

theorem skipBlanks_append {gap : List Char} (hb : Blank gap) (text : List Char)
    (offset : Nat) :
    skipBlanks ⟨gap ++ text, offset⟩ = skipBlanks ⟨text, offset + byteLength gap⟩ := by
  simp [skipBlanks, takeWhile, List.takeWhile_append_of_pos hb, List.dropWhile_append_of_pos hb,
    Nat.add_assoc]

theorem Ahead.rest_nil {c : Cursor} (h : c.Ahead []) : c.skipBlanks.rest = [] := by
  obtain ⟨gap, text, hr, hb, hs⟩ := h
  cases hs
  rw [rest_skipBlanks, hr, List.dropWhile_append_of_pos hb]
  rfl

/-- The first word stands behind the blanks, and the others are ahead of where it ends. -/
theorem Ahead.first {c : Cursor} {ch : Char} {cs : List Char} {words : List (List Char)}
    (h : c.Ahead ((ch :: cs) :: words)) (hch : Text.isBlank ch = false) :
    ∃ follow, c.skipBlanks.rest = ch :: cs ++ follow ∧ Apart follow ∧
      ∀ d : Cursor, d.rest = follow → d.Ahead words := by
  obtain ⟨gap, text, hr, hb, hs⟩ := h
  have hskip {follow : List Char} (ht : text = ch :: cs ++ follow) :
      c.skipBlanks.rest = ch :: cs ++ follow := by
    rw [rest_skipBlanks, hr, List.dropWhile_append_of_pos hb, ht, List.cons_append,
      List.dropWhile_cons_of_neg (by rw [hch]; exact Bool.false_ne_true)]
  cases hs with
  | @last _ follow hf =>
    exact ⟨follow, hskip rfl, apart_of_blank hf, fun d hd => ⟨follow, [], by simp [hd], hf, .nil⟩⟩
  | @cons _ next between text words hf hne ht =>
    exact ⟨between ++ text, hskip rfl, apart_append hf hne,
      fun d hd => ⟨between, text, hd, hf, ht⟩⟩

end Cursor

theorem spaced_intercalate (words : List (List Char)) : Spaced words ([' '].intercalate words) := by
  cases words with
  | nil => exact .nil
  | cons word words =>
    induction words generalizing word with
    | nil =>
      have h : Spaced [word] (word ++ []) := .last (List.forall_mem_nil _)
      simpa using h
    | cons next words ih =>
      have hblank : Blank [' '] := by simp [Blank, Text.isBlank]
      rw [List.intercalate_cons_cons, List.append_assoc]
      exact .cons hblank (List.cons_ne_nil _ _) (ih next)

theorem Cursor.ahead_start {source : String} {words : List (List Char)}
    (h : source.toList = [' '].intercalate words) : (start source).Ahead words :=
  ⟨[], _, h, List.forall_mem_nil _, spaced_intercalate words⟩

def blankCodes : List Nat :=
  [0x9, 0xa, 0xb, 0xc, 0xd, 0x20, 0x85, 0xa0, 0x1680, 0x2000, 0x2001, 0x2002, 0x2003, 0x2004, 0x2005,
    0x2006, 0x2007, 0x2008, 0x2009, 0x200a, 0x2028, 0x2029, 0x202f, 0x205f, 0x3000]

theorem mem_blankCodes {c : Char} (h : Text.isBlank c = true) : c.toNat ∈ blankCodes := by
  simp only [Text.isBlank, Bool.or_eq_true, Bool.and_eq_true, decide_eq_true_eq] at h
  simp only [blankCodes, List.mem_cons, List.not_mem_nil, or_false]
  omega

theorem isNamePart_of_isBlank {c : Char} (h : Text.isBlank c = true) : isNamePart c = false := by
  have hall : ∀ n ∈ blankCodes, isNamePart (Char.ofNat n) = false := by decide +kernel
  have hc := hall c.toNat (mem_blankCodes h)
  rwa [Char.ofNat_toNat] at hc

theorem ne_of_isBlank {c d : Char} (h : Text.isBlank c = true) (hd : Text.isBlank d = false) :
    c ≠ d := by
  rintro rfl
  rw [h] at hd
  cases hd

theorem forall_digit {P : Char → Prop} (h : ∀ n ∈ List.range' 48 10, P (Char.ofNat n)) {c : Char}
    (hc : c.isDigit = true) : P c := by
  have hbounds : 48 ≤ c.toNat ∧ c.toNat ≤ 57 := Char.isDigit_iff_toNat.1 hc
  have hp := h c.toNat (by rw [List.mem_range'_1]; omega)
  rwa [Char.ofNat_toNat] at hp

theorem isNamePart_of_isDigit {c : Char} (h : c.isDigit = true) : isNamePart c = true :=
  forall_digit (P := fun c => isNamePart c = true) (by decide) h

theorem isDigit_of_isBlank {c : Char} (h : Text.isBlank c = true) : c.isDigit = false := by
  cases hd : c.isDigit with
  | false => rfl
  | true =>
    have hn := isNamePart_of_isBlank h
    rw [isNamePart_of_isDigit hd] at hn
    cases hn

theorem isDigit_of_isNameStart {c : Char} (h : isNameStart c = true) : c.isDigit = false := by
  cases hd : c.isDigit with
  | false => rfl
  | true =>
    have hn := forall_digit (P := fun c => isNameStart c = false) (by decide) hd
    rw [h] at hn
    cases hn

theorem isBlank_of_isNamePart {c : Char} (h : isNamePart c = true) : Text.isBlank c = false := by
  cases hb : Text.isBlank c with
  | false => rfl
  | true =>
    rw [isNamePart_of_isBlank hb] at h
    cases h

theorem isBlank_of_isDigit {c : Char} (h : c.isDigit = true) : Text.isBlank c = false :=
  isBlank_of_isNamePart (isNamePart_of_isDigit h)

theorem ne_of_isNamePart {c d : Char} (h : isNamePart c = true) (hd : isNamePart d = false) :
    c ≠ d := by
  rintro rfl
  rw [h] at hd
  cases hd

theorem takeWhile_append_apart {p : Char → Bool} {cs follow : List Char}
    (hp : ∀ c ∈ cs, p c = true) (hf : ∀ c rest, follow = c :: rest → p c = false) :
    (cs ++ follow).takeWhile p = cs ∧ (cs ++ follow).dropWhile p = follow := by
  rw [List.takeWhile_append_of_pos hp, List.dropWhile_append_of_pos hp]
  cases follow with
  | nil => simp
  | cons c rest => simp [hf c rest rfl]

end TemplateBinding
