import TemplateBinding.Source.Path
import TemplateBinding.Token

set_option autoImplicit false

namespace TemplateBinding.Cursor

def isHexDigit (c : Char) : Bool :=
  c.isDigit || ('a' ≤ c && c ≤ 'f') || ('A' ≤ c && c ≤ 'F')

def hexDigitValue (c : Char) : Nat :=
  if c.isDigit then c.toNat - '0'.toNat
  else if 'a' ≤ c then c.toNat - 'a'.toNat + 10
  else c.toNat - 'A'.toNat + 10

def hexValue (cs : List Char) : Nat := cs.foldl (fun n c => 16 * n + hexDigitValue c) 0

def namedEscape : Char → Char
  | 'n' => '\n'
  | 't' => '\t'
  | 'r' => '\r'
  | 'b' => '\x08'
  | 'f' => '\x0c'
  | 'v' => '\x0b'
  | '0' => '\x00'
  | c => c

inductive Piece where
  | closed (next : Cursor)
  | character (c : Char) (next : Cursor)
  /-- A code that is no character, or is not made of four digits. -/
  | badCode (digits : List Char)
  | unterminated

def readPiece (quote : Char) (c : Cursor) : Piece :=
  match c.rest with
  | [] => .unterminated
  | ch :: rest =>
    if ch = quote then .closed c.next
    else if ch ≠ '\\' then .character ch c.next
    else match rest with
      | [] => .unterminated
      | 'u' :: rest =>
        let digits := (rest.take 4).takeWhile isHexDigit
        if digits.length = 4 ∧ (hexValue digits).isValidChar then
          .character (Char.ofNat (hexValue digits)) (c.skip 6)
        else .badCode digits
      | e :: _ => .character (namedEscape e) (c.skip 2)

theorem readPiece_single {quote a : Char} {rest : List Char} {c : Cursor}
    (ha : ¬(a = '\\' ∧ a ≠ quote)) (hr : c.rest = a :: rest) :
    c.readPiece quote = if a = quote then .closed c.next else .character a c.next := by
  unfold readPiece
  rw [hr]
  by_cases hq : a = quote
  · simp only [if_pos hq]
  · have hplain : a ≠ '\\' := fun h => ha ⟨h, hq⟩
    simp only [if_neg hq, if_pos hplain]

theorem readPiece_code {quote : Char} {rest : List Char} {c : Cursor} (hq : '\\' ≠ quote)
    (hr : c.rest = '\\' :: 'u' :: rest) :
    c.readPiece quote =
      if ((rest.take 4).takeWhile isHexDigit).length = 4 ∧
          (hexValue ((rest.take 4).takeWhile isHexDigit)).isValidChar then
        .character (Char.ofNat (hexValue ((rest.take 4).takeWhile isHexDigit))) (c.skip 6)
      else .badCode ((rest.take 4).takeWhile isHexDigit) := by
  simp [readPiece, hr, hq]

theorem readPiece_escape {quote e : Char} {rest : List Char} {c : Cursor} (hq : '\\' ≠ quote)
    (he : e ≠ 'u') (hr : c.rest = '\\' :: e :: rest) :
    c.readPiece quote = .character (namedEscape e) (c.skip 2) := by
  simp [readPiece, hr, hq]

theorem leads_of_readPiece {quote ch : Char} {c d : Cursor}
    (h : c.readPiece quote = .character ch d ∨ c.readPiece quote = .closed d) :
    ∃ s, s ≠ [] ∧ c.Leads s d := by
  unfold readPiece at h
  cases hr : c.rest with
  | nil => simp [hr] at h
  | cons a rest =>
    have hnext : ∃ s, s ≠ [] ∧ c.Leads s c.next := ⟨[a], by simp, leads_next hr⟩
    have hskip (n : Nat) : ∃ s, s ≠ [] ∧ c.Leads s (c.skip (n + 1)) :=
      ⟨c.rest.take (n + 1), by simp [hr], leads_skip c (n + 1)⟩
    simp only [hr] at h
    split at h
    · simp at h; subst h; exact hnext
    · split at h
      · simp at h; rw [← h.2]; exact hnext
      · split at h
        · simp at h
        · split at h
          · simp at h; rw [← h.2]; exact hskip 5
          · simp at h
        · simp at h; rw [← h.2]; exact hskip 1

def readTextAfter (quote : Char) (start : Nat) (read : List Char) (c : Cursor) :
    Except LexicalFault (String × Cursor) :=
  match _h : c.readPiece quote with
  | .closed next => .ok (String.ofList read.reverse, next)
  | .character ch next => readTextAfter quote start (ch :: read) next
  | .badCode digits => .error (.invalidEscape (String.ofList ('\\' :: 'u' :: digits)) c.offset)
  | .unterminated => .error (.unterminatedString start)
termination_by c.rest.length
decreasing_by
  obtain ⟨s, hs, hl⟩ := leads_of_readPiece (.inl (by assumption))
  exact hl.length_lt hs

def readText (quote : Char) (c : Cursor) : Except LexicalFault (String × Cursor) :=
  readTextAfter quote c.offset [] c.next

theorem leads_of_readTextAfter {quote : Char} {start : Nat} {read : List Char} {text : String}
    {c d : Cursor} (h : readTextAfter quote start read c = .ok (text, d)) :
    ∃ s, c.Leads s d := by
  fun_induction readTextAfter quote start read c with
  | case1 read c next hp =>
    obtain ⟨-, rfl⟩ := Prod.mk.inj (Except.ok.inj h)
    obtain ⟨s, -, hs⟩ := leads_of_readPiece (Or.inr hp : _ = Piece.character 'x' next ∨ _)
    exact ⟨s, hs⟩
  | case2 read c ch next hp ih =>
    obtain ⟨s, -, hs⟩ := leads_of_readPiece (.inl hp)
    obtain ⟨t, ht⟩ := ih h
    exact ⟨s ++ t, hs.trans ht⟩
  | case3 | case4 => simp at h

theorem leads_of_readText {quote : Char} {text : String} {c d : Cursor} (hc : c.rest ≠ [])
    (h : c.readText quote = .ok (text, d)) : ∃ s, s ≠ [] ∧ c.Leads s d := by
  obtain ⟨s, hs⟩ := leads_of_readTextAfter h
  cases hr : c.rest with
  | nil => exact absurd hr hc
  | cons ch rest => exact ⟨[ch] ++ s, by simp, (leads_next hr).trans hs⟩

/-- Reads a number, which must not run into a name. Digits alone are a whole number, if a word
holds it; every other number is a float. -/
def readNumber (c : Cursor) : Except LexicalFault (Lexical × Cursor) :=
  let (numeral, rest) := Number.Numeral.scan c.rest
  let d : Cursor := ⟨rest, c.offset + byteLength numeral.spelling⟩
  if d.nextIs isNamePart then
    .error (.invalidNumber (String.ofList (numeral.spelling ++ d.readName.1)) c.offset)
  else
    match if numeral.isIntegral then Number.word? (Number.digitsValue numeral.whole) else none with
    | some n => .ok (.integer n, d)
    | none => .ok (.float numeral.value, d)

theorem leads_of_readNumber {l : Lexical} {c d : Cursor} (h : c.readNumber = .ok (l, d)) :
    c.Leads (Number.Numeral.scan c.rest).1.spelling d := by
  have hs := Number.Numeral.spelling_append_scan c.rest
  simp only [readNumber] at h
  split at h
  · simp at h
  · split at h <;> obtain ⟨-, rfl⟩ := Prod.mk.inj (Except.ok.inj h) <;> exact ⟨hs.symm, rfl⟩

def startsNumber (c : Cursor) : Bool :=
  c.nextIs Char.isDigit || (c.nextIs (· == '.') && c.next.nextIs Char.isDigit)

theorem spelling_scan_ne_nil {c : Cursor} (h : c.startsNumber = true) :
    (Number.Numeral.scan c.rest).1.spelling ≠ [] := by
  cases hr : c.rest with
  | nil => simp [startsNumber, nextIs, hr] at h
  | cons a rest =>
    by_cases ha : a.isDigit = true
    · simp [Number.Numeral.spelling, ha]
    · have hrest : ∃ b r, a = '.' ∧ rest = b :: r ∧ b.isDigit = true := by
        cases rest with
        | nil => simp [startsNumber, nextIs, next, hr, ha] at h
        | cons b r => exact ⟨b, r, by simpa [startsNumber, nextIs, next, hr, ha] using h⟩
      obtain ⟨b, r, rfl, rfl, hb⟩ := hrest
      simp [Number.Numeral.spelling, Number.readFraction, ha, hb]

end TemplateBinding.Cursor
