import TemplateBinding.Json
import TemplateBinding.Number.Binary
import TemplateBinding.Number.Digits
import TemplateBinding.Number.Numeral

set_option autoImplicit false

namespace TemplateBinding.Json

/-- What stands at the start of a text, and the shorter text behind it. -/
structure Parsed (α : Type) (cs : List Char) where
  value : α
  rest : List Char
  shorter : rest.length < cs.length

def isBlank (c : Char) : Bool := c = ' ' || c = '\n' || c = '\t' || c = '\r'

def skipBlanks (cs : List Char) : List Char := cs.dropWhile isBlank

theorem skipBlanks_length (cs : List Char) : (skipBlanks cs).length ≤ cs.length :=
  (List.dropWhile_sublist _).length_le

def absorb (significand : Nat) : List Char → Nat × List Char
  | [] => (significand, [])
  | d :: ds =>
    let next := 10 * significand + (d.toNat - '0'.toNat)
    if next < 2 ^ 64 then absorb next ds else (significand, d :: ds)

/-- The float `x · 10 ^ e`, by one product or quotient, and by more quotients where the power
alone would be too great. A product without a float is refused. -/
def scale? (x : Float) (e : Int) : Option Float :=
  if 0 ≤ e then
    if x == 0 then some x
    else if 308 < e then none
    else
      let y := x * Number.ofDecimal 1 e
      if y.isInf then none else some y
  else if -308 ≤ e then some (x / Number.ofDecimal 1 (-e))
  else if x == 0 then some x
  else scale? (x / Number.ofDecimal 1 308) (e + 308)
termination_by (-e).toNat

/-- The number that is written by a sign, whole digits, and a fraction and an exponent or none.
A whole number that is written as one stays whole if a word of 64 bits holds it; a negative
zero is a float. -/
def number? (negative : Bool) (n : Number.Numeral) : Option Json :=
  let (significand, left) := absorb 0 n.whole
  if n.isIntegral && left.isEmpty && !negative then some (.integer significand)
  else if n.isIntegral && left.isEmpty && 0 < significand && significand ≤ 2 ^ 63 then
    some (.integer (-significand))
  else
    let fraction := n.fraction.getD []
    let (significand, unread) := absorb significand fraction
    let e : Int := left.length - (fraction.length - unread.length : Nat)
    (scale? (Number.ofInt significand) (e + (n.exponent.map Number.Exponent.value).getD 0)).map
      fun x => .float (if negative then -x else x)

def readNumber? (cs : List Char) : Option (Parsed Json cs) :=
  let (negative, digits) := match cs with
    | '-' :: r => (true, r)
    | r => (false, r)
  let (n, rest) := Number.Numeral.scan digits
  let stopsWell := match rest with
    | '.' :: _ | 'e' :: _ | 'E' :: _ => false
    | _ => true
  if n.whole.isEmpty || (n.whole.length ≠ 1 && n.whole.head? = some '0') || !stopsWell then none
  else if h : rest.length < cs.length then (number? negative n).map (⟨·, rest, h⟩)
  else none

def hexValue? (c : Char) : Option Nat :=
  let n := c.toNat
  if c.isDigit then some (n - '0'.toNat)
  else if 'a' ≤ c ∧ c ≤ 'f' then some (n - 'a'.toNat + 10)
  else if 'A' ≤ c ∧ c ≤ 'F' then some (n - 'A'.toNat + 10)
  else none

def readHex? (cs : List Char) : Option (Parsed Nat cs) :=
  match cs with
  | a :: b :: c :: d :: r => do
    let n := ((← hexValue? a) * 16 + (← hexValue? b)) * 256 + (← hexValue? c) * 16 + (← hexValue? d)
    return ⟨n, r, by simp only [List.length_cons]; omega⟩
  | _ => none

def readCode? (cs : List Char) : Option (Parsed Char cs) := do
  let high ← readHex? cs
  if high.value < 0xd800 ∨ 0xdfff < high.value then
    return ⟨Char.ofNat high.value, high.rest, high.shorter⟩
  else if 0xdc00 ≤ high.value then none
  else
    match h : high.rest with
    | '\\' :: 'u' :: r =>
      let low ← readHex? r
      if 0xdc00 ≤ low.value ∧ low.value ≤ 0xdfff then
        return ⟨Char.ofNat (0x10000 + (high.value - 0xd800) * 0x400 + (low.value - 0xdc00)),
          low.rest, by
            have h1 := high.shorter
            have h2 := low.shorter
            simp only [h, List.length_cons] at h1
            omega⟩
      else none
    | _ => none

def readChar? (cs : List Char) : Option (Parsed Char cs) :=
  match cs with
  | [] => none
  | '\\' :: 'u' :: r =>
    (readCode? r).map fun p => ⟨p.value, p.rest, by
      have := p.shorter
      simp only [List.length_cons]; omega⟩
  | '\\' :: c :: r =>
    let plain? : Option Char := match c with
      | '\"' => some '\"'
      | '\\' => some '\\'
      | '/' => some '/'
      | 'b' => some '\x08'
      | 'f' => some '\x0c'
      | 'n' => some '\n'
      | 'r' => some '\r'
      | 't' => some '\t'
      | _ => none
    plain?.map (⟨·, r, by simp only [List.length_cons]; omega⟩)
  | c :: r => if c = '\\' ∨ c.toNat < 0x20 then none else some ⟨c, r, by simp⟩

/-- Reads a text up to its closing quote; `read`, last character first, comes before. -/
def readText? (read : List Char) (cs : List Char) : Option (Parsed String cs) :=
  match cs with
  | '\"' :: r => some ⟨String.ofList read.reverse, r, by simp⟩
  | cs =>
    match readChar? cs with
    | none => none
    | some p =>
      (readText? (p.value :: read) p.rest).map fun q =>
        ⟨q.value, q.rest, Nat.lt_trans q.shorter p.shorter⟩
termination_by cs.length
decreasing_by exact p.shorter

def readWord? (cs : List Char) : Option (Parsed Json cs) :=
  match cs with
  | 'n' :: 'u' :: 'l' :: 'l' :: r => some ⟨.null, r, by simp only [List.length_cons]; omega⟩
  | 't' :: 'r' :: 'u' :: 'e' :: r =>
    some ⟨.boolean true, r, by simp only [List.length_cons]; omega⟩
  | 'f' :: 'a' :: 'l' :: 's' :: 'e' :: r =>
    some ⟨.boolean false, r, by simp only [List.length_cons]; omega⟩
  | _ => none

mutual

def readValue? (levels : Nat) (cs : List Char) : Option (Parsed Json cs) :=
  match cs with
  | '\"' :: r =>
    (readText? [] r).map fun p => ⟨.string p.value, p.rest, by
      have := p.shorter
      simp only [List.length_cons]; omega⟩
  | '[' :: r =>
    match levels with
    | 0 => none
    | levels + 1 =>
      match h : skipBlanks r with
      | ']' :: rest =>
        some ⟨.array [], rest, by
          have := skipBlanks_length r
          simp only [h, List.length_cons] at this ⊢; omega⟩
      | _ =>
        (readItems? levels [] r).map fun p =>
          ⟨.array p.value, p.rest, by
            have := p.shorter
            simp only [List.length_cons]; omega⟩
  | '\x7b' :: r =>
    match levels with
    | 0 => none
    | levels + 1 =>
      match h : skipBlanks r with
      | '\x7d' :: rest =>
        some ⟨.object [], rest, by
          have := skipBlanks_length r
          simp only [h, List.length_cons] at this ⊢; omega⟩
      | _ =>
        (readEntries? levels [] r).map fun p =>
          ⟨.object p.value, p.rest, by
            have := p.shorter
            simp only [List.length_cons]; omega⟩
  | cs =>
    match readWord? cs with
    | some p => some p
    | none => readNumber? cs
termination_by (cs.length, 0)

def readItems? (levels : Nat) (read : List Json) (cs : List Char) :
    Option (Parsed (List Json) cs) :=
  match readValue? levels (skipBlanks cs) with
  | none => none
  | some p =>
    have hp : p.rest.length < cs.length := Nat.lt_of_lt_of_le p.shorter (skipBlanks_length cs)
    match h : skipBlanks p.rest with
    | ',' :: r =>
      have hr : r.length < cs.length := by
        have := skipBlanks_length p.rest
        simp only [h, List.length_cons] at this; omega
      (readItems? levels (p.value :: read) r).map fun q =>
        ⟨q.value, q.rest, Nat.lt_trans q.shorter hr⟩
    | ']' :: r =>
      some ⟨(p.value :: read).reverse, r, by
        have := skipBlanks_length p.rest
        simp only [h, List.length_cons] at this; omega⟩
    | _ => none
termination_by (cs.length, 1)
decreasing_by
  · have := skipBlanks_length cs
    simp only [Prod.lex_def]; omega
  · simp only [Prod.lex_def]; omega

def readEntries? (levels : Nat) (read : Entries Json) (cs : List Char) :
    Option (Parsed (List (String × Json)) cs) :=
  match hk : skipBlanks cs with
  | '\"' :: afterQuote =>
    match readText? [] afterQuote with
    | none => none
    | some key =>
      match hc : skipBlanks key.rest with
      | ':' :: afterColon =>
        have hcolon : afterColon.length < cs.length := by
          have h1 := skipBlanks_length cs
          have h2 := skipBlanks_length key.rest
          have h3 := key.shorter
          simp only [hk, hc, List.length_cons] at h1 h2; omega
        match readValue? levels (skipBlanks afterColon) with
        | none => none
        | some p =>
          have hp : p.rest.length < cs.length :=
            Nat.lt_trans (Nat.lt_of_lt_of_le p.shorter (skipBlanks_length afterColon)) hcolon
          match h : skipBlanks p.rest with
          | ',' :: r =>
            have hr : r.length < cs.length := by
              have := skipBlanks_length p.rest
              simp only [h, List.length_cons] at this; omega
            (readEntries? levels (Entries.insert read key.value p.value) r).map fun q =>
              ⟨q.value, q.rest, Nat.lt_trans q.shorter hr⟩
          | '\x7d' :: r =>
            some ⟨Entries.insert read key.value p.value, r, by
              have := skipBlanks_length p.rest
              simp only [h, List.length_cons] at this; omega⟩
          | _ => none
      | _ => none
  | _ => none
termination_by (cs.length, 1)
decreasing_by
  · have := skipBlanks_length afterColon
    simp only [Prod.lex_def]; omega
  · simp only [Prod.lex_def]; omega

end

def parse? (levels : Nat) (text : String) : Option Json :=
  match readValue? levels (skipBlanks text.toList) with
  | some p => if (skipBlanks p.rest).isEmpty then some p.value else none
  | none => none

def maxLevels : Nat := 127

end TemplateBinding.Json
