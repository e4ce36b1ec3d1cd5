import TemplateBinding.Number.Written
import TemplateBinding.Proofs.Number.Reading
import TemplateBinding.Proofs.Number.Shortest

set_option autoImplicit false

namespace TemplateBinding.Number

variable {m n : Nat} {e k : Int} {hm : 0 < m}

theorem digitsValue_eq_ofDigitChars (cs : List Char) : digitsValue cs = Nat.ofDigitChars 10 cs 0 :=
  digitsValue_eq_foldl cs

theorem isDigit_of_mem_digits {c : Char} (h : c ∈ digits n) : c.isDigit = true :=
  Nat.isDigit_of_mem_toDigits (by decide) (by decide) h

theorem digitsValue_digits_append (n k : Nat) :
    digitsValue (digits n ++ List.replicate k '0') = n * 10 ^ k := by
  rw [digitsValue_eq_ofDigitChars, Nat.ofDigitChars_append, Nat.ofDigitChars_replicate_zero, digits,
    Nat.ofDigitChars_ten_toDigits, Nat.mul_comm]

theorem digitsValue_append_digits (k n : Nat) :
    digitsValue (List.replicate k '0' ++ digits n) = n := by
  rw [digitsValue_eq_ofDigitChars, Nat.ofDigitChars_append, Nat.ofDigitChars_replicate_zero,
    Nat.mul_zero, digits, Nat.ofDigitChars_ten_toDigits]

/-- The numeral reads as the number. -/
structure Numeral.Writes (x : Numeral) (v : ℚ) : Prop where
  complete : x.Complete
  value : ∃ d j, x.value = ofDecimal d j ∧ decimal d j = v

theorem writes_digits_append (n j : Nat) :
    Numeral.Writes ⟨digits n ++ List.replicate j '0', none, none⟩ (decimal n j) := by
  refine ⟨⟨?_, nofun, ?_, nofun⟩, n * 10 ^ j, 0, ?_, ?_⟩
  · intro c hc
    obtain hc | hc := List.mem_append.1 hc
    · exact isDigit_of_mem_digits hc
    · rw [List.eq_of_mem_replicate hc]
      rfl
  · simp [digits, Nat.toDigits_ne_nil]
  · simp [Numeral.value, digitsValue_digits_append]
  · rw [decimal, decimal, zpow_zero, mul_one, zpow_natCast]
    push_cast
    rfl

def padded (n places : Nat) : List Char :=
  List.replicate (places + 1 - (digits n).length) '0' ++ digits n

theorem lt_length_padded (n places : Nat) : places < (padded n places).length := by
  rw [padded, List.length_append, List.length_replicate]
  omega

theorem isDigit_of_mem_padded {places : Nat} {c : Char} (hc : c ∈ padded n places) :
    c.isDigit = true := by
  obtain hc | hc := List.mem_append.1 hc
  · rw [List.eq_of_mem_replicate hc]
    rfl
  · exact isDigit_of_mem_digits hc

def pointed (n places : Nat) : Numeral :=
  ⟨(padded n places).take ((padded n places).length - places),
    some ((padded n places).drop ((padded n places).length - places)), none⟩

theorem spelling_pointed (n : Nat) {places : Nat} (h : places ≠ 0) :
    (pointed n places).spelling = withPoint n places := by
  simp [Numeral.spelling, pointed, withPoint, padded, h]

theorem writes_pointed (n places : Nat) :
    (pointed n places).Writes (decimal n (-(places : Int))) := by
  have hlength := lt_length_padded n places
  refine ⟨⟨?_, ?_, ?_, nofun⟩, n, -(places : Int), ?_, rfl⟩
  · exact fun c hc => isDigit_of_mem_padded (List.mem_of_mem_take hc)
  · rintro ds h c hc
    obtain rfl := Option.some.inj h
    exact isDigit_of_mem_padded (List.mem_of_mem_drop hc)
  · rw [pointed, Option.getD_some, List.take_append_drop]
    exact List.ne_nil_of_length_pos (Nat.zero_lt_of_lt hlength)
  · have hplaces : (padded n places).length - ((padded n places).length - places) = places := by
      omega
    simp only [Numeral.value, pointed, Option.getD_some, List.take_append_drop, Option.map_none,
      Option.getD_none, List.length_drop, hplaces, Int.zero_sub]
    rw [padded, digitsValue_append_digits]

theorem exists_writes_positional (n : Nat) (k : Int) :
    ∃ x : Numeral, x.spelling = positional n k ∧ x.Writes (decimal n k) := by
  unfold positional
  split
  · next hk =>
    obtain ⟨j, rfl⟩ := Int.eq_ofNat_of_zero_le hk
    exact ⟨_, by simp [Numeral.spelling], writes_digits_append n j⟩
  · next hk =>
    obtain ⟨places, rfl⟩ := Int.exists_eq_neg_ofNat (show k ≤ 0 by omega)
    refine ⟨_, ?_, writes_pointed n places⟩
    rw [spelling_pointed n (by omega), Int.neg_neg, Int.toNat_natCast]

variable {s : Sign}

theorem Numeral.Writes.value_eq {x : Numeral} {v : ℚ} (hx : x.Writes v) (hc : Canonical m e)
    (h : (Interval.of m e).Contains v) : x.value = ofView (.finite .positive m e hm) := by
  obtain ⟨d, j, hvalue, rfl⟩ := hx.value
  rw [hvalue, ofDecimal_of_contains hm hc h]

theorem contains_scaled (hm : 0 < m) (e : Int) : (Interval.of m e).Contains (scaled m e) := by
  have he : (0 : ℚ) < 2 ^ e := by positivity
  have hgap := mul_pos (gapBelow_pos m e) he
  unfold scaled
  exact Interval.contains_of_lt hm (by linarith) (by linarith)

theorem natCast_wholePart (h : m % 2 ^ (-e).toNat = 0) : (wholePart m e : ℚ) = scaled m e := by
  have hdvd : 2 ^ (-e).toNat ∣ m * 2 ^ e.toNat :=
    Dvd.dvd.mul_right (Nat.dvd_of_mod_eq_zero h) _
  rw [wholePart, scaled, zpow_eq_div two_ne_zero e, ← mul_div_assoc,
    Nat.cast_div hdvd (by positivity)]
  push_cast
  rfl

theorem magnitude_plain (m : Nat) (e : Int) :
    Layout.plain.magnitude m e =
      positional (shortest .away m e).digits (shortest .away m e).exponent := by
  have hbounds : Layout.plain.bounds = none := rfl
  have htie : Layout.plain.tie = .away := rfl
  have hmark : Layout.plain.wholeMark = [] := rfl
  simp only [Layout.magnitude, hbounds, htie, hmark, if_true, ite_self, List.append_nil]

/-- The text of a float is a sign or none, and a numeral for the float without its sign. -/
theorem exists_numeral_text {x : Float} (h : view x = .finite s m e hm) :
    ∃ n : Numeral, n.Complete ∧ text x = signed (Sign.isNegative s) n.spelling ∧
      n.value = ofView (.finite .positive m e hm) := by
  have hc := canonical_view h
  unfold text
  rw [h]
  dsimp only
  split
  · next hwhole =>
    have hpositional : positional (wholePart m e) 0 = digits (wholePart m e) := by
      simp [positional]
    have hvalue : decimal (wholePart m e) 0 = scaled m e := by
      rw [decimal, zpow_zero, mul_one, natCast_wholePart hwhole.1]
    obtain ⟨n, hspelling, hwrites⟩ := exists_writes_positional (wholePart m e) 0
    refine ⟨n, hwrites.complete, ?_, hwrites.value_eq hc (hvalue ▸ contains_scaled hm e)⟩
    rw [hspelling, hpositional]
  · obtain ⟨n, hspelling, hwrites⟩ := exists_writes_positional (shortest .away m e).digits
      (shortest .away m e).exponent
    refine ⟨n, hwrites.complete, ?_, hwrites.value_eq hc (contains_shortest .away hm hc)⟩
    rw [plain, h, Layout.finite, magnitude_plain, hspelling]

/-- The text of a whole number is a sign or none, and a numeral for its float without the sign. -/
theorem exists_numeral_whole (n : Int) :
    ∃ x : Numeral, x.Complete ∧ whole n = signed (n < 0) x.spelling ∧
      x.value = ofDecimal n.natAbs 0 := by
  have hcomplete := (writes_digits_append n.natAbs 0).complete
  rw [List.replicate_zero, List.append_nil] at hcomplete
  refine ⟨_, hcomplete, by simp [whole, Numeral.spelling], ?_⟩
  have hvalue := digitsValue_digits_append n.natAbs 0
  rw [List.replicate_zero, List.append_nil, Nat.pow_zero, Nat.mul_one] at hvalue
  simp [Numeral.value, hvalue]

/-- The float of a whole number is read from its digits, with the sign put in front afterwards. -/
theorem signed_ofDecimal (n : Int) (hlt : n.natAbs < 2 ^ 1023) :
    (if n < 0 then -ofDecimal n.natAbs 0 else ofDecimal n.natAbs 0) = ofInt n := by
  obtain hneg | rfl | hpos := Int.lt_trichotomy n 0
  · rw [if_pos hneg, ofDecimal_eq_nearest (by omega) hlt, neg_nearest (by omega) hlt,
      ofInt_of_neg hneg]
  · rw [if_neg (Int.lt_irrefl 0), Int.natAbs_zero, ofDecimal_zero]
    rfl
  · rw [if_neg (by omega), ofDecimal_eq_nearest (by omega) hlt, ofInt_of_pos hpos]

end TemplateBinding.Number
