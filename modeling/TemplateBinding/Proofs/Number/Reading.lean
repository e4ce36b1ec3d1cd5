import TemplateBinding.Number.Numeral
import TemplateBinding.Proofs.Grammar.Spacing

set_option autoImplicit false

namespace TemplateBinding.Number

/-- A marker, a sign or none, and digits. -/
structure Exponent.Complete (x : Exponent) : Prop where
  marker : x.marker = 'e' ∨ x.marker = 'E'
  sign : x.sign = none ∨ x.sign = some '+' ∨ x.sign = some '-'
  nonempty : x.digits ≠ []
  digits : ∀ c ∈ x.digits, c.isDigit = true

/-- Digits, with a point anywhere or without, and an exponent or none. -/
structure Numeral.Complete (n : Numeral) : Prop where
  whole : ∀ c ∈ n.whole, c.isDigit = true
  fraction : ∀ ds, n.fraction = some ds → ∀ c ∈ ds, c.isDigit = true
  nonempty : n.whole ++ n.fraction.getD [] ≠ []
  exponent : ∀ x, n.exponent = some x → x.Complete

variable {cs follow : List Char}

theorem isDigit_of_mem_takeWhile {c : Char} (h : c ∈ cs.takeWhile Char.isDigit) :
    c.isDigit = true := List.all_eq_true.1 List.all_takeWhile c h

theorem sign_readSign (cs : List Char) :
    (readSign cs).1 = none ∨ (readSign cs).1 = some '+' ∨ (readSign cs).1 = some '-' := by
  unfold readSign
  split
  · exact .inr (.inl rfl)
  · exact .inr (.inr rfl)
  · exact .inl rfl

theorem readSign_digits {sign : Option Char} {digits : List Char}
    (hs : sign = none ∨ sign = some '+' ∨ sign = some '-')
    (hd : ∃ d ds, digits = d :: ds ∧ d.isDigit = true) :
    readSign (sign.toList ++ digits) = (sign, digits) := by
  rcases hs with rfl | rfl | rfl
  · obtain ⟨d, ds, rfl, hdigit⟩ := hd
    unfold readSign
    split
    · next heq => cases heq; cases hdigit
    · next heq => cases heq; cases hdigit
    · rfl
  · rfl
  · rfl

theorem Exponent.complete_of_read? {x : Exponent} (h : Exponent.read? cs = some (x, follow)) :
    x.Complete := by
  cases cs with
  | nil => cases h
  | cons marker cs =>
    simp only [Exponent.read?] at h
    split at h
    · next hread =>
      obtain ⟨rfl, -⟩ := Prod.mk.inj (Option.some.inj h)
      refine ⟨hread.1, sign_readSign cs, ?_, fun c hc => isDigit_of_mem_takeWhile hc⟩
      simpa [List.isEmpty_iff] using hread.2
    · cases h

theorem Exponent.read?_spelling_append {x : Exponent} (hx : x.Complete)
    (hf : ∀ c rest, follow = c :: rest → c.isDigit = false) :
    Exponent.read? (x.spelling ++ follow) = some (x, follow) := by
  obtain ⟨hm, hs, hne, hdigits⟩ := hx
  obtain ⟨ht, hd⟩ := takeWhile_append_apart hdigits hf
  have hhead : ∃ d ds, x.digits ++ follow = d :: ds ∧ d.isDigit = true := by
    cases hxd : x.digits with
    | nil => exact absurd hxd hne
    | cons d ds => exact ⟨d, ds ++ follow, rfl, hdigits d (by simp [hxd])⟩
  simp [Exponent.spelling, Exponent.read?, readSign_digits hs hhead, hm, ht, hd, hne]

def readPoint : List Char → Option (List Char) × List Char
  | '.' :: cs => (some (cs.takeWhile Char.isDigit), cs.dropWhile Char.isDigit)
  | cs => (none, cs)

theorem readPoint_append (cs : List Char) :
    ((readPoint cs).1.map ('.' :: ·)).getD [] ++ (readPoint cs).2 = cs := by
  unfold readPoint
  split
  · simp only [Option.map_some, Option.getD_some, List.cons_append,
      List.takeWhile_append_dropWhile]
  · rfl

theorem isDigit_of_readPoint {ds : List Char} (h : (readPoint cs).1 = some ds) :
    ∀ c ∈ ds, c.isDigit = true := by
  unfold readPoint at h
  split at h
  · obtain rfl := Option.some.inj h
    exact fun c hc => isDigit_of_mem_takeWhile hc
  · cases h

theorem Numeral.read?_eq (cs : List Char) :
    Numeral.read? cs =
      if (cs.takeWhile Char.isDigit ++ (readPoint (cs.dropWhile Char.isDigit)).1.getD []).isEmpty
      then none
      else if (readPoint (cs.dropWhile Char.isDigit)).2.isEmpty then
        some ⟨cs.takeWhile Char.isDigit, (readPoint (cs.dropWhile Char.isDigit)).1, none⟩
      else match Exponent.read? (readPoint (cs.dropWhile Char.isDigit)).2 with
        | some (x, []) =>
          some ⟨cs.takeWhile Char.isDigit, (readPoint (cs.dropWhile Char.isDigit)).1, some x⟩
        | _ => none := by
  unfold Numeral.read? readPoint
  rfl

theorem Numeral.spelling_of_read? {n : Numeral} (h : Numeral.read? cs = some n) :
    n.Complete ∧ n.spelling = cs := by
  have hwhole : ∀ c ∈ cs.takeWhile Char.isDigit, c.isDigit = true :=
    fun c hc => isDigit_of_mem_takeWhile hc
  have hcs : cs.takeWhile Char.isDigit ++
      (((readPoint (cs.dropWhile Char.isDigit)).1.map ('.' :: ·)).getD [] ++
        (readPoint (cs.dropWhile Char.isDigit)).2) = cs := by
    rw [readPoint_append, List.takeWhile_append_dropWhile]
  rw [Numeral.read?_eq] at h
  split at h
  · cases h
  · next hne =>
    rw [List.isEmpty_iff] at hne
    split at h
    · next hend =>
      obtain rfl := Option.some.inj h
      refine ⟨⟨hwhole, fun _ => isDigit_of_readPoint, hne, fun x hx => by cases hx⟩, ?_⟩
      rw [List.isEmpty_iff.1 hend] at hcs
      simpa [Numeral.spelling] using hcs
    · split at h
      · next x hx =>
        obtain rfl := Option.some.inj h
        refine ⟨⟨hwhole, fun _ => isDigit_of_readPoint, hne, fun y hy => ?_⟩, ?_⟩
        · obtain rfl := Option.some.inj hy
          exact Exponent.complete_of_read? hx
        · rw [← Exponent.spelling_append_of_read? hx] at hcs
          simpa [Numeral.spelling] using hcs
      · cases h

namespace Numeral

variable {n : Numeral}

def exponentTail (n : Numeral) : List Char := (n.exponent.map Exponent.spelling).getD []

def fractionTail (n : Numeral) : List Char :=
  (n.fraction.map ('.' :: ·)).getD [] ++ n.exponentTail

theorem spelling_eq (n : Numeral) : n.spelling = n.whole ++ n.fractionTail := by
  simp [spelling, fractionTail, exponentTail]

theorem Complete.stops_exponentTail (hn : n.Complete) {c : Char} {rest : List Char}
    (h : n.exponentTail = c :: rest) : c.isDigit = false ∧ c ≠ '.' := by
  unfold exponentTail at h
  cases hx : n.exponent with
  | none =>
    rw [hx] at h
    cases h
  | some x =>
    rw [hx] at h
    obtain ⟨rfl, -⟩ := List.cons.inj h
    obtain hm | hm := (hn.exponent x hx).marker <;> rw [hm] <;> decide

theorem Complete.stops_fractionTail (hn : n.Complete) {c : Char} {rest : List Char}
    (h : n.fractionTail = c :: rest) : c.isDigit = false := by
  unfold fractionTail at h
  cases hx : n.fraction with
  | none =>
    rw [hx] at h
    exact (hn.stops_exponentTail h).1
  | some ds =>
    rw [hx] at h
    obtain ⟨rfl, -⟩ := List.cons.inj h
    decide

theorem Complete.readPoint_fractionTail (hn : n.Complete) :
    readPoint n.fractionTail = (n.fraction, n.exponentTail) := by
  unfold fractionTail
  cases hx : n.fraction with
  | none =>
    simp only [Option.map_none, Option.getD_none, List.nil_append]
    unfold readPoint
    split
    · next cs heq => exact absurd rfl (hn.stops_exponentTail heq).2
    · rfl
  | some ds =>
    obtain ⟨ht, hd⟩ := takeWhile_append_apart (hn.fraction ds hx)
      fun c rest h => (hn.stops_exponentTail h).1
    simp only [Option.map_some, Option.getD_some, List.cons_append, readPoint, ht, hd]

theorem read?_spelling (hn : n.Complete) : Numeral.read? n.spelling = some n := by
  obtain ⟨ht, hd⟩ := takeWhile_append_apart hn.whole fun c rest h => hn.stops_fractionTail h
  rw [read?_eq, spelling_eq, ht, hd, hn.readPoint_fractionTail,
    if_neg (by simpa [List.isEmpty_iff] using hn.nonempty)]
  obtain ⟨whole, fraction, exponent⟩ := n
  cases exponent with
  | none => rfl
  | some x =>
    have hx := hn.exponent x rfl
    have hread : Exponent.read? (x.spelling ++ []) = some (x, []) :=
      Exponent.read?_spelling_append hx fun _ _ h => by cases h
    rw [List.append_nil] at hread
    simp only [exponentTail, Option.map_some, Option.getD_some, hread]
    rfl

/-- A text is read as the numeral of which it is the spelling. -/
theorem read?_eq_some_iff : Numeral.read? cs = some n ↔ n.Complete ∧ n.spelling = cs := by
  constructor
  · exact spelling_of_read?
  · rintro ⟨hn, rfl⟩
    exact read?_spelling hn

def alphabet (c : Char) : Bool := c.isDigit || ['.', 'e', 'E', '+', '-'].contains c

theorem alphabet_of_isDigit {c : Char} (h : c.isDigit = true) : alphabet c = true := by
  rw [alphabet, h, Bool.true_or]

theorem alphabet_of_mem_sign {sign : Option Char} {c : Char}
    (hs : sign = none ∨ sign = some '+' ∨ sign = some '-') (hc : c ∈ sign.toList) :
    alphabet c = true := by
  obtain rfl | rfl | rfl := hs
  · cases hc
  · obtain rfl := List.mem_singleton.1 hc
    rfl
  · obtain rfl := List.mem_singleton.1 hc
    rfl

theorem Complete.alphabet_of_mem (hn : n.Complete) {c : Char} (hc : c ∈ n.spelling) :
    alphabet c = true := by
  rw [spelling_eq, List.mem_append] at hc
  obtain hc | hc := hc
  · exact alphabet_of_isDigit (hn.whole c hc)
  obtain hc | hc := List.mem_append.1 hc
  · cases hf : n.fraction with
    | none => simp [hf] at hc
    | some ds =>
      obtain rfl | hc := List.mem_cons.1 (by simpa [hf] using hc : c ∈ '.' :: ds)
      · rfl
      · exact alphabet_of_isDigit (hn.fraction ds hf c hc)
  · cases hx : n.exponent with
    | none => simp [exponentTail, hx] at hc
    | some x =>
      have hcomplete := hn.exponent x hx
      have hc : c ∈ x.marker :: (x.sign.toList ++ x.digits) := by
        simpa [exponentTail, hx, Exponent.spelling] using hc
      obtain rfl | hc := List.mem_cons.1 hc
      · obtain hm | hm := hcomplete.marker <;> rw [hm] <;> rfl
      obtain hc | hc := List.mem_append.1 hc
      · exact alphabet_of_mem_sign hcomplete.sign hc
      · exact alphabet_of_isDigit (hcomplete.digits c hc)

end Numeral

theorem readSign_of_isDigit {c : Char} (hc : c.isDigit = true) :
    readSign (c :: cs) = (none, c :: cs) :=
  readSign_digits (.inl rfl) ⟨c, cs, rfl, hc⟩

theorem Numeral.Complete.readSign_spelling {n : Numeral} (hn : n.Complete) :
    readSign n.spelling = (none, n.spelling) := by
  rw [Numeral.spelling_eq]
  cases hw : n.whole with
  | cons c whole => exact readSign_of_isDigit (hn.whole c (by simp [hw]))
  | nil =>
    have hne := hn.nonempty
    cases hf : n.fraction with
    | none => simp [hw, hf] at hne
    | some ds =>
      simp only [Numeral.fractionTail, hf, Option.map_some, Option.getD_some, List.cons_append,
        List.nil_append]
      rfl

theorem readFloat?_spelling {n : Numeral} (hn : n.Complete) :
    readFloat? n.spelling = some n.value := by
  simp [readFloat?, hn.readSign_spelling, Numeral.read?_spelling hn]

theorem readFloat?_neg_spelling {n : Numeral} (hn : n.Complete) :
    readFloat? ('-' :: n.spelling) = some (-n.value) := by
  simp [readFloat?, readSign, Numeral.read?_spelling hn]

theorem alphabet_of_readFloat? {x : Float} (h : readFloat? cs = some x) {c : Char} (hc : c ∈ cs) :
    Numeral.alphabet c = true := by
  obtain ⟨n, hn, -⟩ := Option.map_eq_some_iff.1 h
  obtain ⟨hcomplete, hspelling⟩ := Numeral.read?_eq_some_iff.1 hn
  rw [← readSign_append cs, List.mem_append, ← hspelling] at hc
  obtain hc | hc := hc
  · exact Numeral.alphabet_of_mem_sign (sign_readSign cs) hc
  · exact hcomplete.alphabet_of_mem hc

end TemplateBinding.Number
