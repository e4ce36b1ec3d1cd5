import TemplateBinding.Proofs.Grammar.Phrase
import TemplateBinding.Proofs.Grammar.Spacing
import TemplateBinding.Proofs.Number.Reading

set_option autoImplicit false

namespace TemplateBinding

namespace Cursor

variable {c : Cursor} {follow : List Char}

theorem rest_next {ch : Char} {rest : List Char} (h : c.rest = ch :: rest) : c.next.rest = rest := by
  rw [next, h]

theorem rest_skip (c : Cursor) (n : Nat) : (c.skip n).rest = c.rest.drop n := by
  have h := (leads_skip c n).1
  conv at h => lhs; rw [← List.take_append_drop n c.rest]
  exact (List.append_cancel_left h).symm

theorem readName_append {name : List Char} (hr : c.rest = name ++ follow)
    (hn : ∀ ch ∈ name, isNamePart ch = true)
    (hf : ∀ ch rest, follow = ch :: rest → isNamePart ch = false) :
    c.readName.1 = name ∧ c.readName.2.rest = follow := by
  obtain ⟨ht, hd⟩ := takeWhile_append_apart hn hf
  unfold readName takeWhile
  rw [hr]
  exact ⟨ht, hd⟩

def dotted (names : List Name) : List Char := names.flatMap fun n => '.' :: n.text.toList

theorem stops_dotted (names : List Name) (hf : Apart follow) :
    ∀ ch rest, dotted names ++ follow = ch :: rest → isNamePart ch = false := by
  intro ch rest h
  cases names with
  | nil => exact isNamePart_of_isBlank (hf ch rest h)
  | cons n names =>
    cases h
    decide

theorem nextIs_cons {p : Char → Bool} {ch : Char} {rest : List Char} (h : c.rest = ch :: rest) :
    c.nextIs p = p ch := by
  simp [nextIs, h]

theorem nextIs_apart {p : Char → Bool} (hr : c.rest = follow) (hf : Apart follow)
    (hp : ∀ ch, Text.isBlank ch = true → p ch = false) : c.nextIs p = false := by
  cases follow with
  | nil => simp [nextIs, hr]
  | cons ch rest =>
    rw [nextIs_cons hr]
    exact hp ch (hf ch rest rfl)

theorem readPathAfter_dotted (names : List Name) (read : List String)
    (hr : c.rest = dotted names ++ follow) (hf : Apart follow) :
    ∃ d, c.readPathAfter read = .ok (read.reverse ++ names.map Name.text, d) ∧ d.rest = follow := by
  induction names generalizing c read with
  | nil =>
    have hdot : c.nextIs (· == '.') = false :=
      nextIs_apart hr hf fun ch hb => beq_eq_false_iff_ne.2 (ne_of_isBlank hb (by decide))
    rw [readPathAfter, if_neg (by rw [hdot]; exact Bool.false_ne_true)]
    exact ⟨c, by simp, hr⟩
  | cons n names ih =>
    have hr' : c.rest = '.' :: (n.text.toList ++ (dotted names ++ follow)) := by
      rw [hr, dotted, List.flatMap_cons]
      simp [dotted]
    have hnext := rest_next hr'
    obtain ⟨h1, h2⟩ := readName_append hnext n.parts (stops_dotted names hf)
    obtain ⟨ch, cs, hs, hstart⟩ := n.start
    have hdot : c.nextIs (· == '.') = true := nextIs_cons hr'
    have hname : c.next.nextIs isNameStart = true := by
      rw [hs] at hnext
      rw [nextIs_cons hnext, hstart]
    rw [readPathAfter, if_pos hdot, if_pos hname, h1, String.ofList_toList]
    obtain ⟨d, hd, hrest⟩ := ih (n.text :: read) h2
    exact ⟨d, by simpa using hd, hrest⟩

end Cursor

theorem DottedPath.chars_eq (p : DottedPath) :
    p.chars = p.first.text.toList ++ Cursor.dotted p.others := by
  have key (first : List Char) (others : List Name) :
      ['.'].intercalate (first :: others.map fun n => n.text.toList) =
        first ++ Cursor.dotted others := by
    induction others generalizing first with
    | nil => simp [Cursor.dotted]
    | cons n others ih =>
      rw [List.map_cons, List.intercalate_cons_cons, ih]
      simp [Cursor.dotted]
  have hk := key p.first.text.toList p.others
  rw [chars, names, String.toList_intercalate, List.map_map, List.map_cons]
  exact hk

theorem DottedPath.exists_chars (p : DottedPath) :
    ∃ c cs, p.chars = c :: cs ∧ isNameStart c = true := by
  obtain ⟨c, cs, hs, hc⟩ := p.first.start
  exact ⟨c, cs ++ Cursor.dotted p.others, by rw [p.chars_eq, hs]; rfl, hc⟩

namespace Cursor

variable {c : Cursor} {follow : List Char}

theorem readPath_append (p : DottedPath) (hr : c.rest = p.chars ++ follow) (hf : Apart follow) :
    ∃ d, c.readPath = .ok (p.names, d) ∧ d.rest = follow := by
  rw [p.chars_eq, List.append_assoc] at hr
  obtain ⟨h1, h2⟩ := readName_append hr p.first.parts (stops_dotted p.others hf)
  obtain ⟨d, hd, hrest⟩ := readPathAfter_dotted p.others [p.first.text] h2 hf
  refine ⟨d, ?_, hrest⟩
  rw [readPath, h1, String.ofList_toList, hd]
  rfl

theorem readPiece_stroke {quote : Char} (hq : quote ≠ '\\') (s : Stroke quote)
    (hr : c.rest = s.chars ++ follow) :
    ∃ d, c.readPiece quote = .character s.value d ∧ d.rest = follow := by
  cases s with
  | plain ch h =>
    refine ⟨c.next, ?_, rest_next hr⟩
    rw [readPiece_single (fun hch => h.2 hch.1) hr, if_neg h.1]
    rfl
  | escape ch h =>
    exact ⟨c.skip 2, readPiece_escape hq.symm h hr, by rw [rest_skip, hr]; rfl⟩
  | code digits h4 hx hv =>
    have htake : (digits ++ follow).take 4 = digits := List.take_left' h4
    have hdigits : digits.takeWhile isHexDigit = digits := by
      have h : (digits ++ []).takeWhile isHexDigit = _ := List.takeWhile_append_of_pos hx
      rwa [List.takeWhile_nil, List.append_nil] at h
    have hdrop : (digits ++ follow).drop 4 = follow := List.drop_left' h4
    have hrest : (c.skip 6).rest = follow := by
      rw [rest_skip, hr]
      exact hdrop
    refine ⟨c.skip 6, ?_, hrest⟩
    have hcode : c.rest = '\\' :: 'u' :: (digits ++ follow) := hr
    rw [readPiece_code hq.symm hcode, htake, hdigits, if_pos ⟨h4, hv⟩]
    rfl

theorem readTextAfter_strokes {quote : Char} (hq : quote ≠ '\\') (strokes : List (Stroke quote))
    (start : Nat) (read : List Char)
    (hr : c.rest = strokes.flatMap Stroke.chars ++ quote :: follow) :
    ∃ d, readTextAfter quote start read c =
      .ok (String.ofList (read.reverse ++ strokes.map Stroke.value), d) ∧ d.rest = follow := by
  induction strokes generalizing c read with
  | nil =>
    have hp : c.readPiece quote = .closed c.next := by
      rw [readPiece_single (fun h => h.2 rfl) hr, if_pos rfl]
    refine ⟨c.next, ?_, rest_next hr⟩
    unfold readTextAfter
    split <;> simp_all
  | cons s strokes ih =>
    rw [List.flatMap_cons, List.append_assoc] at hr
    obtain ⟨d, hp, hd⟩ := readPiece_stroke hq s hr
    obtain ⟨e, he, hrest⟩ := ih (s.value :: read) hd
    refine ⟨e, ?_, hrest⟩
    unfold readTextAfter
    split <;> simp_all

theorem readText_quotation (q : Quotation) (hr : c.rest = q.chars ++ follow) :
    ∃ d, c.readText q.quote = .ok (q.text, d) ∧ d.rest = follow := by
  have hq : q.quote ≠ '\\' := by
    rcases q.isQuote with h | h <;> rw [h] <;> decide
  have hr' : c.rest = q.quote :: (q.strokes.flatMap Stroke.chars ++ q.quote :: follow) := by
    simpa [Quotation.chars] using hr
  exact readTextAfter_strokes hq q.strokes c.offset [] (rest_next hr')

end Cursor

namespace NumberWord

variable {follow : List Char}

def exponentTail (n : NumberWord) (follow : List Char) : List Char :=
  (n.numeral.exponent.map Number.Exponent.spelling).getD [] ++ follow

def fractionTail (n : NumberWord) (follow : List Char) : List Char :=
  (n.numeral.fraction.map ('.' :: ·)).getD [] ++ n.exponentTail follow

theorem spelling_append (n : NumberWord) (follow : List Char) :
    n.numeral.spelling ++ follow = n.numeral.whole ++ n.fractionTail follow := by
  simp [Number.Numeral.spelling, fractionTail, exponentTail]

theorem stops_exponentTail (n : NumberWord) (hf : Apart follow) {ch : Char} {rest : List Char}
    (h : n.exponentTail follow = ch :: rest) : ch.isDigit = false ∧ ch ≠ '.' := by
  unfold exponentTail at h
  cases hx : n.numeral.exponent with
  | none =>
    rw [hx] at h
    have hb := hf ch rest h
    exact ⟨isDigit_of_isBlank hb, ne_of_isBlank hb (by decide)⟩
  | some x =>
    rw [hx] at h
    obtain ⟨rfl, -⟩ := List.cons.inj h
    rcases (n.exponent x hx).1 with hm | hm <;> rw [hm] <;> decide

theorem stops_fractionTail (n : NumberWord) (hf : Apart follow) {ch : Char} {rest : List Char}
    (h : n.fractionTail follow = ch :: rest) : ch.isDigit = false := by
  unfold fractionTail at h
  cases hx : n.numeral.fraction with
  | none =>
    rw [hx] at h
    exact (n.stops_exponentTail hf h).1
  | some digits =>
    rw [hx] at h
    obtain ⟨rfl, -⟩ := List.cons.inj h
    decide

theorem readFraction_fractionTail (n : NumberWord) (hf : Apart follow) :
    Number.readFraction (n.fractionTail follow) =
      (n.numeral.fraction, n.exponentTail follow) := by
  have hstop : ∀ ch rest, n.exponentTail follow = ch :: rest → ch.isDigit = false :=
    fun ch rest h => (n.stops_exponentTail hf h).1
  unfold fractionTail
  cases hx : n.numeral.fraction with
  | none =>
    have hdot : ∀ d cs, n.exponentTail follow ≠ '.' :: d :: cs :=
      fun d cs h => (n.stops_exponentTail hf h).2 rfl
    simp only [Option.map_none, Option.getD_none, List.nil_append]
    unfold Number.readFraction
    split
    · next d cs heq => exact absurd heq (hdot d cs)
    · rfl
  | some digits =>
    obtain ⟨hne, hdigits⟩ := n.fraction digits hx
    obtain ⟨ht, hd⟩ := takeWhile_append_apart hdigits hstop
    cases digits with
    | nil => exact absurd rfl hne
    | cons d digits =>
      have hdigit : d.isDigit = true := hdigits d List.mem_cons_self
      rw [List.cons_append] at ht hd
      simp only [Option.map_some, Option.getD_some, List.cons_append, Number.readFraction,
        if_pos hdigit, ht, hd]

theorem readExponent_exponentTail (n : NumberWord) (hf : Apart follow) :
    Number.Exponent.read? (n.exponentTail follow) = n.numeral.exponent.map fun x => (x, follow) := by
  unfold exponentTail
  cases hx : n.numeral.exponent with
  | none =>
    simp only [Option.map_none, Option.getD_none, List.nil_append]
    cases follow with
    | nil => rfl
    | cons b follow =>
      have hb := hf b follow rfl
      have he : b ≠ 'e' := ne_of_isBlank hb (by decide)
      have hE : b ≠ 'E' := ne_of_isBlank hb (by decide)
      simp [Number.Exponent.read?, he, hE]
  | some x =>
    obtain ⟨hm, hs, hne, hdigits⟩ := n.exponent x hx
    exact Number.Exponent.read?_spelling_append ⟨hm, hs, hne, hdigits⟩ fun ch rest h =>
      isDigit_of_isBlank (hf ch rest h)

theorem scan_spelling (n : NumberWord) (hf : Apart follow) :
    Number.Numeral.scan (n.numeral.spelling ++ follow) = (n.numeral, follow) := by
  obtain ⟨ht, hd⟩ := takeWhile_append_apart n.whole fun ch rest h => n.stops_fractionTail hf h
  rw [spelling_append]
  unfold Number.Numeral.scan
  rw [ht, hd, n.readFraction_fractionTail hf]
  simp only [n.readExponent_exponentTail hf]
  cases hx : n.numeral.exponent with
  | none =>
    have htail : n.exponentTail follow = follow := by simp [exponentTail, hx]
    rw [Option.map_none, htail]
    exact congrArg (fun x => (Number.Numeral.mk _ _ x, follow)) hx.symm
  | some x =>
    rw [Option.map_some]
    exact congrArg (fun x => (Number.Numeral.mk _ _ x, follow)) hx.symm

end NumberWord

namespace NumberWord

variable {c : Cursor} {follow : List Char}

def lexical (n : NumberWord) : Lexical :=
  match n.integer? with
  | some w => .integer w
  | none => .float n.numeral.value

theorem value?_lexical (n : NumberWord) : n.lexical.value? = some n.value := by
  unfold lexical value
  cases n.integer? <;> rfl

theorem readNumber_spelling (n : NumberWord) (hr : c.rest = n.numeral.spelling ++ follow)
    (hf : Apart follow) : ∃ d, c.readNumber = .ok (n.lexical, d) ∧ d.rest = follow := by
  have hscan := n.scan_spelling hf
  have hend (offset : Nat) : Cursor.nextIs isNamePart ⟨follow, offset⟩ = false :=
    Cursor.nextIs_apart rfl hf fun ch hb => isNamePart_of_isBlank hb
  refine ⟨⟨follow, c.offset + byteLength n.numeral.spelling⟩, ?_, rfl⟩
  simp only [Cursor.readNumber, hr, hscan, hend, Bool.false_eq_true, if_false]
  unfold lexical
  cases hw : n.integer? with
  | none =>
    unfold integer? at hw
    rw [hw]
  | some w =>
    unfold integer? at hw
    rw [hw]

theorem spelling_of_whole (n : NumberWord) (hw : n.numeral.whole ≠ []) :
    ∃ d cs, n.numeral.spelling = d :: cs ∧ d.isDigit = true := by
  obtain ⟨d, ds, hds⟩ := List.exists_cons_of_ne_nil hw
  refine ⟨d, ds ++ n.fractionTail [], ?_, n.whole d (by simp [hds])⟩
  have h := n.spelling_append []
  rwa [List.append_nil, hds] at h

theorem spelling_cases (n : NumberWord) :
    (∃ d cs, n.numeral.spelling = d :: cs ∧ d.isDigit = true) ∨
      ∃ d cs, n.numeral.spelling = '.' :: d :: cs ∧ d.isDigit = true := by
  by_cases hw : n.numeral.whole = []
  · cases hx : n.numeral.fraction with
    | none => exact absurd hx (n.nonempty.resolve_left fun h => h hw)
    | some digits =>
      obtain ⟨hne, hdigits⟩ := n.fraction digits hx
      cases digits with
      | nil => exact absurd rfl hne
      | cons d ds =>
        refine .inr ⟨d, ds ++ n.exponentTail [], ?_, hdigits d List.mem_cons_self⟩
        simp [Number.Numeral.spelling, exponentTail, hw, hx]
  · exact .inl (n.spelling_of_whole hw)

end NumberWord

end TemplateBinding
