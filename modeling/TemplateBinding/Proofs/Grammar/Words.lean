import TemplateBinding.Proofs.Grammar.Reading

set_option autoImplicit false

namespace TemplateBinding

namespace Lexeme

/-- A word is read as a lexeme wherever it stands apart from what follows. -/
structure Reads (expected : Expected) (word : List Char) (lexeme : Lexeme) : Prop where
  visible : ∃ ch cs, word = ch :: cs ∧ Text.isBlank ch = false
  reads : ∀ (c : Cursor) (follow : List Char), c.rest = word ++ follow → Apart follow →
    ∃ d, read? expected c = .ok (some (lexeme, d)) ∧ d.rest = follow

end Lexeme

theorem Cursor.Ahead.read {c : Cursor} {expected : Expected} {word : List Char} {lexeme : Lexeme}
    {words : List (List Char)} (h : c.Ahead (word :: words))
    (hr : Lexeme.Reads expected word lexeme) :
    ∃ d, Lexeme.read? expected c.skipBlanks = .ok (some (lexeme, d)) ∧ d.Ahead words := by
  obtain ⟨ch, cs, rfl, hb⟩ := hr.visible
  obtain ⟨follow, hrest, hf, hahead⟩ := h.first hb
  obtain ⟨d, hd, hdrest⟩ := hr.reads c.skipBlanks follow hrest hf
  exact ⟨d, hd, hahead d hdrest⟩

namespace Lexeme

variable {expected : Expected} {c : Cursor} {ch : Char} {rest follow : List Char}

theorem read?_cons (he : expected ≠ .key ∨ c.nextIs (· == '\x7d') = true)
    (hr : c.rest = ch :: rest) :
    read? expected c = ((readAt (expected != .operator) ch c).mapError .lexical).map some := by
  have hk : ¬(expected = .key ∧ c.nextIs (· == '\x7d') = false) := by
    rintro ⟨hk, hn⟩
    rcases he with he | he
    · exact he hk
    · exact absurd (he.symm.trans hn) Bool.noConfusion
  unfold read?
  rw [if_neg hk, hr]

theorem read?_end (he : expected ≠ .key) (hr : c.rest = []) : read? expected c = .ok none := by
  unfold read?
  rw [if_neg (fun h => he h.1), hr]

theorem Reads.of_readAt {cs : List Char} {lexeme : Lexeme} (he : expected ≠ .key)
    (hb : Text.isBlank ch = false)
    (h : ∀ (c : Cursor) (follow : List Char), c.rest = ch :: cs ++ follow → Apart follow →
      ∃ d, readAt (expected != .operator) ch c = .ok (lexeme, d) ∧ d.rest = follow) :
    Reads expected (ch :: cs) lexeme where
  visible := ⟨ch, cs, rfl, hb⟩
  reads c follow hr hf := by
    obtain ⟨d, hd, hrest⟩ := h c follow hr hf
    refine ⟨d, ?_, hrest⟩
    rw [read?_cons (.inl he) hr, hd]
    rfl

theorem not_quote (h : isNamePart ch = true) : ¬(ch = '\"' ∨ ch = '\'') := by
  rintro (h' | h')
  · exact ne_of_isNamePart h (by decide) h'
  · exact ne_of_isNamePart h (by decide) h'

theorem reads_number (n : NumberWord) :
    Reads .operand n.numeral.spelling (.operand (.of n.lexical)) := by
  obtain ⟨d, cs, hs, hd⟩ | ⟨d, cs, hs, hd⟩ := n.spelling_cases
  · rw [hs]
    refine .of_readAt nofun (isBlank_of_isDigit hd) fun c follow hr hf => ?_
    rw [← hs] at hr
    obtain ⟨e, he, hrest⟩ := n.readNumber_spelling hr hf
    refine ⟨e, ?_, hrest⟩
    unfold readAt
    rw [if_neg (not_quote (isNamePart_of_isDigit hd)), if_pos hd, he]
    rfl
  · rw [hs]
    refine .of_readAt nofun (by decide) fun c follow hr hf => ?_
    have hdigit : c.next.nextIs Char.isDigit = true := by
      rw [Cursor.nextIs_cons (Cursor.rest_next hr), hd]
    rw [← hs] at hr
    obtain ⟨e, he, hrest⟩ := n.readNumber_spelling hr hf
    refine ⟨e, ?_, hrest⟩
    unfold readAt
    simp [hdigit, he, Except.map]

theorem reads_quotation (q : Quotation) :
    Reads .operand q.chars (.operand (.of (.string q.text))) := by
  have hb : Text.isBlank q.quote = false := by
    rcases q.isQuote with h | h <;> rw [h] <;> decide
  refine .of_readAt nofun hb fun c follow hr hf => ?_
  obtain ⟨d, hd, hrest⟩ := Cursor.readText_quotation q hr
  refine ⟨d, ?_, hrest⟩
  unfold readAt
  rw [if_pos q.isQuote, hd]
  rfl

theorem reads_path (p : DottedPath) : Reads .operand p.chars (ofPath p.names) := by
  obtain ⟨ch, cs, hs, hstart⟩ := p.exists_chars
  have hpart := isNamePart_of_isNameStart hstart
  rw [hs]
  refine .of_readAt nofun (isBlank_of_isNamePart hpart) fun c follow hr hf => ?_
  rw [← hs] at hr
  obtain ⟨d, hd, hrest⟩ := Cursor.readPath_append p hr hf
  have hdigit : ¬ch.isDigit = true := by
    rw [isDigit_of_isNameStart hstart]
    exact Bool.false_ne_true
  refine ⟨d, ?_, hrest⟩
  unfold readAt
  rw [if_neg (not_quote hpart), if_neg hdigit, if_neg (ne_of_isNamePart hpart (by decide)),
    if_neg (ne_of_isNamePart hpart (by decide)), if_pos hstart, hd]
  rfl

theorem reads_aliased (p : DottedPath) : Reads .operand ('@' :: p.chars)
    (.operand (.of (.identifier ("@" ++ ".".intercalate p.names)))) := by
  refine .of_readAt nofun (by decide) fun c follow hr hf => ?_
  have hnext := Cursor.rest_next hr
  obtain ⟨d, hd, hrest⟩ := Cursor.readPath_append p hnext hf
  obtain ⟨ch, cs, hs, hstart⟩ := p.exists_chars
  have hname : c.next.nextIs isNameStart = true := by
    rw [hs] at hnext
    rw [Cursor.nextIs_cons hnext, hstart]
  refine ⟨d, ?_, hrest⟩
  unfold readAt
  simp [hname, hd, Except.map]

/-- A character that starts no operand, no path and no member. -/
def isMark (ch : Char) : Bool :=
  ch != '\"' && ch != '\'' && !ch.isDigit && ch != '.' && ch != '@' && !isNameStart ch

theorem readAt_mark {operandExpected : Bool} (h : isMark ch = true) :
    readAt operandExpected ch c = (punctuation? ch).elim
      (if ch = '?' ∧ c.next.nextIs (· == '?') = false then .ok (.question, c.next)
        else (Operator.symbols.find? (·.isPrefixOf c.rest)).elim
          (.error (.unexpectedCharacter ch c.offset)) fun cs => .ok (.symbol cs, c.skip cs.length))
      fun lexeme => .ok (lexeme, c.next) := by
  simp only [isMark, Bool.and_eq_true, bne_iff_ne, ne_eq, Bool.not_eq_true'] at h
  obtain ⟨⟨⟨⟨⟨h1, h2⟩, h3⟩, h4⟩, h5⟩, h6⟩ := h
  have hquote : ¬(ch = '\"' ∨ ch = '\'') := fun h => h.elim h1 h2
  unfold readAt
  rw [if_neg hquote, if_neg (by rw [h3]; exact Bool.false_ne_true), if_neg h4, if_neg h5,
    if_neg (by rw [h6]; exact Bool.false_ne_true)]
  cases punctuation? ch with
  | some lexeme => rfl
  | none => cases Operator.symbols.find? (·.isPrefixOf c.rest) <;> rfl

theorem punctuation?_opener (bracket : Bracket) :
    punctuation? bracket.opener = some (.opening bracket) := by
  cases bracket <;> rfl

theorem punctuation?_closer (bracket : Bracket) :
    punctuation? bracket.closer = some (.closing bracket) := by
  cases bracket <;> rfl

theorem isMark_of_punctuation? {lexeme : Lexeme} (h : punctuation? ch = some lexeme) :
    isMark ch = true ∧ Text.isBlank ch = false := by
  unfold punctuation? at h
  split at h <;> first | decide | cases h

theorem readAt_punctuation {operandExpected : Bool} {lexeme : Lexeme}
    (h : punctuation? ch = some lexeme) :
    readAt operandExpected ch c = .ok (lexeme, c.next) := by
  rw [readAt_mark (isMark_of_punctuation? h).1, h]
  rfl

theorem reads_punctuation {lexeme : Lexeme} (he : expected ≠ .key)
    (h : punctuation? ch = some lexeme) : Reads expected [ch] lexeme :=
  .of_readAt he (isMark_of_punctuation? h).2 fun c _ hr _ =>
    ⟨c.next, readAt_punctuation h, Cursor.rest_next hr⟩

theorem reads_closing_curly : Reads expected ['\x7d'] (.closing .curly) where
  visible := ⟨'\x7d', [], rfl, by decide⟩
  reads c follow hr _ := by
    have hp : punctuation? '\x7d' = some (.closing .curly) := rfl
    refine ⟨c.next, ?_, Cursor.rest_next hr⟩
    rw [read?_cons (.inr (Cursor.nextIs_cons hr)) hr, readAt_punctuation hp]
    rfl

theorem reads_question : Reads .operator ['?'] .question := by
  refine .of_readAt nofun (by decide) fun c follow hr hf => ⟨c.next, ?_, Cursor.rest_next hr⟩
  have hnext : c.next.nextIs (· == '?') = false :=
    Cursor.nextIs_apart (Cursor.rest_next hr) hf fun ch hb =>
      beq_eq_false_iff_ne.2 (ne_of_isBlank hb (by decide))
  rw [readAt_mark (by decide), if_pos ⟨rfl, hnext⟩]
  rfl

theorem isPrefixOf_append_apart {cs word : List Char} (hv : ∀ c ∈ cs, Text.isBlank c = false)
    (hf : Apart follow) : cs.isPrefixOf (word ++ follow) = cs.isPrefixOf word := by
  induction cs generalizing word with
  | nil => simp
  | cons c cs ih =>
    obtain ⟨hc, hcs⟩ := List.forall_mem_cons.1 hv
    cases word with
    | nil =>
      cases follow with
      | nil => rfl
      | cons b follow =>
        have hne : (c == b) = false := beq_eq_false_iff_ne.2 (ne_of_isBlank (hf b follow rfl) hc).symm
        simp [List.isPrefixOf, hne]
    | cons w word =>
      rw [List.cons_append, List.isPrefixOf, List.isPrefixOf, ih hcs]

theorem find?_isPrefixOf_append {symbols : List (List Char)} (word : List Char)
    (hv : ∀ cs ∈ symbols, ∀ c ∈ cs, Text.isBlank c = false) (hf : Apart follow) :
    symbols.find? (·.isPrefixOf (word ++ follow)) = symbols.find? (·.isPrefixOf word) := by
  induction symbols with
  | nil => rfl
  | cons cs symbols ih =>
    obtain ⟨hcs, hrest⟩ := List.forall_mem_cons.1 hv
    rw [List.find?_cons, List.find?_cons, isPrefixOf_append_apart hcs hf, ih hrest]

theorem isBlank_symbols : ∀ cs ∈ Operator.symbols, ∀ c ∈ cs, Text.isBlank c = false := by
  have hall : Operator.symbols.all (·.all fun c => !Text.isBlank c) = true := by decide
  simpa using hall

theorem find?_symbols (op : Operator) (h : op ≠ .conditional) :
    Operator.symbols.find? (·.isPrefixOf op.symbol) = some op.symbol := by
  cases op <;> first | rfl | exact absurd rfl h

theorem symbol_start (op : Operator) (h : op ≠ .conditional) :
    ∃ ch cs, op.symbol = ch :: cs ∧ isMark ch = true ∧ Text.isBlank ch = false ∧
      (punctuation? ch).isNone = true ∧ (ch = '?' → cs = ['?']) := by
  cases op <;> first | exact absurd rfl h | exact ⟨_, _, rfl, by decide⟩

theorem reads_symbol {op : Operator} (he : expected ≠ .key) (h : op ≠ .conditional) :
    Reads expected op.symbol (.symbol op.symbol) := by
  obtain ⟨ch, cs, hs, hmark, hb, hp, hq⟩ := symbol_start op h
  rw [hs]
  refine .of_readAt he hb fun c follow hr hf => ⟨c.skip (ch :: cs).length, ?_, ?_⟩
  · have hquestion : ¬(ch = '?' ∧ c.next.nextIs (· == '?') = false) := by
      rintro ⟨hch, hn⟩
      have hnext : c.next.rest = '?' :: follow := by
        rw [Cursor.rest_next hr, hq hch]
        rfl
      rw [Cursor.nextIs_cons hnext] at hn
      cases hn
    have hfind := find?_isPrefixOf_append op.symbol isBlank_symbols hf
    rw [find?_symbols op h] at hfind
    rw [readAt_mark hmark, Option.isNone_iff_eq_none.1 hp, if_neg hquestion, hr, ← hs, hfind]
    rfl
  · rw [Cursor.rest_skip, hr]
    exact List.drop_left

theorem readKeyName_name (n : Name) (hr : c.rest = n.text.toList ++ follow) (hf : Apart follow) :
    ∃ d, readKeyName c = .ok (n.text, d) ∧ d.rest = follow := by
  obtain ⟨ch, cs, hs, hstart⟩ := n.start
  obtain ⟨hname, hrest⟩ := Cursor.readName_append hr n.parts fun ch rest h =>
    isNamePart_of_isBlank (hf ch rest h)
  have hnext : c.nextIs isNameStart = true := by
    rw [hs] at hr
    rw [Cursor.nextIs_cons hr, hstart]
  refine ⟨c.readName.2, ?_, hrest⟩
  unfold readKeyName
  rw [if_pos hnext, hname, String.ofList_toList]

theorem readKeyName_quoted (q : Quotation) (hr : c.rest = q.chars ++ follow) :
    ∃ d, readKeyName c = .ok (q.text, d) ∧ d.rest = follow := by
  obtain ⟨d, hd, hrest⟩ := Cursor.readText_quotation q hr
  have hnext (p : Char → Bool) : c.nextIs p = p q.quote := Cursor.nextIs_cons hr
  refine ⟨d, ?_, hrest⟩
  unfold readKeyName
  rcases q.isQuote with hq | hq
  · rw [hq] at hnext hd
    rw [if_neg (by rw [hnext]; decide), if_pos (by rw [hnext]; decide), hd]
    rfl
  · rw [hq] at hnext hd
    rw [if_neg (by rw [hnext]; decide), if_neg (by rw [hnext]; decide),
      if_pos (by rw [hnext]; decide), hd]
    rfl

theorem readKeyName_number (n : NumberWord) (hw : n.numeral.whole ≠ [])
    (hr : c.rest = n.numeral.spelling ++ follow) (hf : Apart follow) :
    ∃ d, readKeyName c = .ok (n.value.text, d) ∧ d.rest = follow := by
  obtain ⟨d, hd, hrest⟩ := n.readNumber_spelling hr hf
  obtain ⟨ch, cs, hs, hdigit⟩ := n.spelling_of_whole hw
  rw [hs] at hr
  have hnext (p : Char → Bool) : c.nextIs p = p ch := Cursor.nextIs_cons hr
  have hstart : isNameStart ch = false :=
    forall_digit (P := fun c => isNameStart c = false) (by decide) hdigit
  have hquote := not_quote (isNamePart_of_isDigit hdigit)
  refine ⟨d, ?_, hrest⟩
  unfold readKeyName
  rw [if_neg (by rw [hnext, hstart]; exact Bool.false_ne_true),
    if_neg (by rw [hnext, beq_iff_eq]; exact fun h => hquote (.inl h)),
    if_neg (by rw [hnext, beq_iff_eq]; exact fun h => hquote (.inr h)),
    if_pos (by rw [hnext, hdigit]), hd]
  unfold NumberWord.lexical NumberWord.value
  cases n.integer? <;> rfl

theorem readKeyName_key (key : KeyWord) (hr : c.rest = key.chars ++ follow) (hf : Apart follow) :
    ∃ d, readKeyName c = .ok (key.text, d) ∧ d.rest = follow := by
  cases key with
  | name n => exact readKeyName_name n hr hf
  | quoted q => exact readKeyName_quoted q hr
  | number n hw => exact readKeyName_number n hw hr hf

theorem exists_chars_key (key : KeyWord) :
    ∃ ch cs, key.chars = ch :: cs ∧ Text.isBlank ch = false ∧ ch ≠ '\x7d' := by
  cases key with
  | name n =>
    obtain ⟨ch, cs, hs, hstart⟩ := n.start
    have hpart := isNamePart_of_isNameStart hstart
    exact ⟨ch, cs, hs, isBlank_of_isNamePart hpart, ne_of_isNamePart hpart (by decide)⟩
  | quoted q =>
    refine ⟨q.quote, _, rfl, ?_⟩
    rcases q.isQuote with hq | hq <;> rw [hq] <;> decide
  | number n hw =>
    obtain ⟨d, cs, hs, hd⟩ := n.spelling_of_whole hw
    exact ⟨d, cs, hs, isBlank_of_isDigit hd,
      ne_of_isNamePart (isNamePart_of_isDigit hd) (by decide)⟩

end Lexeme

namespace Cursor.Ahead

variable {c : Cursor} {words : List (List Char)}

theorem read_key {key : KeyWord} (h : c.Ahead (key.chars :: [':'] :: words)) :
    ∃ d, Lexeme.read? .key c.skipBlanks = .ok (some (.key key.text, d)) ∧ d.Ahead words := by
  obtain ⟨ch, cs, hs, hb, hne⟩ := Lexeme.exists_chars_key key
  rw [hs] at h
  obtain ⟨follow, hrest, hf, hahead⟩ := h.first hb
  have hcurly : c.skipBlanks.nextIs (· == '\x7d') = false := by
    rw [nextIs_cons hrest]
    exact beq_eq_false_iff_ne.2 hne
  rw [← hs] at hrest
  obtain ⟨d, hd, hdrest⟩ := Lexeme.readKeyName_key key hrest hf
  obtain ⟨follow', hcolon, -, hwords⟩ := (hahead d hdrest).first (by decide)
  refine ⟨d.skipBlanks.next, ?_, hwords _ (rest_next hcolon)⟩
  have hnext : d.skipBlanks.nextIs (· == ':') = true := nextIs_cons hcolon
  unfold Lexeme.read? Lexeme.readKey
  rw [if_pos ⟨rfl, hcurly⟩, hd]
  simp only [hnext, if_true]
  rfl

theorem read_members {p : DottedPath} (h : c.Ahead (['.'] :: p.chars :: words)) :
    ∃ d, Lexeme.read? .operator c.skipBlanks = .ok (some (.members p.names, d)) ∧
      d.Ahead words := by
  obtain ⟨ch, cs, hs, hstart⟩ := p.exists_chars
  have hb := isBlank_of_isNamePart (isNamePart_of_isNameStart hstart)
  rw [hs] at h
  obtain ⟨follow, hdot, -, hahead⟩ := h.first (by decide)
  obtain ⟨follow', hpath, hf, hwords⟩ := (hahead _ (rest_next hdot)).first hb
  have hname : c.skipBlanks.next.skipBlanks.nextIs isNameStart = true := by
    rw [nextIs_cons hpath, hstart]
  rw [← hs] at hpath
  obtain ⟨d, hd, hrest⟩ := readPath_append p hpath hf
  refine ⟨d, ?_, hwords d hrest⟩
  have he : Expected.operator ≠ .key := nofun
  rw [Lexeme.read?_cons (.inl he) hdot]
  unfold Lexeme.readAt
  simp [hname, hd, Except.map, mapError_ok]

end Cursor.Ahead

end TemplateBinding
