import TemplateBinding.Source.Literal

set_option autoImplicit false

namespace TemplateBinding

inductive Expected where
  | operand
  | operator
  /-- The key of an entry, or the end of the object. -/
  | key
  deriving DecidableEq, Repr

inductive Lexeme where
  | operand (token : Token)
  /-- The names of members of the operand before them. -/
  | members (names : List String)
  /-- The key of an object entry, with its colon. -/
  | key (name : String)
  | opening (bracket : Bracket)
  | closing (bracket : Bracket)
  | comma
  | colon
  | question
  | symbol (cs : List Char)

namespace Lexeme

def ofPath (names : List String) : Lexeme :=
  match names with
  | ["true"] => .operand (.of (.boolean true))
  | ["false"] => .operand (.of (.boolean false))
  | ["null"] => .operand (.of .null)
  | ["undefined"] => .operand (.of .undefined)
  | names => .operand (.of (.identifier (".".intercalate names)))

def punctuation? : Char → Option Lexeme
  | '(' => some (.opening .round)
  | '[' => some (.opening .square)
  | '\x7b' => some (.opening .curly)
  | ')' => some (.closing .round)
  | ']' => some (.closing .square)
  | '\x7d' => some (.closing .curly)
  | ',' => some .comma
  | ':' => some .colon
  | _ => none

def readKeyName (c : Cursor) : Except ParseFault (String × Cursor) :=
  if c.nextIs isNameStart then .ok (String.ofList c.readName.1, c.readName.2)
  else if c.nextIs (· == '\"') then (c.readText '\"').mapError .lexical
  else if c.nextIs (· == '\'') then (c.readText '\'').mapError .lexical
  else if c.nextIs Char.isDigit then
    match c.readNumber with
    | .ok (.float x, d) => .ok (String.ofList (Number.text x), d)
    | .ok (l, d) => .ok (l.text, d)
    | .error fault => .error (.lexical fault)
  else .error (.grammar (.expectedObjectKey c.offset))

def readKey (c : Cursor) : Except ParseFault (Lexeme × Cursor) :=
  match readKeyName c with
  | .error fault => .error fault
  | .ok (name, d) =>
    if d.skipBlanks.nextIs (· == ':') then .ok (.key name, d.skipBlanks.next)
    else .error (.grammar (.missingKeyColon name d.skipBlanks.offset))

/-- Reads the lexeme that starts with the character `ch`, which comes next; `operandExpected`
tells what a dot is. -/
def readAt (operandExpected : Bool) (ch : Char) (c : Cursor) :
    Except LexicalFault (Lexeme × Cursor) :=
  if ch = '\"' ∨ ch = '\'' then
    (c.readText ch).map fun (s, d) => (.operand (.of (.string s)), d)
  else if ch.isDigit then c.readNumber.map fun (l, d) => (.operand (.of l), d)
  else if ch = '.' then
    if operandExpected then
      if c.next.nextIs Char.isDigit then c.readNumber.map fun (l, d) => (.operand (.of l), d)
      else .error (.unexpectedCharacter '.' c.offset)
    else if c.next.skipBlanks.nextIs isNameStart then
      c.next.skipBlanks.readPath.map fun (names, d) => (.members names, d)
    else .error (.unnamedMember c.offset)
  else if ch = '@' then
    if c.next.nextIs isNameStart then
      c.next.readPath.map fun (names, d) =>
        (.operand (.of (.identifier ("@" ++ ".".intercalate names))), d)
    else .error (.unnamedAlias c.offset)
  else if isNameStart ch then c.readPath.map fun (names, d) => (ofPath names, d)
  else match punctuation? ch with
    | some lexeme => .ok (lexeme, c.next)
    | none =>
      if ch = '?' ∧ c.next.nextIs (· == '?') = false then .ok (.question, c.next)
      else match Operator.symbols.find? (·.isPrefixOf c.rest) with
        | some cs => .ok (.symbol cs, c.skip cs.length)
        | none => .error (.unexpectedCharacter ch c.offset)

/-- Reads the next lexeme, if the text has not ended; a text must not end where a key is due. -/
def read? (expected : Expected) (c : Cursor) : Except ParseFault (Option (Lexeme × Cursor)) :=
  if expected = .key ∧ c.nextIs (· == '\x7d') = false then (readKey c).map some
  else match c.rest with
    | [] => .ok none
    | ch :: _ => ((readAt (expected != .operator) ch c).mapError .lexical).map some

theorem mapError_eq_ok_iff {ε ε' α : Type} {f : ε → ε'} {x : Except ε α} {a : α} :
    x.mapError f = .ok a ↔ x = .ok a := by
  cases x with
  | ok b => exact ⟨fun h => congrArg _ (Except.ok.inj h), fun h => congrArg _ (Except.ok.inj h)⟩
  | error e => exact ⟨nofun, nofun⟩

theorem map_eq_ok_iff {ε α β : Type} {f : α → β} {x : Except ε α} {b : β} :
    x.map f = .ok b ↔ ∃ a, x = .ok a ∧ f a = b := by
  cases x <;> simp [Except.map]

theorem nextIs_iff {p : Char → Bool} {c : Cursor} :
    c.nextIs p = true ↔ ∃ ch rest, c.rest = ch :: rest ∧ p ch = true := by
  cases hr : c.rest <;> simp [Cursor.nextIs, hr]

theorem leads_of_readKeyName {name : String} {c d : Cursor} (h : readKeyName c = .ok (name, d)) :
    ∃ s, s ≠ [] ∧ c.Leads s d := by
  have htext {q : Char} (hq : c.nextIs (· == q) = true)
      (h : (c.readText q).mapError ParseFault.lexical = .ok (name, d)) :
      ∃ s, s ≠ [] ∧ c.Leads s d :=
    Cursor.leads_of_readText (by obtain ⟨_, _, hr, -⟩ := nextIs_iff.1 hq; simp [hr])
      (mapError_eq_ok_iff.1 h)
  have hnumber {l : Lexical} {e : Cursor} (hd : c.nextIs Char.isDigit = true)
      (h : c.readNumber = .ok (l, e)) : ∃ s, s ≠ [] ∧ c.Leads s e :=
    ⟨_, Cursor.spelling_scan_ne_nil (by rw [Cursor.startsNumber, hd, Bool.true_or]),
      Cursor.leads_of_readNumber h⟩
  unfold readKeyName at h
  split at h
  · next hs =>
    obtain ⟨-, rfl⟩ := Prod.mk.inj (Except.ok.inj h)
    exact ⟨_, Cursor.readName_ne_nil hs, Cursor.leads_readName c⟩
  · split at h
    · next hq => exact htext hq h
    · split at h
      · next hq => exact htext hq h
      · split at h
        · next hd =>
          split at h
          · next hn =>
            obtain ⟨-, rfl⟩ := Prod.mk.inj (Except.ok.inj h)
            exact hnumber hd hn
          · next hn =>
            obtain ⟨-, rfl⟩ := Prod.mk.inj (Except.ok.inj h)
            exact hnumber hd hn
          · simp at h
        · simp at h

theorem leads_of_readKey {lexeme : Lexeme} {c d : Cursor} (h : readKey c = .ok (lexeme, d)) :
    ∃ s, s ≠ [] ∧ c.Leads s d := by
  unfold readKey at h
  split at h
  · simp at h
  · next name e hname =>
    split at h
    · next hcolon =>
      obtain ⟨-, rfl⟩ := Prod.mk.inj (Except.ok.inj h)
      obtain ⟨s, -, hs⟩ := leads_of_readKeyName hname
      obtain ⟨t, ht⟩ := Cursor.leads_skipBlanks e
      obtain ⟨a, rest, hr, -⟩ := nextIs_iff.1 hcolon
      exact ⟨s ++ (t ++ [a]), by simp, hs.trans (ht.trans (Cursor.leads_next hr))⟩
    · simp at h

theorem symbols_ne_nil {cs : List Char} (h : cs ∈ Operator.symbols) : cs ≠ [] := by
  rintro rfl
  revert h
  decide

/-- What is read at a character, by what it is read as. -/
inductive ReadsAt (operandExpected : Bool) (ch : Char) (c : Cursor) : Lexeme → Cursor → Prop
  | text {s : String} {d : Cursor} (read : c.readText ch = .ok (s, d)) :
      ReadsAt operandExpected ch c (.operand (.of (.string s))) d
  | number {l : Lexical} {d : Cursor} (starts : c.startsNumber = true)
      (read : c.readNumber = .ok (l, d)) : ReadsAt operandExpected ch c (.operand (.of l)) d
  /-- The names may stand apart from the dot, and only after an operand. -/
  | members {names : List String} {d : Cursor} (expected : operandExpected = false)
      (starts : c.next.skipBlanks.nextIs isNameStart = true)
      (read : c.next.skipBlanks.readPath = .ok (names, d)) :
      ReadsAt operandExpected ch c (.members names) d
  | aliased {names : List String} {d : Cursor} (starts : c.next.nextIs isNameStart = true)
      (read : c.next.readPath = .ok (names, d)) :
      ReadsAt operandExpected ch c
        (.operand (.of (.identifier ("@" ++ ".".intercalate names)))) d
  | path {names : List String} {d : Cursor} (starts : c.nextIs isNameStart = true)
      (read : c.readPath = .ok (names, d)) : ReadsAt operandExpected ch c (ofPath names) d
  | punctuation {lexeme : Lexeme} (found : punctuation? ch = some lexeme) :
      ReadsAt operandExpected ch c lexeme c.next
  | question (single : c.next.nextIs (· == '?') = false) :
      ReadsAt operandExpected ch c .question c.next
  | symbol {cs : List Char} (found : Operator.symbols.find? (·.isPrefixOf c.rest) = some cs) :
      ReadsAt operandExpected ch c (.symbol cs) (c.skip cs.length)

theorem readsAt_of_readNumber {operandExpected : Bool} {ch : Char} {lexeme : Lexeme} {c d : Cursor}
    (starts : c.startsNumber = true)
    (h : c.readNumber.map (fun r => (Lexeme.operand (.of r.1), r.2)) = .ok (lexeme, d)) :
    ReadsAt operandExpected ch c lexeme d := by
  obtain ⟨⟨l, e⟩, he, heq⟩ := map_eq_ok_iff.1 h
  obtain ⟨rfl, rfl⟩ := Prod.mk.inj heq
  exact .number starts he

theorem readsAt_of_readAt {operandExpected : Bool} {ch : Char} {rest : List Char} {lexeme : Lexeme}
    {c d : Cursor} (hr : c.rest = ch :: rest)
    (h : readAt operandExpected ch c = .ok (lexeme, d)) :
    ReadsAt operandExpected ch c lexeme d := by
  have hnext {p : Char → Bool} (hp : p ch = true) : c.nextIs p = true :=
    nextIs_iff.2 ⟨ch, rest, hr, hp⟩
  unfold readAt at h
  split at h
  · obtain ⟨⟨text, e⟩, he, heq⟩ := map_eq_ok_iff.1 h
    obtain ⟨rfl, rfl⟩ := Prod.mk.inj heq
    exact .text he
  · split at h
    · next hd => exact readsAt_of_readNumber (by simp [Cursor.startsNumber, hnext hd]) h
    · split at h
      · -- a point starts a number where an operand comes next, and else a member
        next hdot =>
        have hpoint : c.nextIs (· == '.') = true := hnext (by simp [hdot])
        split at h
        · split at h
          · next hd => exact readsAt_of_readNumber (by simp [Cursor.startsNumber, hpoint, hd]) h
          · cases h
        · next hop =>
          split at h
          · next hs =>
            obtain ⟨⟨names, e⟩, he, heq⟩ := map_eq_ok_iff.1 h
            obtain ⟨rfl, rfl⟩ := Prod.mk.inj heq
            exact .members (Bool.eq_false_iff.2 hop) hs he
          · cases h
      · split at h
        · split at h
          · next hs =>
            obtain ⟨⟨names, e⟩, he, heq⟩ := map_eq_ok_iff.1 h
            obtain ⟨rfl, rfl⟩ := Prod.mk.inj heq
            exact .aliased hs he
          · cases h
        · split at h
          · next hs =>
            obtain ⟨⟨names, e⟩, he, heq⟩ := map_eq_ok_iff.1 h
            obtain ⟨rfl, rfl⟩ := Prod.mk.inj heq
            exact .path (hnext hs) he
          · split at h
            · next hp =>
              obtain ⟨rfl, rfl⟩ := Prod.mk.inj (Except.ok.inj h)
              exact .punctuation hp
            · split at h
              · next hq =>
                obtain ⟨rfl, rfl⟩ := Prod.mk.inj (Except.ok.inj h)
                exact .question hq.2
              · split at h
                · next hcs =>
                  obtain ⟨rfl, rfl⟩ := Prod.mk.inj (Except.ok.inj h)
                  exact .symbol hcs
                · cases h

theorem leads_of_readAt {operandExpected : Bool} {ch : Char} {rest : List Char} {lexeme : Lexeme}
    {c d : Cursor} (hr : c.rest = ch :: rest)
    (h : readAt operandExpected ch c = .ok (lexeme, d)) : ∃ s, s ≠ [] ∧ c.Leads s d := by
  have hnext : c.Leads [ch] c.next := Cursor.leads_next hr
  cases readsAt_of_readAt hr h with
  | text he => exact Cursor.leads_of_readText (by simp [hr]) he
  | number hs he => exact ⟨_, Cursor.spelling_scan_ne_nil hs, Cursor.leads_of_readNumber he⟩
  | members _ hs he =>
    obtain ⟨s, -, hl⟩ := Cursor.leads_of_readPath hs he
    obtain ⟨t, ht⟩ := Cursor.leads_skipBlanks c.next
    exact ⟨[ch] ++ (t ++ s), by simp, hnext.trans (ht.trans hl)⟩
  | aliased hs he =>
    obtain ⟨s, -, hl⟩ := Cursor.leads_of_readPath hs he
    exact ⟨[ch] ++ s, by simp, hnext.trans hl⟩
  | path hs he => exact Cursor.leads_of_readPath hs he
  | punctuation | question => exact ⟨[ch], by simp, hnext⟩
  | @symbol cs hcs =>
    refine ⟨c.rest.take cs.length, ?_, Cursor.leads_skip c _⟩
    simp [hr, List.take_eq_nil_iff, symbols_ne_nil (List.mem_of_find?_eq_some hcs)]

/-- A lexeme is read off the front of the text, and is never empty. -/
theorem leads_of_read? {expected : Expected} {lexeme : Lexeme} {c d : Cursor}
    (h : read? expected c = .ok (some (lexeme, d))) : ∃ s, s ≠ [] ∧ c.Leads s d := by
  unfold read? at h
  split at h
  · obtain ⟨_, he, heq⟩ := map_eq_ok_iff.1 h
    obtain rfl := Option.some.inj heq
    exact leads_of_readKey he
  · split at h
    · simp at h
    · next hr =>
      obtain ⟨_, he, heq⟩ := map_eq_ok_iff.1 h
      obtain rfl := Option.some.inj heq
      exact leads_of_readAt hr (mapError_eq_ok_iff.1 he)

end Lexeme

end TemplateBinding
