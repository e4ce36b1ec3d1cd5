import TemplateBinding.Proofs.Grammar.Climbing
import TemplateBinding.Proofs.Grammar.Words
import TemplateBinding.Proofs.Outcome

set_option autoImplicit false

namespace TemplateBinding.Arrangement

variable {limits : Limits} {a b : Arrangement} {c d : Cursor} {position : Nat}

theorem run_congr (h : c.skipBlanks = d.skipBlanks) : a.run limits c = a.run limits d := by
  rw [run, h, ← run]

theorem run_read {lexeme : Lexeme}
    (hr : Lexeme.read? a.expected c.skipBlanks = .ok (some (lexeme, d)))
    (ha : a.accept limits lexeme c.skipBlanks.offset = .ok b) : a.run limits c = b.run limits d := by
  rw [run]
  split
  · next h => rw [hr] at h; cases h
  · next h => rw [hr] at h; cases h
  · next h =>
    rw [hr] at h
    cases h
    rw [ha]

theorem run_end (hr : Lexeme.read? a.expected c.skipBlanks = .ok none) :
    a.run limits c = a.finish c.skipBlanks.offset := by
  rw [run]
  split
  · next h => rw [hr] at h; cases h
  · rfl
  · next h => rw [hr] at h; cases h

theorem run_error {lexeme : Lexeme} {fault : ParseFault}
    (hr : Lexeme.read? a.expected c.skipBlanks = .ok (some (lexeme, d)))
    (ha : a.accept limits lexeme c.skipBlanks.offset = .error fault) :
    a.run limits c = .error fault := by
  rw [run]
  split
  · next h => rw [hr] at h; cases h
  · next h => rw [hr] at h; cases h
  · next h =>
    rw [hr] at h
    cases h
    rw [ha]

theorem run_unread {fault : ParseFault} (hr : Lexeme.read? a.expected c.skipBlanks = .error fault) :
    a.run limits c = .error fault := by
  rw [run]
  split
  · next h => rw [hr] at h; cases h; rfl
  · next h => rw [hr] at h; cases h
  · next h => rw [hr] at h; cases h

/-- Running over the words, whatever comes behind them, leads to an arrangement of which `Q`
holds. -/
def Arrives (limits : Limits) (a : Arrangement) (words : List (List Char))
    (Q : Arrangement → Prop) : Prop :=
  ∀ (c : Cursor) (more : List (List Char)), c.Ahead (words ++ more) →
    ∃ b d, Q b ∧ a.run limits c = b.run limits d ∧ d.Ahead more

namespace Arrives

variable {words more : List (List Char)} {Q R : Arrangement → Prop}

theorem bind (h : Arrives limits a words Q) (k : ∀ b, Q b → Arrives limits b more R) :
    Arrives limits a (words ++ more) R := by
  intro c rest hc
  rw [List.append_assoc] at hc
  obtain ⟨b, d, hb, hrun, hd⟩ := h c (more ++ rest) hc
  obtain ⟨b', d', hb', hrun', hd'⟩ := k b hb d rest hd
  exact ⟨b', d', hb', hrun.trans hrun', hd'⟩

theorem mono (h : Arrives limits a words Q) (k : ∀ b, Q b → R b) : Arrives limits a words R := by
  intro c rest hc
  obtain ⟨b, d, hb, hrun, hd⟩ := h c rest hc
  exact ⟨b, d, k b hb, hrun, hd⟩

theorem lexeme {expected : Expected} {word : List Char} {lexeme : Lexeme}
    (he : a.expected = expected) (hr : Lexeme.Reads expected word lexeme)
    (ha : ∀ position, ∃ b, a.accept limits lexeme position = .ok b ∧ Q b) :
    Arrives limits a [word] Q := by
  intro c more hc
  obtain ⟨d, hread, hd⟩ := Cursor.Ahead.read hc hr
  obtain ⟨b, hb, hq⟩ := ha c.skipBlanks.offset
  rw [← he] at hread
  exact ⟨b, d, hq, run_read hread hb, hd⟩

end Arrives

theorem expected_operand (hp : a.place ≠ .operator) (hk : a.keyDue = false) :
    a.expected = .operand := by
  rw [expected, hk, if_neg hp]
  rfl

theorem expected_operator (hp : a.place = .operator) (hk : a.keyDue = false) :
    a.expected = .operator := by
  rw [expected, hk, if_pos hp]
  rfl

theorem expected_key (hk : a.keyDue = true) : a.expected = .key := by
  rw [expected, if_pos hk]

variable {wait : List Waiting} {output : List Token} {scope : Scope} {scopes : List Scope}
  {level : Nat}

theorem arrives_operand {word : List Char} {token : Token} (hp : a.place ≠ .operator)
    (hk : a.keyDue = false) (hr : Lexeme.Reads .operand word (.operand token)) :
    Arrives limits a [word] (· = ⟨token :: a.output, a.waiting, a.scopes, .operator⟩) := by
  refine .lexeme (expected_operand hp hk) hr fun position => ⟨_, ?_, rfl⟩
  simp only [accept, operand, if_neg hp]

theorem arrives_members (p : DottedPath) (hp : a.place = .operator) (hk : a.keyDue = false) :
    Arrives limits a [['.'], p.chars] (· = a.members p.names) := by
  intro c more hc
  obtain ⟨d, hread, hd⟩ := Cursor.Ahead.read_members hc
  rw [← expected_operator hp hk] at hread
  exact ⟨_, d, rfl, run_read hread rfl, hd⟩

theorem arrives_key (key : KeyWord) (hk : a.keyDue = true) :
    Arrives limits a [key.chars, [':']] (· = a.key key.text) := by
  intro c more hc
  obtain ⟨d, hread, hd⟩ := Cursor.Ahead.read_key hc
  rw [← expected_key hk] at hread
  exact ⟨_, d, rfl, run_read hread rfl, hd⟩

def inside (a : Arrangement) (kind : ScopeKind) (position : Nat) : Arrangement where
  output := if kind = .call then markCallee a.output else a.output
  waiting := []
  scopes := ⟨kind, position, 0, kind = .object, a.waiting⟩ :: a.scopes
  place := .opened

theorem openScope_eq {kind : ScopeKind} (h : a.scopes.length < limits.maxDepth) :
    a.openScope limits kind position = .ok (a.inside kind position) := by
  rw [openScope, if_neg (by omega)]
  rfl

def operandKind : Bracket → ScopeKind
  | .round => .group
  | .square => .array
  | .curly => .object

theorem reads_opener (bracket : Bracket) {expected : Expected} (he : expected ≠ .key) :
    Lexeme.Reads expected [bracket.opener] (.opening bracket) :=
  Lexeme.reads_punctuation he (Lexeme.punctuation?_opener bracket)

theorem accept_opening (bracket : Bracket) (hp : a.place ≠ .operator) :
    a.accept limits (.opening bracket) position =
      a.openScope limits (operandKind bracket) position := by
  cases hplace : a.place with
  | operator => exact absurd hplace hp
  | _ => cases bracket <;> simp [accept, opening, operandKind, hplace]

theorem accept_call (hp : a.place = .operator) :
    a.accept limits (.opening .round) position = a.openScope limits .call position := by
  simp only [accept, opening, hp]

theorem accept_index (hp : a.place = .operator) :
    a.accept limits (.opening .square) position = a.openScope limits .index position := by
  simp only [accept, opening, hp]

theorem arrives_opening (bracket : Bracket) (hp : a.place ≠ .operator) (hk : a.keyDue = false)
    (hd : a.scopes.length < limits.maxDepth) :
    Arrives limits a [[bracket.opener]]
      fun b => ∃ position, b = a.inside (operandKind bracket) position :=
  .lexeme (expected_operand hp hk) (reads_opener bracket nofun) fun position =>
    ⟨_, (accept_opening bracket hp).trans (openScope_eq hd), position, rfl⟩

theorem arrives_call (hp : a.place = .operator) (hk : a.keyDue = false)
    (hd : a.scopes.length < limits.maxDepth) :
    Arrives limits a [['(']] fun b => ∃ position, b = a.inside .call position :=
  .lexeme (expected_operator hp hk) (reads_opener .round nofun) fun position =>
    ⟨_, (accept_call hp).trans (openScope_eq hd), position, rfl⟩

theorem arrives_index (hp : a.place = .operator) (hk : a.keyDue = false)
    (hd : a.scopes.length < limits.maxDepth) :
    Arrives limits a [['[']] fun b => ∃ position, b = a.inside .index position :=
  .lexeme (expected_operator hp hk) (reads_opener .square nofun) fun position =>
    ⟨_, (accept_index hp).trans (openScope_eq hd), position, rfl⟩

def outside (scope : Scope) (scopes : List Scope) (elements : Nat) (output : List Token) :
    Arrangement where
  output := (closingToken? scope.kind elements).toList ++ output
  waiting := scope.outer
  scopes := scopes
  place := .operator

theorem accept_closing (hw : ∀ w ∈ wait, w.HoldsAt level) :
    accept ⟨output, wait, scope :: scopes, .operator⟩ limits (.closing scope.kind.bracket) position =
      .ok (outside scope scopes (scope.commas + 1) (emitted wait output)) := by
  simp only [accept, closing, emitAll_eq hw, bind, Except.bind, mapError_ok, reduceCtorEq, if_false,
    false_and, ne_eq, not_true_eq_false]
  rfl

theorem accept_closing_opened (hc : scope.kind.allowsComma = true) :
    accept ⟨output, [], scope :: scopes, .opened⟩ limits (.closing scope.kind.bracket) position =
      .ok (outside scope scopes 0 output) := by
  have hkind : ¬(scope.kind = .group ∨ scope.kind = .index) := by
    rintro (h | h) <;> rw [h] at hc <;> cases hc
  simp only [accept, closing, emitAll, bind, Except.bind, mapError_ok, reduceCtorEq, if_false,
    if_true, true_and, if_neg hkind, ne_eq, not_true_eq_false]
  rfl

theorem reads_closer (bracket : Bracket) {expected : Expected}
    (he : expected = .key → bracket = .curly) :
    Lexeme.Reads expected [bracket.closer] (.closing bracket) := by
  by_cases hk : expected = .key
  · obtain rfl := he hk
    exact Lexeme.reads_closing_curly
  · exact Lexeme.reads_punctuation hk (Lexeme.punctuation?_closer bracket)

theorem keyDue_scope {place : Place} (hk : scope.keyDue = false) :
    keyDue ⟨output, wait, scope :: scopes, place⟩ = false := by
  simp [keyDue, hk]

theorem arrives_closing (hk : scope.keyDue = false) (hw : ∀ w ∈ wait, w.HoldsAt level) :
    Arrives limits ⟨output, wait, scope :: scopes, .operator⟩ [[scope.kind.bracket.closer]]
      (· = outside scope scopes (scope.commas + 1) (emitted wait output)) :=
  .lexeme (expected_operator rfl (keyDue_scope hk)) (reads_closer _ nofun) fun _ =>
    ⟨_, accept_closing hw, rfl⟩

theorem arrives_closing_opened (hc : scope.kind.allowsComma = true) :
    Arrives limits ⟨output, [], scope :: scopes, .opened⟩ [[scope.kind.bracket.closer]]
      (· = outside scope scopes 0 output) := by
  refine .lexeme rfl (reads_closer _ fun he => ?_) fun _ => ⟨_, accept_closing_opened hc, rfl⟩
  have hobject : scope.kind = .object := by
    by_cases hk : scope.kind = .object
    · exact hk
    · simp [expected, keyDue, hk] at he
  rw [hobject]
  rfl

def nextElement (scope : Scope) (scopes : List Scope) (output : List Token) : Arrangement where
  output := output
  waiting := []
  scopes := { scope with commas := scope.commas + 1, keyDue := scope.kind = .object } :: scopes
  place := .operand

theorem accept_comma (hc : scope.kind.allowsComma = true) (hw : ∀ w ∈ wait, w.HoldsAt level) :
    accept ⟨output, wait, scope :: scopes, .operator⟩ limits .comma position =
      .ok (nextElement scope scopes (emitted wait output)) := by
  simp only [accept, comma, emitAll_eq hw, bind, Except.bind, mapError_ok, hc, ne_eq,
    not_true_eq_false, if_false, Bool.not_true, Bool.false_eq_true]
  rfl

theorem arrives_comma (hk : scope.keyDue = false) (hc : scope.kind.allowsComma = true)
    (hw : ∀ w ∈ wait, w.HoldsAt level) :
    Arrives limits ⟨output, wait, scope :: scopes, .operator⟩ [[',']]
      (· = nextElement scope scopes (emitted wait output)) :=
  .lexeme (expected_operator rfl (keyDue_scope hk)) (Lexeme.reads_punctuation nofun rfl)
    fun _ => ⟨_, accept_comma hc hw, rfl⟩

/-- The arrangement behind an operand, inside of which operators have come to wait. -/
def behind (a : Arrangement) (wait : List Waiting) (output : List Token) : Arrangement where
  output := output
  waiting := wait ++ a.waiting
  scopes := a.scopes
  place := .operator

theorem accept_unary {op : Operator} (h : op.operands = 1) (hp : a.place ≠ .operator) :
    a.accept limits (.symbol op.symbol) position =
      .ok ⟨a.output, .operator op :: a.waiting, a.scopes, .operand⟩ := by
  simp only [accept, symbol, if_neg hp, Operator.unary?_symbol h]

theorem accept_binary {op : Operator} (h2 : op.operands = 2) (hl : op.leftLevel ≤ level)
    (hw : ∀ w ∈ wait, w.HoldsAt level) (ha : Admits op.level a.waiting) :
    (a.behind wait output).accept limits (.symbol op.symbol) position =
      .ok ⟨emitted wait output, .operator op :: a.waiting, a.scopes, .operand⟩ := by
  simp only [accept, symbol, behind, if_true, Operator.binary?_symbol h2, emitWhile_left h2 hl hw ha]

theorem accept_question (hl : 1 ≤ level) (hw : ∀ w ∈ wait, w.HoldsAt level)
    (ha : Admits 0 a.waiting) :
    (a.behind wait output).accept limits .question position =
      .ok ⟨emitted wait output, .question position :: a.waiting, a.scopes, .operand⟩ := by
  simp only [accept, question, behind, emitWhile_condition hl hw ha, ne_eq, not_true_eq_false,
    if_false]

theorem accept_colon {opened : Nat} (hw : ∀ w ∈ wait, w.HoldsAt level) :
    accept ⟨output, wait ++ .question opened :: a.waiting, a.scopes, .operator⟩ limits .colon
        position =
      .ok ⟨emitted wait output, .colon :: a.waiting, a.scopes, .operand⟩ := by
  simp only [accept, colon, emitToQuestion_append hw, bind, Except.bind, mapError_ok, ne_eq,
    not_true_eq_false, if_false]
  rfl

theorem arrives_unary {op : Operator} (h : op.operands = 1) (hp : a.place ≠ .operator)
    (hk : a.keyDue = false) :
    Arrives limits a [op.symbol]
      (· = ⟨a.output, .operator op :: a.waiting, a.scopes, .operand⟩) :=
  .lexeme (expected_operand hp hk)
    (Lexeme.reads_symbol nofun (Operator.ne_conditional (.inl h)))
    fun _ => ⟨_, accept_unary h hp, rfl⟩

theorem arrives_binary {op : Operator} (h2 : op.operands = 2) (hk : a.keyDue = false)
    (hl : op.leftLevel ≤ level) (hw : ∀ w ∈ wait, w.HoldsAt level)
    (ha : Admits op.level a.waiting) :
    Arrives limits (a.behind wait output) [op.symbol]
      (· = ⟨emitted wait output, .operator op :: a.waiting, a.scopes, .operand⟩) :=
  .lexeme (expected_operator rfl hk)
    (Lexeme.reads_symbol nofun (Operator.ne_conditional (.inr h2)))
    fun _ => ⟨_, accept_binary h2 hl hw ha, rfl⟩

theorem arrives_question (hk : a.keyDue = false) (hl : 1 ≤ level)
    (hw : ∀ w ∈ wait, w.HoldsAt level) (ha : Admits 0 a.waiting) :
    Arrives limits (a.behind wait output) [['?']] fun b => ∃ position,
      b = ⟨emitted wait output, .question position :: a.waiting, a.scopes, .operand⟩ :=
  .lexeme (expected_operator rfl hk) Lexeme.reads_question fun position =>
    ⟨_, accept_question hl hw ha, position, rfl⟩

theorem arrives_colon {opened : Nat} (hk : a.keyDue = false) (hw : ∀ w ∈ wait, w.HoldsAt level) :
    Arrives limits ⟨output, wait ++ .question opened :: a.waiting, a.scopes, .operator⟩ [[':']]
      (· = ⟨emitted wait output, .colon :: a.waiting, a.scopes, .operand⟩) :=
  .lexeme (expected_operator rfl hk) (Lexeme.reads_punctuation nofun rfl) fun _ =>
    ⟨_, accept_colon hw, rfl⟩

end TemplateBinding.Arrangement
