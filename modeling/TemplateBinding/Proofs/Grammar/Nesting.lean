import TemplateBinding.Proofs.Grammar.Framing
import TemplateBinding.Proofs.Grammar.Parsing

/-!
A run over a source never looks below what it has put down itself. So it goes on in the same way
on top of another arrangement, with all positions moved.
-/

set_option autoImplicit false

namespace TemplateBinding

namespace Waiting

def shifted (shift : Nat) : Waiting → Waiting
  | .question position => .question (position + shift)
  | w => w

@[simp] theorem token_shifted (shift : Nat) (w : Waiting) : (w.shifted shift).token = w.token := by
  cases w <;> rfl

theorem HoldsAt.shifted {shift level : Nat} {w : Waiting} (h : w.HoldsAt level) :
    (w.shifted shift).HoldsAt level := by
  cases w <;> exact h

end Waiting

namespace Arrangement

def below (base : Arrangement) : List Scope → List Waiting
  | [] => base.waiting
  | _ :: _ => []

def waitingAtop (base : Arrangement) (shift : Nat) (scopes : List Scope) (wait : List Waiting) :
    List Waiting :=
  wait.map (Waiting.shifted shift) ++ base.below scopes

def scopesAtop (base : Arrangement) (shift : Nat) : List Scope → List Scope
  | [] => base.scopes
  | scope :: scopes =>
    { scope with
      position := scope.position + shift
      outer := base.waitingAtop shift scopes scope.outer } :: scopesAtop base shift scopes

/-- The arrangement `a` with `base` below it, whose text starts `shift` bytes later. -/
def atop (a base : Arrangement) (shift : Nat) : Arrangement where
  output := a.output ++ base.output
  waiting := base.waitingAtop shift a.scopes a.waiting
  scopes := base.scopesAtop shift a.scopes
  place := a.place

variable {limits inner : Limits} {a b base : Arrangement} {shift position : Nat}
  {wait rest below : List Waiting} {output emitted before : List Token}

@[simp] theorem length_scopesAtop (scopes : List Scope) :
    (base.scopesAtop shift scopes).length = scopes.length + base.scopes.length := by
  induction scopes with
  | nil => simp [scopesAtop]
  | cons scope scopes ih => simp [scopesAtop, ih, Nat.add_right_comm]

theorem keyDue_atop (hk : base.keyDue = false) : (a.atop base shift).keyDue = a.keyDue := by
  cases hs : a.scopes with
  | nil =>
    have ha : a.keyDue = false := by simp [keyDue, hs]
    rw [ha, ← hk]
    simp [keyDue, atop, hs, scopesAtop]
  | cons scope scopes => simp [keyDue, atop, hs, scopesAtop]

theorem expected_atop (hk : base.keyDue = false) : (a.atop base shift).expected = a.expected := by
  unfold expected
  rw [keyDue_atop hk]
  rfl

theorem emitAll_atop (shift : Nat) (before : List Token)
    (h : emitAll wait output = .ok emitted) :
    emitAll (wait.map (Waiting.shifted shift)) (output ++ before) = .ok (emitted ++ before) := by
  induction wait generalizing output with
  | nil =>
    cases h
    rfl
  | cons w wait ih =>
    cases w with
    | operator op => exact ih h
    | question position => cases h
    | colon => exact ih h

theorem emitWhile_atop (shift : Nat) (before : List Token) {p : Operator → Bool}
    (hb : Admits 0 below)
    (h : emitWhile p wait output = (rest, emitted)) :
    emitWhile p (wait.map (Waiting.shifted shift) ++ below) (output ++ before) =
      (rest.map (Waiting.shifted shift) ++ below, emitted ++ before) := by
  induction wait generalizing output with
  | nil =>
    cases h
    cases below with
    | nil => rfl
    | cons w below =>
      cases w with
      | operator op => exact absurd (hb op below rfl).1 (Nat.lt_irrefl 0)
      | question position => rfl
      | colon => rfl
  | cons w wait ih =>
    cases w with
    | operator op =>
      simp only [emitWhile] at h
      split at h
      · next hp =>
        simp only [List.map_cons, List.cons_append, Waiting.shifted, emitWhile, if_pos hp]
        exact ih h
      · next hp =>
        cases h
        simp only [List.map_cons, List.cons_append, Waiting.shifted, emitWhile, if_neg hp]
    | question position =>
      cases h
      rfl
    | colon =>
      cases h
      rfl

theorem emitToQuestion_atop (shift : Nat) (below : List Waiting) (before : List Token)
    (h : emitToQuestion position wait output = .ok (rest, emitted)) :
    emitToQuestion (position + shift) (wait.map (Waiting.shifted shift) ++ below)
        (output ++ before) =
      .ok (rest.map (Waiting.shifted shift) ++ below, emitted ++ before) := by
  induction wait generalizing output with
  | nil => cases h
  | cons w wait ih =>
    cases w with
    | operator op => exact ih h
    | question position =>
      cases h
      rfl
    | colon => exact ih h

theorem emitAll_eq_ok (h : emitAll wait output = .ok emitted) :
    (∀ w ∈ wait, w.HoldsAt 0) ∧ Arrangement.emitted wait output = emitted := by
  induction wait generalizing output with
  | nil =>
    cases h
    exact ⟨List.forall_mem_nil _, rfl⟩
  | cons w wait ih =>
    cases w with
    | operator op =>
      obtain ⟨hw, he⟩ := ih h
      exact ⟨List.forall_mem_cons.2 ⟨Nat.zero_le _, hw⟩, (emitted_cons _ _ _).trans he⟩
    | question position => cases h
    | colon =>
      obtain ⟨hw, he⟩ := ih h
      exact ⟨List.forall_mem_cons.2 ⟨rfl, hw⟩, (emitted_cons _ _ _).trans he⟩

theorem emitted_atop (wait : List Waiting) (output before : List Token) :
    Arrangement.emitted (wait.map (Waiting.shifted shift)) (output ++ before) =
      Arrangement.emitted wait output ++ before := by
  have htokens : Waiting.token ∘ Waiting.shifted shift = Waiting.token :=
    funext (Waiting.token_shifted shift)
  simp [Arrangement.emitted, htokens]

theorem markCallee_append (h : output ≠ []) :
    markCallee (output ++ before) = markCallee output ++ before := by
  obtain ⟨⟨l, arity⟩, output, rfl⟩ := List.exists_cons_of_ne_nil h
  cases l with
  | identifier path => simp only [List.cons_append, markCallee]
  | _ => rfl

end Arrangement

namespace Construct

theorem listing_ne_nil (c : Construct) : c.listing ≠ [] := by
  cases c <;> simp [listing]

end Construct

namespace Arrangement

variable {limits inner : Limits} {a b base : Arrangement} {shift position : Nat} {lexeme : Lexeme}

theorem Coherent.output_ne_nil (h : a.Coherent) (hp : a.place = .operator) : a.output ≠ [] := by
  have hf := h.filled_operator hp
  generalize a.output = output at hf
  cases hf with
  | operand hc hf => simp [Construct.listing_ne_nil]

theorem admits_below (hb : Admits 0 base.waiting) (scopes : List Scope) :
    Admits 0 (base.below scopes) := by
  cases scopes with
  | nil => exact hb
  | cons scope scopes => exact admits_nil 0

def TooDeep {α : Type} (limits : Limits) (depth : Nat) (outcome : Except ParseFault α) : Prop :=
  limits.maxDepth < depth ∧ ∃ fault, outcome = .error (.limit fault)

theorem TooDeep.mono {α : Type} {depth depth' : Nat} {outcome : Except ParseFault α}
    (h : TooDeep limits depth outcome) (hd : depth ≤ depth') : TooDeep limits depth' outcome :=
  ⟨Nat.lt_of_lt_of_le h.1 hd, h.2⟩

theorem openScope_atop {kind : ScopeKind} (limits : Limits) (hn : kind = .call → a.output ≠ [])
    (h : a.openScope inner kind position = .ok b) :
    (a.atop base shift).openScope limits kind (position + shift) = .ok (b.atop base shift) ∨
      TooDeep limits (base.scopes.length + inner.maxDepth)
        ((a.atop base shift).openScope limits kind (position + shift)) := by
  have hlength : (a.atop base shift).scopes.length = a.scopes.length + base.scopes.length :=
    length_scopesAtop _
  unfold openScope at h ⊢
  split at h
  · cases h
  · next hlt =>
    cases h
    by_cases hlimit : limits.maxDepth ≤ (a.atop base shift).scopes.length
    · rw [if_pos hlimit]
      exact .inr ⟨by omega, _, rfl⟩
    · rw [if_neg hlimit]
      left
      by_cases hk : kind = .call
      · simp [atop, scopesAtop, waitingAtop, Arrangement.below, hk, markCallee_append (hn hk)]
      · simp [atop, scopesAtop, waitingAtop, Arrangement.below, hk]

theorem opening_atop {bracket : Bracket} (limits : Limits) (ha : a.Coherent)
    (h : a.opening inner bracket position = .ok b) :
    (a.atop base shift).opening limits bracket (position + shift) = .ok (b.atop base shift) ∨
      TooDeep limits (base.scopes.length + inner.maxDepth)
        ((a.atop base shift).opening limits bracket (position + shift)) := by
  have hplace : (a.atop base shift).place = a.place := rfl
  cases hp : a.place with
  | operator =>
    have hne : a.output ≠ [] := ha.output_ne_nil hp
    cases bracket with
    | curly => simp [opening, hp] at h
    | _ =>
      simp only [opening, hplace, hp] at h ⊢
      exact openScope_atop limits (fun _ => hne) h
  | _ =>
    have hkind (kind : ScopeKind) (hne : kind ≠ .call) : kind = .call → a.output ≠ [] :=
      fun hk => absurd hk hne
    cases bracket <;> simp only [opening, hplace, hp] at h ⊢ <;>
      exact openScope_atop limits (hkind _ (by decide)) h

theorem closing_atop {bracket : Bracket} (h : a.closing bracket position = .ok b) :
    (a.atop base shift).closing bracket (position + shift) = .ok (b.atop base shift) := by
  obtain ⟨output, scope, scopes, hp, he, hs, hb, ho, rfl⟩ := closing_eq_ok h
  have hemit := emitAll_atop shift base.output he
  simp only [closing, atop, hs, scopesAtop, waitingAtop, Arrangement.below, List.append_nil, hemit,
    bind, Except.bind, mapError_ok, if_neg hp, hb, if_neg ho, ne_eq, not_true_eq_false, if_false]
  simp [pure, Except.pure]

theorem comma_atop (h : a.comma position = .ok b) :
    (a.atop base shift).comma (position + shift) = .ok (b.atop base shift) := by
  obtain ⟨output, scope, scopes, hp, he, hs, hc, rfl⟩ := comma_eq_ok h
  have hemit := emitAll_atop shift base.output he
  simp only [comma, atop, hs, scopesAtop, waitingAtop, Arrangement.below, List.append_nil, hemit,
    bind, Except.bind, mapError_ok, hp, hc, ne_eq, not_true_eq_false, if_false, Bool.not_true,
    Bool.false_eq_true]
  rfl

theorem question_atop (hb : Admits 0 base.waiting) (h : a.question position = .ok b) :
    (a.atop base shift).question (position + shift) = .ok (b.atop base shift) := by
  have hplace : (a.atop base shift).place = a.place := rfl
  unfold question at h ⊢
  rw [hplace]
  split at h
  · cases h
  · next hp =>
    cases h
    have hemit := emitWhile_atop shift base.output (admits_below hb a.scopes)
      (rfl : emitWhile (fun _ => true) a.waiting a.output = _)
    rw [if_neg hp]
    simp only [atop, waitingAtop, hemit]
    simp [Waiting.shifted]

theorem colon_atop (h : a.colon position = .ok b) :
    (a.atop base shift).colon (position + shift) = .ok (b.atop base shift) := by
  have hplace : (a.atop base shift).place = a.place := rfl
  unfold colon at h ⊢
  rw [hplace]
  split at h
  · cases h
  · next hp =>
    obtain ⟨⟨rest, emitted⟩, he, hb⟩ := bind_eq_ok_iff.1 h
    have he := Lexeme.mapError_eq_ok_iff.1 he
    cases hb
    have hemit := emitToQuestion_atop shift (base.below a.scopes) base.output he
    rw [if_neg hp]
    simp only [atop, waitingAtop, hemit]
    rfl

theorem symbol_atop {cs : List Char} (hb : Admits 0 base.waiting)
    (h : a.symbol cs position = .ok b) :
    (a.atop base shift).symbol cs (position + shift) = .ok (b.atop base shift) := by
  have hplace : (a.atop base shift).place = a.place := rfl
  unfold symbol at h ⊢
  rw [hplace]
  split at h
  · next hp =>
    rw [if_pos hp]
    cases hop : Operator.binary? cs with
    | none => rw [hop] at h; cases h
    | some op =>
      rw [hop] at h
      cases h
      have hemit := emitWhile_atop shift base.output (admits_below hb a.scopes)
        (rfl : emitWhile (·.yieldsTo op) a.waiting a.output = _)
      simp only [atop, waitingAtop, hemit]
      simp [Waiting.shifted]
  · next hp =>
    rw [if_neg hp]
    cases hop : Operator.unary? cs with
    | none => rw [hop] at h; cases h
    | some op =>
      rw [hop] at h
      cases h
      simp [atop, waitingAtop, Waiting.shifted]

theorem key_atop {name : String} (hk : a.keyDue = true) :
    (a.atop base shift).key name = (a.key name).atop base shift := by
  cases hs : a.scopes with
  | nil => simp [keyDue, hs] at hk
  | cons scope scopes => simp [key, atop, hs, scopesAtop, waitingAtop, Arrangement.below]

/-- An operand of any kind can come next. -/
structure Awaits (base : Arrangement) : Prop where
  place : base.place ≠ .operator
  keyDue : base.keyDue = false
  admits : Admits 0 base.waiting

theorem accept_atop (limits : Limits) (ha : a.Coherent) (hb : Admits 0 base.waiting)
    (hs : lexeme.Suits a.expected) (hab : a.accept inner lexeme position = .ok b) :
    (a.atop base shift).accept limits lexeme (position + shift) = .ok (b.atop base shift) ∨
      TooDeep limits (base.scopes.length + inner.maxDepth)
        ((a.atop base shift).accept limits lexeme (position + shift)) := by
  cases lexeme with
  | operand token =>
    have hplace : (a.atop base shift).place = a.place := rfl
    simp only [accept, operand, hplace] at hab ⊢
    split at hab
    · cases hab
    · next hp =>
      cases hab
      rw [if_neg hp]
      exact .inl rfl
  | members names =>
    cases hab
    simp [accept, members, atop]
  | key name =>
    cases hab
    have hk : a.keyDue = true := by
      cases hk : a.keyDue with
      | true => rfl
      | false =>
        simp only [Lexeme.Suits, expected, hk, Bool.false_eq_true, if_false] at hs
        split at hs <;> cases hs
    exact .inl (congrArg Except.ok (key_atop hk))
  | opening bracket => exact opening_atop limits ha hab
  | closing bracket => exact .inl (closing_atop hab)
  | comma => exact .inl (comma_atop hab)
  | colon => exact .inl (colon_atop hab)
  | question => exact .inl (question_atop hb hab)
  | symbol cs => exact .inl (symbol_atop hb hab)

/-- What can start an operand can also start one in a bracket that has just been opened. -/
theorem accept_opened (hp : a.place = .operand) (hs : lexeme.Suits a.expected)
    (hg : ∀ fault, a.accept limits lexeme position ≠ .error (.grammar fault)) :
    { a with place := .opened }.accept limits lexeme position =
      a.accept limits lexeme position := by
  have hne : a.place ≠ .operator := by rw [hp]; exact nofun
  cases lexeme with
  | operand token => simp [accept, operand, hp]
  | members names => exact absurd (place_of_expected hs.1) hne
  | key name => rfl
  | opening bracket => cases bracket <;> simp [accept, opening, openScope, hp]
  | closing bracket =>
    refine absurd ?_ (hg (.expectedOperand (inQuotes (String.singleton bracket.closer)) position))
    simp only [accept, closing, hp, if_true]
    rfl
  | comma =>
    refine absurd ?_ (hg (.expectedOperand "','" position))
    simp only [accept, comma, if_pos hne]
    rfl
  | colon =>
    refine absurd ?_ (hg (.expectedOperand "':'" position))
    simp only [accept, colon, if_pos hne]
    rfl
  | question =>
    refine absurd ?_ (hg (.expectedOperand "'?'" position))
    simp only [accept, question, if_pos hne]
    rfl
  | symbol cs => simp [accept, symbol, hp]

theorem Coherent.finish_eq_ok {tokens : List Token} (ha : a.Coherent)
    (h : a.finish position = .ok tokens) :
    a.place = .operator ∧ a.scopes = [] ∧ emitAll a.waiting a.output = .ok tokens.reverse := by
  unfold Arrangement.finish at h
  split at h
  · split at h <;> cases h
  · next hp =>
    cases hs : a.scopes with
    | cons scope scopes => rw [hs] at h; cases h
    | nil =>
      rw [hs] at h
      obtain ⟨output, he, rfl⟩ := Lexeme.map_eq_ok_iff.1 h
      refine ⟨?_, rfl, by rw [Lexeme.mapError_eq_ok_iff.1 he, List.reverse_reverse]⟩
      cases hplace : a.place with
      | operator => rfl
      | operand => exact absurd hplace hp
      | opened =>
        obtain ⟨-, scope, scopes, hscopes, -⟩ := ha.opened hplace
        rw [hs] at hscopes
        cases hscopes

theorem atop_of_finish (base : Arrangement) (shift : Nat) {tokens : List Token} (ha : a.Coherent)
    (h : a.finish position = .ok tokens) :
    ∃ wait output, (∀ w ∈ wait, w.HoldsAt 0) ∧ emitted wait output = tokens.reverse ++ base.output ∧
      a.atop base shift = base.behind wait output := by
  obtain ⟨hp, hs, he⟩ := ha.finish_eq_ok h
  obtain ⟨hw, hemitted⟩ := emitAll_eq_ok he
  refine ⟨a.waiting.map (Waiting.shifted shift), a.output ++ base.output, ?_, ?_, ?_⟩
  · intro w hm
    obtain ⟨v, hv, rfl⟩ := List.mem_map.1 hm
    exact (hw v hv).shifted
  · rw [emitted_atop, hemitted]
  · simp [atop, behind, hp, hs, scopesAtop, waitingAtop, Arrangement.below]

inductive StandsAtop (base : Arrangement) (shift : Nat) (a : Arrangement) : Arrangement → Prop
  | atop : StandsAtop base shift a (a.atop base shift)
  | opened : a.place = .operand →
      StandsAtop base shift a { a.atop base shift with place := .opened }

theorem StandsAtop.expected_eq (h : StandsAtop base shift a b) (hk : base.keyDue = false) :
    b.expected = a.expected := by
  cases h with
  | atop => exact expected_atop hk
  | opened hp =>
    have hatop : (a.atop base shift).expected = a.expected := expected_atop hk
    rw [← hatop]
    simp [expected, keyDue, Arrangement.atop, hp]

theorem StandsAtop.accept {a' : Arrangement} (limits : Limits) (hb : StandsAtop base shift a b)
    (ha : a.Coherent) (h : base.Awaits) (hs : lexeme.Suits a.expected)
    (haa : a.accept inner lexeme position = .ok a') :
    b.accept limits lexeme (position + shift) = .ok (a'.atop base shift) ∨
      TooDeep limits (base.scopes.length + inner.maxDepth)
        (b.accept limits lexeme (position + shift)) := by
  have hatop : (a.atop base shift).accept limits lexeme (position + shift) =
      .ok (a'.atop base shift) ∨ TooDeep limits (base.scopes.length + inner.maxDepth)
        ((a.atop base shift).accept limits lexeme (position + shift)) :=
    accept_atop limits ha h.admits hs haa
  cases hb with
  | atop => exact hatop
  | opened hp =>
    have hopened : { a.atop base shift with place := .opened }.accept limits lexeme
        (position + shift) = (a.atop base shift).accept limits lexeme (position + shift) := by
      refine accept_opened hp (by rwa [expected_atop h.keyDue]) fun fault heq => ?_
      rw [heq] at hatop
      obtain hatop | ⟨-, _, hatop⟩ := hatop <;> cases hatop
    rwa [hopened]

/-- A run that comes to an end on its own leads, on top of `base`, to where all its tokens have
been emitted or wait, and to what follows its text. -/
theorem StandsAtop.run {c : Cursor} {follow : List Char} {tokens : List Token} (limits : Limits)
    (hb : StandsAtop base shift a b) (ha : a.Coherent) (h : base.Awaits) (hf : Delimits follow)
    (hr : a.run inner c = .ok tokens) :
    (∃ wait output, (∀ w ∈ wait, w.HoldsAt 0) ∧
      emitted wait output = tokens.reverse ++ base.output ∧
      b.run limits (c.within shift follow) =
        (base.behind wait output).run limits ⟨follow, c.offset + shift + byteLength c.rest⟩) ∨
    TooDeep limits (base.scopes.length + inner.maxDepth)
      (b.run limits (c.within shift follow)) := by
  fun_induction Arrangement.run inner a c generalizing b with
  | case1 => cases hr
  | case2 a c hread =>
    have hend : c.skipBlanks.rest = [] := (Lexeme.read?_eq_none_iff.1 hread).2
    cases hb with
    | atop =>
      obtain ⟨wait, output, hw, he, hatop⟩ := atop_of_finish base shift ha hr
      refine .inl ⟨wait, output, hw, he, ?_⟩
      rw [run_congr (Cursor.skipBlanks_within_of_rest_nil hend), hatop]
    | opened hp =>
      obtain ⟨hp', -⟩ := ha.finish_eq_ok hr
      rw [hp] at hp'
      cases hp'
  | case3 => cases hr
  | case4 a c lexeme next hread a' haa ih =>
    obtain ⟨s, hs, hl⟩ := Lexeme.leads_of_read? hread
    obtain ⟨t, ht⟩ := Cursor.leads_skipBlanks c
    have hend : next.offset + byteLength next.rest = c.offset + byteLength c.rest :=
      (ht.trans hl).end_eq
    have hne : c.skipBlanks.rest ≠ [] := by
      intro hnil
      have := hl.length_lt hs
      rw [hnil] at this
      exact absurd this (Nat.not_lt_zero _)
    have hsuits := Lexeme.suits_of_read? hread
    have hskip : (c.within shift follow).skipBlanks = c.skipBlanks.within shift follow :=
      Cursor.skipBlanks_within hne
    have hwithin : Lexeme.read? b.expected (c.within shift follow).skipBlanks =
        .ok (some (lexeme, next.within shift follow)) := by
      rw [hb.expected_eq h.keyDue, hskip]
      exact Lexeme.read?_within hf hread
    have haccept := hb.accept limits ha h hsuits haa
    have hoffset : c.skipBlanks.offset + shift = (c.within shift follow).skipBlanks.offset := by
      rw [hskip]
      rfl
    rw [hoffset] at haccept
    obtain haccept | ⟨hlt, fault, haccept⟩ := haccept
    · rw [run_read hwithin haccept]
      rw [Nat.add_right_comm, ← hend, Nat.add_right_comm]
      exact ih .atop (ha.accept hsuits haa) hr
    · exact .inr ⟨hlt, fault, run_error hwithin haccept⟩

theorem run_source {source : String} {tokens : List Token} {text : List Char} {c : Cursor}
    (limits : Limits) (ht : tokenize inner source = .ok tokens) (h : a.Awaits) (hf : Delimits text)
    (hc : c.rest = source.toList ++ text) :
    (∃ wait output, (∀ w ∈ wait, w.HoldsAt 0) ∧
      emitted wait output = tokens.reverse ++ a.output ∧
      a.run limits c =
        (a.behind wait output).run limits ⟨text, c.offset + byteLength source.toList⟩) ∨
    TooDeep limits (a.scopes.length + inner.maxDepth) (a.run limits c) := by
  have hwithin : c = (Cursor.start source).within c.offset text := by
    simp [Cursor.within, Cursor.start, ← hc]
  have hstands : StandsAtop a c.offset {} a := by
    obtain ⟨output, waiting, scopes, place⟩ := a
    cases place with
    | operator => exact absurd rfl h.place
    | operand => exact .atop
    | opened => exact .opened rfl
  have hrun := hstands.run limits coherent_start h hf (arrange_of_tokenize ht)
  have hoffset : (Cursor.start source).offset + c.offset = c.offset := Nat.zero_add _
  rwa [← hwithin, hoffset] at hrun

/-- Running over the rest of the text yields the tokens, unless brackets are nested too deep. -/
def Yields (limits : Limits) (depth : Nat) (a : Arrangement) (text : List Char)
    (tokens : List Token) : Prop :=
  ∀ c : Cursor, c.rest = text → a.run limits c = .ok tokens ∨ TooDeep limits depth (a.run limits c)

variable {depth : Nat} {text : List Char} {tokens : List Token}

theorem yields_blank (h : Yields limits depth a text tokens) :
    Yields limits depth a (' ' :: text) tokens := by
  intro c hc
  have hskip : c.skipBlanks = c.next.skipBlanks := by
    simp [Cursor.skipBlanks, Cursor.takeWhile, Cursor.next, hc, Text.isBlank, byteLength,
      Nat.add_assoc]
  rw [run_congr hskip]
  exact h c.next (Cursor.rest_next hc)

theorem yields_lexeme {word : List Char}
    (hread : ∀ c : Cursor, c.rest = word ++ text →
      ∃ d, Lexeme.read? a.expected c.skipBlanks = .ok (some (lexeme, d)) ∧ d.rest = text)
    (ha : ∀ position, (∃ b, a.accept limits lexeme position = .ok b ∧
        Yields limits depth b text tokens) ∨
      TooDeep limits depth (a.accept limits lexeme position)) :
    Yields limits depth a (word ++ text) tokens := by
  intro c hc
  obtain ⟨d, hd, hrest⟩ := hread c hc
  obtain ⟨b, hb, h⟩ | ⟨hlt, fault, hfault⟩ := ha c.skipBlanks.offset
  · rw [run_read hd hb]
    exact h d hrest
  · exact .inr ⟨hlt, fault, run_error hd hfault⟩

theorem skipBlanks_of_visible {c : Cursor} {ch : Char} {rest : List Char} (hc : c.rest = ch :: rest)
    (hb : Text.isBlank ch = false) : c.skipBlanks = c := by
  obtain ⟨_, offset⟩ := c
  cases hc
  simp [Cursor.skipBlanks, Cursor.takeWhile, hb, byteLength]

theorem read?_punctuation {expected : Expected} {c : Cursor} {ch : Char} {rest : List Char}
    (hp : Lexeme.punctuation? ch = some lexeme) (he : expected ≠ .key) (hc : c.rest = ch :: rest) :
    Lexeme.read? expected c.skipBlanks = .ok (some (lexeme, c.next)) := by
  rw [skipBlanks_of_visible hc (Lexeme.isMark_of_punctuation? hp).2, Lexeme.read?_cons (.inl he) hc,
    Lexeme.readAt_punctuation hp]
  rfl

theorem yields_punctuation {ch : Char} (hp : Lexeme.punctuation? ch = some lexeme)
    (he : a.expected ≠ .key)
    (ha : ∀ position, (∃ b, a.accept limits lexeme position = .ok b ∧
        Yields limits depth b text tokens) ∨
      TooDeep limits depth (a.accept limits lexeme position)) :
    Yields limits depth a (ch :: text) tokens := by
  have hread : ∀ c : Cursor, c.rest = [ch] ++ text →
      ∃ d, Lexeme.read? a.expected c.skipBlanks = .ok (some (lexeme, d)) ∧ d.rest = text :=
    fun c hc => ⟨c.next, read?_punctuation hp he hc, Cursor.rest_next hc⟩
  exact yields_lexeme hread ha

theorem yields_word {expected : Expected} {word : List Char} (he : a.expected = expected)
    (hr : Lexeme.Reads expected word lexeme) (hf : Delimits text)
    (ha : ∀ position, ∃ b, a.accept limits lexeme position = .ok b ∧
      Yields limits depth b text tokens) :
    Yields limits depth a (word ++ text) tokens := by
  refine yields_lexeme (fun c hc => ?_) fun position => .inl (ha position)
  obtain ⟨ch, cs, hs, hb⟩ := hr.visible
  obtain ⟨d, hd, hrest⟩ := hr.reads ⟨word, 0⟩ [] (List.append_nil word).symm nofun
  refine ⟨d.within c.offset text, ?_, by rw [Cursor.rest_within, hrest]; rfl⟩
  have hwithin : c = Cursor.within c.offset text ⟨word, 0⟩ := by
    simp [Cursor.within, ← hc]
  rw [he, skipBlanks_of_visible (by rw [hc, hs]; rfl) hb]
  conv => lhs; rw [hwithin]
  exact Lexeme.read?_within hf hd

theorem yields_source {source : String} {emittedTokens : List Token}
    (ht : tokenize inner source = .ok emittedTokens) (h : a.Awaits) (hf : Delimits text)
    (hd : a.scopes.length + inner.maxDepth ≤ depth)
    (hk : ∀ wait output, (∀ w ∈ wait, w.HoldsAt 0) →
      emitted wait output = emittedTokens.reverse ++ a.output →
        Yields limits depth (a.behind wait output) text tokens) :
    Yields limits depth a (source.toList ++ text) tokens := by
  intro c hc
  obtain ⟨wait, output, hw, he, hrun⟩ | hdeep := run_source limits ht h hf hc
  · rw [hrun]
    exact hk wait output hw he _ rfl
  · exact .inr (hdeep.mono hd)

theorem yields_end {wait : List Waiting} {output : List Token} (hw : ∀ w ∈ wait, w.HoldsAt 0)
    (he : emitted wait output = tokens.reverse) :
    Yields limits depth ⟨output, wait, [], .operator⟩ [] tokens := by
  intro c hc
  have hnil : c.skipBlanks.rest = [] := by simp [Cursor.rest_skipBlanks, hc]
  have hexpected : expected ⟨output, wait, [], .operator⟩ ≠ .key := nofun
  rw [run_end (Lexeme.read?_end hexpected hnil)]
  simp [finish, emitAll_eq hw, mapError_ok, Except.map, he]

end Arrangement

/-- Where nesting alone can keep a run from its outcome, limits alone can keep the source from it,
and none does that has room for the text and for the nesting. -/
theorem tokenize_of_arrange {limits : Limits} {depth : Nat} {source : String}
    {outcome : Except ParseFault (List Token)}
    (h : arrange limits source = outcome ∨
      Arrangement.TooDeep limits depth (arrange limits source)) :
    (tokenize limits source = outcome ∨ ∃ fault, tokenize limits source = .error (.limit fault)) ∧
    (source.length ≤ limits.maxLength → depth ≤ limits.maxDepth →
      tokenize limits source = outcome) := by
  refine ⟨?_, fun hlength hdepth => ?_⟩
  · unfold tokenize
    split
    · exact .inr ⟨_, rfl⟩
    · exact h.imp_right And.right
  · rw [tokenize, if_neg (Nat.not_lt.2 hlength)]
    exact h.resolve_right fun hdeep => Nat.not_lt.2 hdepth hdeep.1

end TemplateBinding
