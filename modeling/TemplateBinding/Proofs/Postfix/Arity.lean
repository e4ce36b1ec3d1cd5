import TemplateBinding.Expression
import TemplateBinding.Proofs.Postfix.Arrangement
import TemplateBinding.Proofs.Postfix.Fold

set_option autoImplicit false

namespace TemplateBinding

/-- An arity that `n` characters can lead to: no operator has more than three operands, and no
bracket more than `n` elements. -/
def Token.Within (n : Nat) (t : Token) : Prop := -2 ≤ t.arity ∧ t.arity ≤ max 3 n

theorem Token.Within.mono {m n : Nat} {t : Token} (h : t.Within m) (hmn : m ≤ n) : t.Within n := by
  unfold Token.Within at *
  omega

theorem Token.within_operator (n : Nat) (op : Operator) : (Token.operator op).Within n := by
  have : op.operands ≤ 3 := by cases op <;> decide
  unfold Token.Within Token.operator Token.of Lexical.defaultArity
  dsimp only
  omega

theorem Token.within_of_not_operator {n : Nat} {l : Lexical} (h : ∀ op, l ≠ .operator op) :
    (Token.of l).Within n := by
  cases l with
  | operator op => exact absurd rfl (h op)
  | _ => simp only [Token.Within, Token.of, Lexical.defaultArity, referenceArity]; omega

theorem Token.IsOperand.within {n : Nat} {t : Token} (h : t.IsOperand) : t.Within n := by
  cases h with
  | literal => simp only [Token.Within]; omega
  | identifier => simp only [Token.Within, referenceArity]; omega

namespace Arrangement

variable {n : Nat} {a b : Arrangement} {position : Nat}

/-- No arity and no count of commas is greater than `n` characters allow. -/
structure Bounded (n : Nat) (a : Arrangement) : Prop where
  output : ∀ t ∈ a.output, t.Within n
  commas : ∀ s ∈ a.scopes, s.commas < n

theorem within_emitAll {ws : List Waiting} {output emitted : List Token}
    (hw : ∀ t ∈ output, t.Within n) (h : emitAll ws output = .ok emitted) :
    ∀ t ∈ emitted, t.Within n := by
  induction ws generalizing output with
  | nil =>
    cases h
    exact hw
  | cons w ws ih =>
    cases w with
    | operator op => exact ih (List.forall_mem_cons.2 ⟨Token.within_operator n op, hw⟩) h
    | question position => cases h
    | colon => exact ih (List.forall_mem_cons.2 ⟨Token.within_operator n .conditional, hw⟩) h

theorem within_emitWhile {p : Operator → Bool} {ws rest : List Waiting}
    {output emitted : List Token} (hw : ∀ t ∈ output, t.Within n)
    (h : emitWhile p ws output = (rest, emitted)) : ∀ t ∈ emitted, t.Within n := by
  induction ws generalizing output with
  | nil =>
    cases h
    exact hw
  | cons w ws ih =>
    cases w with
    | operator op =>
      simp only [emitWhile] at h
      split at h
      · exact ih (List.forall_mem_cons.2 ⟨Token.within_operator n op, hw⟩) h
      · cases h
        exact hw
    | _ =>
      cases h
      exact hw

theorem within_emitToQuestion {ws rest : List Waiting} {output emitted : List Token}
    (hw : ∀ t ∈ output, t.Within n)
    (h : emitToQuestion position ws output = .ok (rest, emitted)) :
    ∀ t ∈ emitted, t.Within n := by
  induction ws generalizing output with
  | nil => cases h
  | cons w ws ih =>
    cases w with
    | operator op => exact ih (List.forall_mem_cons.2 ⟨Token.within_operator n op, hw⟩) h
    | colon => exact ih (List.forall_mem_cons.2 ⟨Token.within_operator n .conditional, hw⟩) h
    | question position =>
      cases h
      exact hw

theorem within_markCallee {output : List Token} (hw : ∀ t ∈ output, t.Within n) :
    ∀ t ∈ markCallee output, t.Within n := by
  unfold markCallee
  split
  · next path arity output =>
    obtain ⟨ht, hw⟩ := List.forall_mem_cons.1 hw
    refine List.forall_mem_cons.2 ⟨?_, hw⟩
    split
    · simp only [Token.Within, calleeArity]; omega
    · exact ht
  · exact hw

theorem within_closingToken? {kind : ScopeKind} {elements : Nat} (h : elements ≤ n) :
    ∀ t ∈ (closingToken? kind elements).toList, t.Within n := by
  intro t ht
  cases kind with
  | group => cases ht
  | array =>
    obtain rfl := List.mem_singleton.1 ht
    simp only [Token.Within, referenceArity]
    split <;> omega
  | _ =>
    obtain rfl := List.mem_singleton.1 ht
    simp only [Token.Within, Token.of, Lexical.defaultArity]
    omega

theorem Bounded.accept_opening {limits : Limits} {bracket : Bracket} (h : a.Bounded n)
    (ha : a.opening limits bracket position = .ok b) : b.Bounded (n + 1) := by
  obtain herror | ⟨kind, -, hopen⟩ := opening_cases a bracket position
  · rw [herror] at ha
    cases ha
  · rw [hopen, openScope] at ha
    split at ha
    · cases ha
    · cases ha
      refine ⟨fun t ht => ?_, List.forall_mem_cons.2 ⟨Nat.succ_pos n, fun s hs => ?_⟩⟩
      · have hw : t.Within n := by
          dsimp only at ht
          split at ht
          · exact within_markCallee h.output t ht
          · exact h.output t ht
        exact hw.mono (Nat.le_succ n)
      · exact Nat.lt_succ_of_lt (h.commas s hs)

theorem Bounded.mono {m : Nat} (h : a.Bounded m) (hmn : m ≤ n) : a.Bounded n where
  output t ht := (h.output t ht).mono hmn
  commas s hs := Nat.lt_of_lt_of_le (h.commas s hs) hmn

theorem Bounded.accept_closing {bracket : Bracket} (h : a.Bounded n)
    (ha : a.closing bracket position = .ok b) : b.Bounded n := by
  obtain ⟨output, scope, scopes, -, he, hs, -, -, rfl⟩ := closing_eq_ok ha
  have hcommas := h.commas
  rw [hs] at hcommas
  obtain ⟨hscope, hscopes⟩ := List.forall_mem_cons.1 hcommas
  refine ⟨fun t ht => ?_, hscopes⟩
  rcases List.mem_append.1 ht with ht | ht
  · exact within_closingToken? (by split <;> omega) t ht
  · exact within_emitAll h.output he t ht

theorem Bounded.accept_comma (h : a.Bounded n) (ha : a.comma position = .ok b) :
    b.Bounded (n + 1) := by
  obtain ⟨output, scope, scopes, -, he, hs, -, rfl⟩ := comma_eq_ok ha
  have hcommas := h.commas
  rw [hs] at hcommas
  obtain ⟨hscope, hscopes⟩ := List.forall_mem_cons.1 hcommas
  refine ⟨fun t ht => ?_, List.forall_mem_cons.2 ⟨Nat.succ_lt_succ hscope, fun s hs => ?_⟩⟩
  · exact (within_emitAll h.output he t ht).mono (Nat.le_succ n)
  · exact Nat.lt_succ_of_lt (hscopes s hs)

theorem Bounded.accept_symbol {cs : List Char} (h : a.Bounded n)
    (ha : a.symbol cs position = .ok b) : b.Bounded n := by
  unfold symbol at ha
  split at ha
  · split at ha
    · cases ha
    · cases ha
      exact ⟨within_emitWhile h.output rfl, h.commas⟩
  · split at ha
    · cases ha
    · cases ha
      exact ⟨h.output, h.commas⟩

theorem Bounded.accept_colon (h : a.Bounded n) (ha : a.colon position = .ok b) :
    b.Bounded n := by
  simp only [colon, bind, Except.bind] at ha
  split at ha
  · cases ha
  · cases he : emitToQuestion position a.waiting a.output with
    | error fault => rw [he] at ha; cases ha
    | ok r =>
      rw [he] at ha
      cases ha
      exact ⟨within_emitToQuestion h.output he, h.commas⟩

theorem Bounded.accept_key (name : String) (h : a.Bounded n) : (a.key name).Bounded n := by
  refine ⟨List.forall_mem_cons.2 ⟨Token.within_of_not_operator (fun _ h => by cases h), h.output⟩, ?_⟩
  have hcommas := h.commas
  simp only [key]
  split
  · exact List.forall_mem_nil _
  · next scope scopes hs =>
    rw [hs] at hcommas
    exact List.forall_mem_cons.2 (List.forall_mem_cons.1 hcommas)

/-- A lexeme adds at most one to what the characters before it allow. -/
theorem Bounded.accept {limits : Limits} {lexeme : Lexeme} (h : a.Bounded n)
    (hs : lexeme.Suits a.expected) (ha : a.accept limits lexeme position = .ok b) :
    b.Bounded (n + 1) := by
  cases lexeme with
  | operand token =>
    refine Bounded.mono ?_ (Nat.le_succ n)
    simp only [Arrangement.accept, operand] at ha
    split at ha
    · cases ha
    · cases ha
      exact ⟨List.forall_mem_cons.2 ⟨hs.2.within, h.output⟩, h.commas⟩
  | members names =>
    cases ha
    refine Bounded.mono ⟨fun t ht => ?_, h.commas⟩ (Nat.le_succ n)
    rcases List.mem_append.1 ht with ht | ht
    · obtain ⟨name, -, rfl⟩ := List.mem_map.1 (List.mem_reverse.1 ht)
      exact Token.within_of_not_operator fun _ h => by cases h
    · exact h.output t ht
  | key name =>
    cases ha
    exact (h.accept_key name).mono (Nat.le_succ n)
  | opening bracket => exact h.accept_opening ha
  | closing bracket => exact (h.accept_closing ha).mono (Nat.le_succ n)
  | comma => exact h.accept_comma ha
  | colon => exact (h.accept_colon ha).mono (Nat.le_succ n)
  | question =>
    refine Bounded.mono ?_ (Nat.le_succ n)
    simp only [Arrangement.accept, question] at ha
    split at ha
    · cases ha
    · cases ha
      exact ⟨within_emitWhile h.output rfl, h.commas⟩
  | symbol cs => exact (h.accept_symbol ha).mono (Nat.le_succ n)

theorem Bounded.finish {tokens : List Token} (h : a.Bounded n)
    (hf : a.finish position = .ok tokens) : ∀ t ∈ tokens, t.Within n := by
  unfold Arrangement.finish at hf
  split at hf
  · split at hf <;> cases hf
  · split at hf
    · cases hf
    · obtain ⟨output, he, rfl⟩ := Lexeme.map_eq_ok_iff.1 hf
      have he := Lexeme.mapError_eq_ok_iff.1 he
      intro t ht
      exact within_emitAll h.output he t (List.mem_reverse.1 ht)

theorem Bounded.run {limits : Limits} {m : Nat} {c : Cursor} {tokens : List Token}
    (h : a.Bounded m) (hm : m + c.rest.length ≤ n) (hr : a.run limits c = .ok tokens) :
    ∀ t ∈ tokens, t.Within n := by
  fun_induction Arrangement.run limits a c generalizing m with
  | case1 => cases hr
  | case2 a c hn => exact (h.mono (by omega)).finish hr
  | case3 => cases hr
  | case4 a c lexeme next hl b hb ih =>
    obtain ⟨s, hs, hread⟩ := Lexeme.leads_of_read? hl
    obtain ⟨t, hblanks⟩ := Cursor.leads_skipBlanks c
    have hshorter := hread.length_lt hs
    have hblanks := hblanks.length_le
    exact ih (h.accept (Lexeme.suits_of_read? hl) hb) (by omega) hr

end Arrangement

theorem within_of_arrange {limits : Limits} {source : String} {tokens : List Token}
    (h : arrange limits source = .ok tokens) : ∀ t ∈ tokens, t.Within source.length := by
  have hstart : Arrangement.Bounded 0 {} := ⟨nofun, nofun⟩
  refine hstart.run ?_ h
  rw [Cursor.start, String.length_toList]
  omega

/-- The tokens of a source are compiled, or their tree is too deep: a stream that comes from a
source has no fault of its own. -/
theorem compile_of_tokenize {limits : Limits} {source : String} {tokens : List Token}
    (text : String) (hl : source.length < 2 ^ 31) (h : tokenize limits source = .ok tokens) :
    (∀ t ∈ tokens, -2 ^ 31 ≤ t.arity ∧ t.arity < 2 ^ 31) ∧
      ((∃ e, Expression.compile limits text tokens = .ok e) ∨
        Expression.compile limits text tokens =
          .error (.limit (.expressionTooDeep limits.maxDepth))) := by
  have ha := arrange_of_tokenize h
  refine ⟨fun t ht => ?_, ?_⟩
  · have hw := within_of_arrange ha t ht
    unfold Token.Within at hw
    omega
  · obtain ⟨c, -, rfl⟩ := exists_construct_of_arrange ha
    have hb := build_listing limits c
    by_cases hd : c.tree.fits limits.maxDepth
    · rw [if_pos hd] at hb
      simp only [Expression.compile, hb, bind, Except.bind]
      exact .inl ⟨_, rfl⟩
    · rw [if_neg hd] at hb
      simp only [Expression.compile, hb, bind, Except.bind]
      exact .inr rfl

theorem compile_of_tokenize_call : ∃ tokens, tokenize {} "f(1, [])" = .ok tokens ∧
    (∀ t ∈ tokens, -2 ^ 31 ≤ t.arity ∧ t.arity < 2 ^ 31) ∧
      ((∃ e, Expression.compile {} "" tokens = .ok e) ∨
        Expression.compile {} "" tokens = .error (.limit (.expressionTooDeep 256))) := by
  obtain ⟨tokens, h⟩ := exists_eq_ok (x := tokenize {} "f(1, [])") (by decide +kernel)
  exact ⟨tokens, h, compile_of_tokenize "" (by decide) h⟩

end TemplateBinding
