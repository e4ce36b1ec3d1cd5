import TemplateBinding.Proofs.Grammar.Framing
import TemplateBinding.Proofs.Source.Progress

/-!
What stands before a gap is read in the same way with more blanks in it, since no lexeme goes on
with a blank. Behind it all positions have moved, and these are told in faults only.
-/

set_option autoImplicit false

namespace TemplateBinding

namespace Waiting

def unplaced : Waiting → Waiting
  | .question _ => .question 0
  | w => w

@[simp] theorem unplaced_operator (op : Operator) : (operator op).unplaced = operator op := rfl

@[simp] theorem unplaced_question (p : Nat) : (question p).unplaced = question 0 := rfl

@[simp] theorem unplaced_comp_unplaced : unplaced ∘ unplaced = unplaced := by
  funext w
  cases w <;> rfl

end Waiting

namespace Scope

def unplaced (scope : Scope) : Scope :=
  { scope with position := 0, outer := scope.outer.map Waiting.unplaced }

@[simp] theorem unplaced_comp_unplaced : unplaced ∘ unplaced = unplaced := by
  funext scope
  simp [unplaced]

end Scope

namespace Arrangement

def unplaced (a : Arrangement) : Arrangement :=
  { a with
    waiting := a.waiting.map Waiting.unplaced
    scopes := a.scopes.map Scope.unplaced }

variable {limits : Limits} {a b : Arrangement}

@[simp] theorem place_unplaced (a : Arrangement) : a.unplaced.place = a.place := rfl

@[simp] theorem output_unplaced (a : Arrangement) : a.unplaced.output = a.output := rfl

@[simp] theorem waiting_unplaced (a : Arrangement) :
    a.unplaced.waiting = a.waiting.map Waiting.unplaced := rfl

@[simp] theorem scopes_unplaced (a : Arrangement) :
    a.unplaced.scopes = a.scopes.map Scope.unplaced := rfl

theorem expected_unplaced (a : Arrangement) : a.unplaced.expected = a.expected := by
  have hkey : a.unplaced.keyDue = a.keyDue := by
    cases hs : a.scopes <;> simp [keyDue, hs, Scope.unplaced]
  rw [expected, hkey]
  rfl

theorem emitAll_unplaced (wait : List Waiting) (output : List Token) :
    emitAll (wait.map Waiting.unplaced) output =
      (emitAll wait output).mapError fun _ => .missingColon 0 := by
  induction wait generalizing output with
  | nil => rfl
  | cons w wait ih =>
    cases w with
    | operator op => exact ih _
    | question position => rfl
    | colon => exact ih _

theorem emitWhile_unplaced (p : Operator → Bool) (wait : List Waiting) (output : List Token) :
    emitWhile p (wait.map Waiting.unplaced) output =
      ((emitWhile p wait output).1.map Waiting.unplaced, (emitWhile p wait output).2) := by
  induction wait generalizing output with
  | nil => rfl
  | cons w wait ih =>
    cases w with
    | operator op =>
      simp only [List.map_cons, Waiting.unplaced_operator, emitWhile]
      split
      · exact ih _
      · rfl
    | question position => rfl
    | colon => rfl

theorem emitToQuestion_unplaced (p q : Nat) (wait : List Waiting) (output : List Token) :
    emitToQuestion q (wait.map Waiting.unplaced) output =
      ((emitToQuestion p wait output).mapError fun _ => .danglingColon q).map
        fun (rest, emitted) => (rest.map Waiting.unplaced, emitted) := by
  induction wait generalizing output with
  | nil => rfl
  | cons w wait ih =>
    cases w with
    | operator op => exact ih _
    | question position => rfl
    | colon => exact ih _

/-- What comes of it regardless of positions, and nothing where it is refused. -/
def outcome (r : Except ParseFault Arrangement) : Option Arrangement := r.toOption.map unplaced

@[simp] theorem outcome_ok (a : Arrangement) : outcome (.ok a) = some a.unplaced := rfl

@[simp] theorem outcome_pure (a : Arrangement) : outcome (pure a) = some a.unplaced := rfl

theorem outcome_eq_some_iff {r : Except ParseFault Arrangement} :
    outcome r = some b.unplaced ↔ ∃ a, r = .ok a ∧ a.unplaced = b.unplaced := by
  cases r <;> simp [outcome, Except.toOption]

theorem outcome_ite {p : Prop} [Decidable p] {r r' s s' : Except ParseFault Arrangement}
    (h : p → outcome r' = outcome r) (h' : ¬p → outcome s' = outcome s) :
    outcome (if p then r' else s') = outcome (if p then r else s) := by
  by_cases hp : p
  · simpa only [if_pos hp] using h hp
  · simpa only [if_neg hp] using h' hp

theorem outcome_emitAll (wait : List Waiting) (output : List Token)
    {rest rest' : List Token → Except ParseFault Arrangement}
    (h : ∀ emitted, outcome (rest' emitted) = outcome (rest emitted)) :
    outcome ((emitAll (wait.map Waiting.unplaced) output).mapError .grammar >>= rest') =
      outcome ((emitAll wait output).mapError .grammar >>= rest) := by
  rw [emitAll_unplaced]
  cases emitAll wait output with
  | error fault => rfl
  | ok emitted => exact h emitted

theorem outcome_operand (token : Token) (p q : Nat) :
    outcome (a.unplaced.operand token q) = outcome (a.operand token p) := by
  refine outcome_ite (fun _ => rfl) fun _ => ?_
  simp [unplaced]

theorem outcome_openScope (kind : ScopeKind) (p q : Nat) :
    outcome (a.unplaced.openScope limits kind q) = outcome (a.openScope limits kind p) := by
  unfold openScope
  rw [scopes_unplaced, List.length_map]
  refine outcome_ite (fun _ => rfl) fun _ => ?_
  simp [unplaced, Scope.unplaced]

theorem outcome_opening (bracket : Bracket) (p q : Nat) :
    outcome (a.unplaced.opening limits bracket q) = outcome (a.opening limits bracket p) := by
  unfold opening
  rw [place_unplaced]
  cases bracket <;> cases a.place <;> first | rfl | exact outcome_openScope _ p q

theorem outcome_closing (bracket : Bracket) (p q : Nat) :
    outcome (a.unplaced.closing bracket q) = outcome (a.closing bracket p) := by
  refine outcome_ite (fun _ => rfl) fun _ => outcome_emitAll a.waiting a.output fun output => ?_
  rw [scopes_unplaced]
  cases a.scopes with
  | nil => rfl
  | cons scope scopes =>
    refine outcome_ite (fun _ => rfl) fun _ => outcome_ite (fun _ => rfl) fun _ => ?_
    simp only [outcome_pure, unplaced, Scope.unplaced, List.map_map, Waiting.unplaced_comp_unplaced,
      Scope.unplaced_comp_unplaced]
    rfl

theorem outcome_comma (p q : Nat) : outcome (a.unplaced.comma q) = outcome (a.comma p) := by
  refine outcome_ite (fun _ => rfl) fun _ => outcome_emitAll a.waiting a.output fun output => ?_
  rw [scopes_unplaced]
  cases a.scopes with
  | nil => rfl
  | cons scope scopes =>
    refine outcome_ite (fun _ => rfl) fun _ => ?_
    simp only [outcome_pure, unplaced, Scope.unplaced, List.map_cons, List.map_map,
      Waiting.unplaced_comp_unplaced, Scope.unplaced_comp_unplaced]
    rfl

theorem outcome_question (p q : Nat) :
    outcome (a.unplaced.question q) = outcome (a.question p) := by
  unfold question
  simp only [place_unplaced, output_unplaced, waiting_unplaced, emitWhile_unplaced]
  refine outcome_ite (fun _ => rfl) fun _ => ?_
  simp [unplaced]

theorem outcome_colon (p q : Nat) : outcome (a.unplaced.colon q) = outcome (a.colon p) := by
  unfold colon
  simp only [place_unplaced, output_unplaced, waiting_unplaced, emitToQuestion_unplaced p q]
  refine outcome_ite (fun _ => rfl) fun _ => ?_
  cases emitToQuestion p a.waiting a.output with
  | error fault => rfl
  | ok emitted =>
    change outcome (.ok _) = outcome (.ok _)
    simp [unplaced]

theorem outcome_symbol (cs : List Char) (p q : Nat) :
    outcome (a.unplaced.symbol cs q) = outcome (a.symbol cs p) := by
  unfold symbol
  simp only [place_unplaced, output_unplaced, waiting_unplaced, emitWhile_unplaced]
  refine outcome_ite (fun _ => ?binary) fun _ => ?unary
  case binary =>
    cases Operator.binary? cs with
    | none => rfl
    | some op => simp [unplaced]
  case unary =>
    cases Operator.unary? cs with
    | none => rfl
    | some op => simp [unplaced]

theorem unplaced_key (a : Arrangement) (name : String) :
    (a.unplaced.key name).unplaced = (a.key name).unplaced := by
  cases hs : a.scopes <;> simp [key, unplaced, hs, Scope.unplaced]

theorem outcome_accept (lexeme : Lexeme) (p q : Nat) :
    outcome (a.unplaced.accept limits lexeme q) = outcome (a.accept limits lexeme p) := by
  cases lexeme with
  | operand token => exact outcome_operand token p q
  | members names => simp [accept, members, unplaced]
  | key name => exact congrArg some (unplaced_key a name)
  | opening bracket => exact outcome_opening bracket p q
  | closing bracket => exact outcome_closing bracket p q
  | comma => exact outcome_comma p q
  | colon => exact outcome_colon p q
  | question => exact outcome_question p q
  | symbol cs => exact outcome_symbol cs p q

theorem toOption_finish (p q : Nat) :
    (a.unplaced.finish q).toOption = (a.finish p).toOption := by
  unfold finish
  simp only [place_unplaced, output_unplaced, waiting_unplaced, scopes_unplaced, emitAll_unplaced]
  by_cases hp : a.place = .operand
  · have hfault {c : Prop} [Decidable c] (fault fault' : ParseFault) :
        (if c then .error fault else .error fault' : Except ParseFault (List Token)).toOption =
          none := by
      split <;> rfl
    simp only [if_pos hp]
    exact (hfault _ _).trans (hfault _ _).symm
  · simp only [if_neg hp]
    cases a.scopes with
    | nil => cases emitAll a.waiting a.output <;> rfl
    | cons scope scopes => rfl

theorem expected_of_unplaced_eq (h : a.unplaced = b.unplaced) : a.expected = b.expected := by
  rw [← expected_unplaced a, h, expected_unplaced]

theorem accept_of_unplaced_eq {lexeme : Lexeme} {p : Nat} {a' : Arrangement} (q : Nat)
    (h : a.unplaced = b.unplaced) (ha : a.accept limits lexeme p = .ok a') :
    ∃ b', b.accept limits lexeme q = .ok b' ∧ a'.unplaced = b'.unplaced := by
  have hout : outcome (b.accept limits lexeme q) = some a'.unplaced := by
    rw [← outcome_accept lexeme q p, ← h, outcome_accept lexeme p p, ha, outcome_ok]
  obtain ⟨b', hb, hab⟩ := outcome_eq_some_iff.1 hout
  exact ⟨b', hb, hab.symm⟩

theorem finish_of_unplaced_eq {p : Nat} {tokens : List Token} (q : Nat)
    (h : a.unplaced = b.unplaced) (ha : a.finish p = .ok tokens) : b.finish q = .ok tokens := by
  have hout : (b.finish q).toOption = some tokens := by
    rw [← toOption_finish q p, ← h, toOption_finish p p, ha]
    rfl
  cases hb : b.finish q with
  | error fault => rw [hb] at hout; cases hout
  | ok tokens' => rw [hb] at hout; exact congrArg Except.ok (Option.some.inj hout)

end Arrangement

theorem delimits_of_apart {follow : List Char} (h : Apart follow) : Delimits follow := by
  intro c cs hc
  rw [isDelimiter, h c cs hc, Bool.true_or]

namespace Arrangement

variable {limits : Limits} {source : String} {a b : Arrangement} {c d : Cursor} {n k : Nat}
  {follow gap : List Char} {tokens : List Token}

/-- A run to the end of a text goes the same way from anywhere else and with blanks behind the
text. -/
theorem run_blank (hb : Blank gap) (shift : Nat) (hab : a.unplaced = b.unplaced)
    (h : a.run limits c = .ok tokens) : b.run limits (c.within shift gap) = .ok tokens := by
  fun_induction Arrangement.run limits a c generalizing b with
  | case1 => cases h
  | case2 a c hread =>
    obtain ⟨hkey, hend⟩ := Lexeme.read?_eq_none_iff.1 hread
    rw [expected_of_unplaced_eq hab] at hkey
    have hgap : (c.within shift gap).skipBlanks.rest = [] := by
      rw [Cursor.skipBlanks_within_of_rest_nil hend, Cursor.rest_skipBlanks]
      exact List.dropWhile_eq_nil_iff.2 hb
    rw [run_end (Lexeme.read?_eq_none_iff.2 ⟨hkey, hgap⟩)]
    exact finish_of_unplaced_eq _ hab h
  | case3 => cases h
  | case4 a c lexeme next hread a' haccept ih =>
    obtain ⟨s, hs, hl⟩ := Lexeme.leads_of_read? hread
    have hne : c.skipBlanks.rest ≠ [] := by
      rw [hl.1]
      exact List.append_ne_nil_of_left_ne_nil hs _
    have hread' : Lexeme.read? b.expected (c.within shift gap).skipBlanks =
        .ok (some (lexeme, next.within shift gap)) := by
      rw [Cursor.skipBlanks_within hne, ← expected_of_unplaced_eq hab]
      exact Lexeme.read?_within (delimits_of_apart (apart_of_blank hb)) hread
    obtain ⟨b', hb', hab'⟩ :=
      accept_of_unplaced_eq (c.within shift gap).skipBlanks.offset hab haccept
    rw [run_read hread' hb']
    exact ih hab' h

theorem Iterates.regrown (hf : Delimits follow) (h : Iterates limits a c b d)
    (hn : n ≤ d.rest.length) :
    Iterates limits a (c.regrown n 0 follow) b (d.regrown n 0 follow) := by
  obtain ⟨lexeme, hread, haccept⟩ := h
  obtain ⟨s, hs, hl⟩ := Lexeme.leads_of_read? hread
  have hskip : (c.regrown n 0 follow).skipBlanks = c.skipBlanks.regrown n 0 follow :=
    Cursor.skipBlanks_regrown (Nat.lt_of_le_of_lt hn (hl.length_lt hs))
  refine ⟨lexeme, ?_, ?_⟩
  · rw [hskip]
    exact Lexeme.read?_regrown hf hread hn
  · rw [hskip]
    exact haccept

theorem Reached.regrown (hf : Delimits follow) (h : Reached limits source k a c)
    (hn : n ≤ c.rest.length) :
    Reached limits (String.ofList (regrow n follow source.toList)) k a (c.regrown n 0 follow) := by
  induction h with
  | start =>
    have hstart : (Cursor.start source).regrown n 0 follow =
        Cursor.start (String.ofList (regrow n follow source.toList)) := by
      simp [Cursor.start, Cursor.regrown]
    rw [hstart]
    exact .start
  | step _ hi ih =>
    obtain ⟨s, -, hl⟩ := hi.leads
    exact (ih (Nat.le_trans hn hl.length_le)).step (hi.regrown hf hn)

end Arrangement

/-- There, in bytes, an iteration of the loop over the source begins, or the source ends. -/
def Seam (limits : Limits) (source : String) (position : Nat) : Prop :=
  (∃ n a c, Arrangement.Reached limits source n a c ∧ c.offset = position) ∨
    position = source.utf8ByteSize

variable {limits : Limits} {source : String} {tokens : List Token}

theorem arrange_gap {n : Nat} {a : Arrangement} {c : Cursor} {read gap : List Char}
    (h : Arrangement.Reached limits source n a c) (hr : (Cursor.start source).Leads read c)
    (hb : Blank gap) (ht : arrange limits source = .ok tokens) :
    arrange limits (String.ofList (read ++ (gap ++ c.rest))) = .ok tokens := by
  have hsource : source.toList = read ++ c.rest := hr.1
  by_cases hne : gap = []
  · rwa [hne, List.nil_append, ← hsource, String.ofList_toList]
  · have htext : regrow c.rest.length (gap ++ c.rest) source.toList = read ++ (gap ++ c.rest) := by
      rw [hsource, regrow_append read (Nat.le_refl _), regrow_of_length_le (Nat.le_refl _)]
    have hblank : Blank [] := List.forall_mem_nil _
    have hskip : (c.regrown c.rest.length 0 (gap ++ c.rest)).skipBlanks =
        (c.within (byteLength gap) []).skipBlanks := by
      rw [Cursor.regrown, regrow_of_length_le (Nat.le_refl _), Cursor.skipBlanks_append hb,
        Cursor.within, List.append_nil, Nat.add_zero]
    have hf : Delimits (gap ++ c.rest) := delimits_of_apart (apart_append hb hne)
    have hreached := h.regrown hf (Nat.le_refl _)
    rw [htext] at hreached
    rw [hreached.run_eq, Arrangement.run_congr hskip]
    exact Arrangement.run_blank hblank _ rfl (h.run_eq.symm.trans ht)

theorem Seam.arrange_eq {position : Nat} (h : Seam limits source position)
    (ht : arrange limits source = .ok tokens) :
    ∃ before after, source.toList = before ++ after ∧ byteLength before = position ∧
      ∀ gap, Blank gap →
        arrange limits (String.ofList (before ++ (gap ++ after))) = .ok tokens := by
  obtain ⟨n, a, c, hreached, rfl⟩ | rfl := h
  · obtain ⟨read, hr⟩ := hreached.liesIn
    have hoffset : c.offset = byteLength read := by rw [hr.2, Cursor.start, Nat.zero_add]
    exact ⟨read, c.rest, hr.1, hoffset.symm, fun gap hb => arrange_gap hreached hr hb ht⟩
  · refine ⟨source.toList, [], (List.append_nil _).symm, byteLength_toList source, fun gap hb => ?_⟩
    have hstart : (Cursor.start source).within 0 gap =
        Cursor.start (String.ofList (source.toList ++ gap)) := by
      simp [Cursor.within, Cursor.start]
    rw [List.append_nil, arrange, ← hstart]
    exact Arrangement.run_blank hb 0 rfl ht

theorem Expression.compile_eq (limits : Limits) (source source' : String) (tokens : List Token) :
    compile limits source' tokens =
      (compile limits source tokens).map fun e => { e with source := source' } := by
  unfold compile
  cases build limits tokens <;> rfl

/-- Blanks where a lexeme can begin, and at the end, leave the tokens as they are, and the
expression but for its source. -/
theorem tokenize_gap {position : Nat} (ht : tokenize limits source = .ok tokens)
    (hp : Seam limits source position) :
    ∃ before after, source = before ++ after ∧ before.utf8ByteSize = position ∧
      ∀ gap : String, Blank gap.toList → source.length + gap.length ≤ limits.maxLength →
        tokenize limits (before ++ gap ++ after) = .ok tokens ∧
        Expression.parse limits (before ++ gap ++ after) =
          (Expression.parse limits source).map
            fun e => { e with source := before ++ gap ++ after } := by
  obtain ⟨before, after, hs, hposition, hgap⟩ := hp.arrange_eq (arrange_of_tokenize ht)
  obtain rfl : source = String.ofList before ++ String.ofList after := by
    rw [← String.ofList_append, ← hs, String.ofList_toList]
  refine ⟨_, _, rfl, ?_, fun gap hb hl => ?_⟩
  · rw [← byteLength_toList, String.toList_ofList, hposition]
  · have htext : String.ofList before ++ gap ++ String.ofList after =
        String.ofList (before ++ (gap.toList ++ after)) := by
      simp [String.ofList_append, String.append_assoc]
    have htokens : tokenize limits (String.ofList before ++ gap ++ String.ofList after) =
        .ok tokens := by
      rw [tokenize, if_neg ?_, htext]
      · exact hgap gap.toList hb
      · simp only [String.length_append] at hl ⊢
        omega
    refine ⟨htokens, ?_⟩
    unfold Expression.parse
    rw [htokens, ht]
    exact Expression.compile_eq limits _ _ tokens

/-- A sign and a number that starts with a point may stand on different lines. -/
theorem tokenize_gap_sign : ∃ tokens before after,
    tokenize {} "-.5" = .ok tokens ∧ "-.5" = before ++ after ∧ before.utf8ByteSize = 1 ∧
      tokenize {} (before ++ "\r\n\u2003" ++ after) = .ok tokens := by
  obtain ⟨tokens, ht⟩ := exists_eq_ok (x := tokenize {} "-.5") (by decide +kernel)
  have hseam : Seam {} "-.5" 1 :=
    .inl ⟨1, _, ⟨['.', '5'], 1⟩, .step .start ⟨.symbol ['-'], rfl, rfl⟩, rfl⟩
  have hblank : Blank "\r\n\u2003".toList := List.all_eq_true.1 (by decide)
  obtain ⟨before, after, hsource, hsize, hgap⟩ := tokenize_gap ht hseam
  exact ⟨tokens, before, after, ht, hsource, hsize, (hgap _ hblank (by decide)).1⟩

end TemplateBinding
