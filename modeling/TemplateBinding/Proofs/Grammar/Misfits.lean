import TemplateBinding.Proofs.Grammar.Composition
import TemplateBinding.Proofs.Source.Position

set_option autoImplicit false

namespace TemplateBinding

/-- Sources around something that lacks its partner. -/
inductive Misfit where
  | unclosed (opener : Bracket) (plain : opener ≠ .curly) (inner : Snippet)
  | unopened (inner : Snippet) (closer : Bracket)
  | mismatched (opener : Bracket) (plain : opener ≠ .curly) (inner : Snippet) (closer : Bracket)
      (differ : closer ≠ opener)
  /-- A question mark that no colon follows. -/
  | undecided (condition yes : Snippet)
  /-- A colon that no question mark precedes. What stands behind it is never looked at. -/
  | unasked (left : Snippet) (right : String)
  /-- A comma outside of brackets. What stands behind it is never looked at. -/
  | unlisted (left : Snippet) (right : String)

namespace Misfit

def text : Misfit → String
  | unclosed opener _ inner => String.singleton opener.opener ++ inner.source
  | unopened inner closer => inner.source ++ String.singleton closer.closer
  | mismatched opener _ inner closer _ =>
    String.singleton opener.opener ++ inner.source ++ String.singleton closer.closer
  | undecided condition yes => condition.source ++ " ? " ++ yes.source
  | unasked left right => left.source ++ " : " ++ right
  | unlisted left right => left.source ++ " , " ++ right

def fault : Misfit → ParseFault
  | unclosed opener _ _ => .lexical (.unclosedBracket opener 0)
  | unopened inner closer => .lexical (.unexpectedCloser closer inner.source.utf8ByteSize)
  | mismatched opener _ inner closer _ =>
    .lexical (.mismatchedBracket opener closer (1 + inner.source.utf8ByteSize))
  | undecided condition _ => .grammar (.missingColon (condition.source.utf8ByteSize + 1))
  | unasked left _ => .grammar (.danglingColon (left.source.utf8ByteSize + 1))
  | unlisted left _ => .grammar (.unexpectedComma (left.source.utf8ByteSize + 1))

def nesting : Misfit → Nat
  | unclosed _ _ inner | mismatched _ _ inner _ _ => inner.limits.maxDepth + 1
  | unopened inner _ => inner.limits.maxDepth
  | undecided condition yes => max condition.limits.maxDepth yes.limits.maxDepth
  | unasked left _ | unlisted left _ => left.limits.maxDepth

def chars : Misfit → List Char
  | unclosed opener _ inner => opener.opener :: (inner.chars ++ [])
  | unopened inner closer => inner.chars ++ closer.closer :: []
  | mismatched opener _ inner closer _ => opener.opener :: (inner.chars ++ closer.closer :: [])
  | undecided condition yes => condition.chars ++ ' ' :: '?' :: ' ' :: (yes.chars ++ [])
  | unasked left right => left.chars ++ ' ' :: ':' :: ' ' :: right.toList
  | unlisted left right => left.chars ++ ' ' :: ',' :: ' ' :: right.toList

theorem toList_text (m : Misfit) : m.text.toList = m.chars := by
  cases m <;> simp [text, chars, Snippet.chars]

end Misfit

namespace Arrangement

variable {limits : Limits} {a b : Arrangement} {depth position : Nat} {ch : Char}
  {text : List Char} {lexeme : Lexeme} {fault : ParseFault} {wait rest : List Waiting}
  {output : List Token}

/-- Running over the rest of the text, which starts there, ends in the fault, unless brackets are
nested too deep. -/
def Refuses (limits : Limits) (depth : Nat) (a : Arrangement) (text : List Char) (position : Nat)
    (fault : ParseFault) : Prop :=
  a.run limits ⟨text, position⟩ = .error fault ∨
    TooDeep limits depth (a.run limits ⟨text, position⟩)

theorem refuses_blank (h : Refuses limits depth a text (position + 1) fault) :
    Refuses limits depth a (' ' :: text) position fault := by
  have hblank : Blank [' '] := by simp [Blank, Text.isBlank]
  have hskip : Cursor.skipBlanks ⟨' ' :: text, position⟩ =
      Cursor.skipBlanks ⟨text, position + 1⟩ := Cursor.skipBlanks_append hblank text position
  unfold Refuses
  rw [run_congr hskip]
  exact h

theorem refuses_behind (hp : Lexeme.punctuation? ch = some lexeme) (he : a.expected ≠ .key)
    (ha : a.accept limits lexeme position = .ok b)
    (h : Refuses limits depth b text (position + ch.utf8Size) fault) :
    Refuses limits depth a (ch :: text) position fault := by
  have hvisible := skipBlanks_of_visible (c := ⟨ch :: text, position⟩) rfl
    (Lexeme.isMark_of_punctuation? hp).2
  have hrun := run_read (read?_punctuation hp he rfl) (by rw [hvisible]; exact ha)
  unfold Refuses
  rw [hrun]
  exact h

theorem refuses_punctuation (hp : Lexeme.punctuation? ch = some lexeme) (he : a.expected ≠ .key)
    (ha : a.accept limits lexeme position = .error fault) :
    Refuses limits depth a (ch :: text) position fault := by
  have hvisible := skipBlanks_of_visible (c := ⟨ch :: text, position⟩) rfl
    (Lexeme.isMark_of_punctuation? hp).2
  exact .inl (run_error (read?_punctuation hp he rfl) (by rw [hvisible]; exact ha))

theorem refuses_end (he : a.expected ≠ .key) (h : a.finish position = .error fault) :
    Refuses limits depth a [] position fault :=
  .inl ((run_end (Lexeme.read?_end he rfl)).trans h)

theorem refuses_source (s : Snippet) (h : a.Awaits) (hf : Delimits text)
    (hd : a.scopes.length + s.limits.maxDepth ≤ depth)
    (hk : ∀ wait output, (∀ w ∈ wait, w.HoldsAt 0) →
      Refuses limits depth (a.behind wait output) text (position + s.source.utf8ByteSize) fault) :
    Refuses limits depth a (s.chars ++ text) position fault := by
  obtain ⟨wait, output, hw, -, hrun⟩ | hdeep := run_source (c := ⟨s.chars ++ text, position⟩)
    limits s.tokenized h hf rfl
  · rw [byteLength_toList] at hrun
    unfold Refuses
    rw [hrun]
    exact hk wait output hw
  · exact .inr (hdeep.mono hd)

theorem refuses_question (hp : a.place = .operator) (hk : a.keyDue = false) (hf : Apart text)
    (h : ∀ offset, Refuses limits depth
      ⟨(emitWhile (fun _ => true) a.waiting a.output).2,
        .question position :: (emitWhile (fun _ => true) a.waiting a.output).1, a.scopes, .operand⟩
      text offset fault) :
    Refuses limits depth a ('?' :: text) position fault := by
  have hvisible : Cursor.skipBlanks ⟨'?' :: text, position⟩ = ⟨'?' :: text, position⟩ :=
    skipBlanks_of_visible rfl (by decide)
  have haccept : a.accept limits .question position = .ok
      ⟨(emitWhile (fun _ => true) a.waiting a.output).2,
        .question position :: (emitWhile (fun _ => true) a.waiting a.output).1, a.scopes,
        .operand⟩ := by
    simp only [accept, question, hp, ne_eq, not_true_eq_false, if_false]
  obtain ⟨⟨_, offset⟩, hread, rfl⟩ :=
    Lexeme.reads_question.reads ⟨'?' :: text, position⟩ text rfl hf
  rw [← expected_operator hp hk] at hread
  have hrun := run_read (by rw [hvisible]; exact hread) (by rw [hvisible]; exact haccept)
  unfold Refuses
  rw [hrun]
  exact h offset

theorem emitAll_question (asked : Nat) (rest : List Waiting) (output : List Token)
    (hw : ∀ w ∈ wait, w.HoldsAt 0) :
    emitAll (wait ++ .question asked :: rest) output = .error (.missingColon asked) := by
  induction wait generalizing output with
  | nil => rfl
  | cons w wait ih =>
    obtain ⟨hw, hwait⟩ := List.forall_mem_cons.1 hw
    cases w with
    | operator op => exact ih _ hwait
    | question position => exact hw.elim
    | colon => exact ih _ hwait

theorem emitToQuestion_eq_error (position : Nat) (output : List Token)
    (hw : ∀ w ∈ wait, w.HoldsAt 0) :
    emitToQuestion position wait output = .error (.danglingColon position) := by
  induction wait generalizing output with
  | nil => rfl
  | cons w wait ih =>
    obtain ⟨hw, hwait⟩ := List.forall_mem_cons.1 hw
    cases w with
    | operator op => exact ih _ hwait
    | question position => exact hw.elim
    | colon => exact ih _ hwait

theorem accept_closing_unopened (bracket : Bracket) (hw : ∀ w ∈ wait, w.HoldsAt 0) :
    accept ⟨output, wait, [], .operator⟩ limits (.closing bracket) position =
      .error (.lexical (.unexpectedCloser bracket position)) := by
  simp only [accept, closing, emitAll_eq hw, bind, Except.bind, mapError_ok, reduceCtorEq, if_false]
  rfl

theorem accept_closing_mismatched {scope : Scope} {scopes : List Scope} {bracket : Bracket}
    (hb : scope.kind.bracket ≠ bracket) (hw : ∀ w ∈ wait, w.HoldsAt 0) :
    accept ⟨output, wait, scope :: scopes, .operator⟩ limits (.closing bracket) position =
      .error (.lexical (.mismatchedBracket scope.kind.bracket bracket position)) := by
  simp only [accept, closing, emitAll_eq hw, bind, Except.bind, mapError_ok, reduceCtorEq, if_false,
    ne_eq, hb, not_false_eq_true, if_true]
  rfl

theorem accept_comma_unlisted (hw : ∀ w ∈ wait, w.HoldsAt 0) :
    accept ⟨output, wait, [], .operator⟩ limits .comma position =
      .error (.grammar (.unexpectedComma position)) := by
  simp only [accept, comma, emitAll_eq hw, bind, Except.bind, mapError_ok, ne_eq,
    not_true_eq_false, if_false]
  rfl

theorem accept_colon_unasked {scopes : List Scope} (hw : ∀ w ∈ wait, w.HoldsAt 0) :
    accept ⟨output, wait, scopes, .operator⟩ limits .colon position =
      .error (.grammar (.danglingColon position)) := by
  simp only [accept, colon, emitToQuestion_eq_error position output hw, ne_eq, not_true_eq_false,
    if_false]
  rfl

theorem finish_unclosed {scope : Scope} {scopes : List Scope} :
    finish ⟨output, wait, scope :: scopes, .operator⟩ position =
      .error (.lexical (.unclosedBracket scope.kind.bracket scope.position)) := rfl

theorem finish_undecided {asked : Nat} (hw : ∀ w ∈ wait, w.HoldsAt 0) :
    finish ⟨output, wait ++ .question asked :: rest, [], .operator⟩ position =
      .error (.grammar (.missingColon asked)) := by
  simp only [finish, emitAll_question asked rest output hw, reduceCtorEq, if_false]
  rfl

def afterOpened (opener : Bracket) (wait : List Waiting) (output : List Token) : Arrangement :=
  ⟨output, wait, [⟨operandKind opener, 0, 0, false, []⟩], .operator⟩

theorem expected_afterOpened (opener : Bracket) (wait : List Waiting) (output : List Token) :
    (afterOpened opener wait output).expected ≠ .key := by
  rw [afterOpened, expected_operator rfl (keyDue_scope rfl)]
  exact nofun

theorem operandKind_ne_object {opener : Bracket} (h : opener ≠ .curly) :
    operandKind opener ≠ .object := by
  cases opener with
  | curly => exact absurd rfl h
  | _ => decide

theorem bracket_operandKind (bracket : Bracket) : (operandKind bracket).bracket = bracket := by
  cases bracket <;> rfl

theorem refuses_opened {opener : Bracket} (ho : opener ≠ .curly) (s : Snippet) (hf : Delimits text)
    (hk : ∀ wait output, (∀ w ∈ wait, w.HoldsAt 0) →
      Refuses limits (s.limits.maxDepth + 1) (afterOpened opener wait output) text
        (1 + s.source.utf8ByteSize) fault) :
    Refuses limits (s.limits.maxDepth + 1) {} (opener.opener :: (s.chars ++ text)) 0 fault := by
  have hpunctuation := Lexeme.punctuation?_opener opener
  have hexpected : expected {} ≠ .key := nofun
  have hvisible := skipBlanks_of_visible (c := ⟨opener.opener :: (s.chars ++ text), 0⟩) rfl
    (Lexeme.isMark_of_punctuation? hpunctuation).2
  have hplace : Place.opened ≠ .operator := nofun
  have hkey : decide (operandKind opener = .object) = false :=
    decide_eq_false (operandKind_ne_object ho)
  have haccept : accept {} limits (.opening opener) 0 =
      openScope {} limits (operandKind opener) 0 := accept_opening opener nofun
  by_cases hlt : 0 < limits.maxDepth
  · refine refuses_behind hpunctuation hexpected (haccept.trans (openScope_eq hlt)) ?_
    have hsize : opener.opener.utf8Size = 1 := by cases opener <;> rfl
    rw [Nat.zero_add, hsize]
    refine refuses_source s (awaits_scope hplace hkey) hf ?_ fun wait output hw => ?_
    · exact Nat.le_of_eq (Nat.add_comm _ _)
    · have hbehind : (inside {} (operandKind opener) 0).behind wait output =
          afterOpened opener wait output := by
        simp [behind, inside, afterOpened, hkey]
      rw [hbehind]
      exact hk wait output hw
  · refine .inr ⟨by omega, .nestingTooDeep limits.maxDepth 0, ?_⟩
    refine run_error (read?_punctuation hpunctuation hexpected rfl) ?_
    have hfull : limits.maxDepth ≤ ({} : Arrangement).scopes.length := Nat.le_of_not_lt hlt
    rw [hvisible, haccept, openScope, if_pos hfull]

end Arrangement

open Arrangement

namespace Misfit

variable {limits : Limits}

theorem behind_start (wait : List Waiting) (output : List Token) :
    behind {} wait output = ⟨output, wait, [], .operator⟩ := by
  simp [behind]

theorem expected_of_scopes_nil {a : Arrangement} (h : a.scopes = []) : a.expected ≠ .key := by
  have hkey : a.keyDue = false := by rw [keyDue, h]
  rw [expected, hkey, if_neg Bool.false_ne_true]
  split <;> decide

theorem awaits_asked (asked : Nat) (wait : List Waiting) (output : List Token) :
    Awaits ⟨output, .question asked :: wait, [], .operand⟩ :=
  ⟨nofun, rfl, admits_question 0 asked wait⟩

theorem refuses_unclosed {opener : Bracket} (plain : opener ≠ .curly) (inner : Snippet) :
    Refuses limits (unclosed opener plain inner).nesting {}
      (unclosed opener plain inner).text.toList 0 (unclosed opener plain inner).fault := by
  rw [toList_text]
  refine refuses_opened plain inner delimits_nil fun wait output hw =>
    refuses_end (expected_afterOpened _ _ _) ?_
  rw [afterOpened, finish_unclosed, bracket_operandKind]
  rfl

theorem refuses_unopened (inner : Snippet) (closer : Bracket) :
    Refuses limits (unopened inner closer).nesting {} (unopened inner closer).text.toList 0
      (unopened inner closer).fault := by
  rw [toList_text]
  refine refuses_source inner Composite.awaits_start (delimits_closer _ _)
    (Nat.le_of_eq (Nat.zero_add _)) fun wait output hw => ?_
  rw [behind_start]
  refine refuses_punctuation (Lexeme.punctuation?_closer closer) (expected_of_scopes_nil rfl) ?_
  rw [accept_closing_unopened closer hw, Nat.zero_add]
  rfl

theorem refuses_mismatched {opener closer : Bracket} (plain : opener ≠ .curly) (inner : Snippet)
    (differ : closer ≠ opener) :
    Refuses limits (mismatched opener plain inner closer differ).nesting {}
      (mismatched opener plain inner closer differ).text.toList 0
      (mismatched opener plain inner closer differ).fault := by
  rw [toList_text]
  refine refuses_opened plain inner (delimits_closer _ _) fun wait output hw => ?_
  refine refuses_punctuation (Lexeme.punctuation?_closer closer) (expected_afterOpened _ _ _) ?_
  have hbracket : (operandKind opener).bracket ≠ closer := by
    rw [bracket_operandKind]
    exact differ.symm
  rw [afterOpened, accept_closing_mismatched hbracket hw, bracket_operandKind]
  rfl

theorem refuses_undecided (condition yes : Snippet) :
    Refuses limits (undecided condition yes).nesting {} (undecided condition yes).text.toList 0
      (undecided condition yes).fault := by
  rw [toList_text]
  have hcondition : 0 + condition.limits.maxDepth ≤ (undecided condition yes).nesting := by
    rw [Nat.zero_add]
    exact Nat.le_max_left _ _
  have hyes : 0 + yes.limits.maxDepth ≤ (undecided condition yes).nesting := by
    rw [Nat.zero_add]
    exact Nat.le_max_right _ _
  refine refuses_source condition Composite.awaits_start (delimits_cons (by decide)) hcondition
    fun wait output hw => refuses_blank ?_
  rw [behind_start]
  have hblank : Blank [' '] := by simp [Blank, Text.isBlank]
  refine refuses_question rfl rfl (apart_append hblank (List.cons_ne_nil ' ' []))
    fun offset => refuses_blank ?_
  refine refuses_source yes (awaits_asked _ _ _) delimits_nil hyes
    fun wait' output' hw' => refuses_end (expected_of_scopes_nil rfl) ?_
  -- behind the second source the question mark still waits
  refine (finish_undecided hw').trans ?_
  rw [Nat.zero_add]
  rfl

theorem refuses_unasked (left : Snippet) (right : String) :
    Refuses limits (unasked left right).nesting {} (unasked left right).text.toList 0
      (unasked left right).fault := by
  rw [toList_text]
  refine refuses_source left Composite.awaits_start (delimits_cons (by decide))
    (Nat.le_of_eq (Nat.zero_add _)) fun wait output hw => refuses_blank ?_
  rw [behind_start]
  refine refuses_punctuation rfl (expected_of_scopes_nil rfl) ?_
  rw [accept_colon_unasked hw, Nat.zero_add]
  rfl

theorem refuses_unlisted (left : Snippet) (right : String) :
    Refuses limits (unlisted left right).nesting {} (unlisted left right).text.toList 0
      (unlisted left right).fault := by
  rw [toList_text]
  refine refuses_source left Composite.awaits_start (delimits_cons (by decide))
    (Nat.le_of_eq (Nat.zero_add _)) fun wait output hw => refuses_blank ?_
  rw [behind_start]
  refine refuses_punctuation rfl (expected_of_scopes_nil rfl) ?_
  rw [accept_comma_unlisted hw, Nat.zero_add]
  rfl

theorem refuses (m : Misfit) : Refuses limits m.nesting {} m.text.toList 0 m.fault := by
  cases m with
  | unclosed opener plain inner => exact refuses_unclosed plain inner
  | unopened inner closer => exact refuses_unopened inner closer
  | mismatched opener plain inner closer differ => exact refuses_mismatched plain inner differ
  | undecided condition yes => exact refuses_undecided condition yes
  | unasked left right => exact refuses_unasked left right
  | unlisted left right => exact refuses_unlisted left right

end Misfit

/-- What lacks its partner is refused at its own position, and nothing else is; but that a limit
may be exceeded first. None is that has room for the text and for the nesting of its sources. -/
theorem tokenize_misfit (limits : Limits) (m : Misfit) :
    (tokenize limits m.text = .error m.fault ∨
      ∃ fault, tokenize limits m.text = .error (.limit fault)) ∧
    (m.text.length ≤ limits.maxLength → m.nesting ≤ limits.maxDepth →
      tokenize limits m.text = .error m.fault) :=
  tokenize_of_arrange m.refuses

/-- Behind a whole conditional of eleven bytes, a second question mark is left without a colon. -/
theorem tokenize_misfit_undecided : ∃ first second,
    tokenize {} "é ? b : c" = .ok first ∧ tokenize { maxDepth := 1 } "[d]" = .ok second ∧
    "é ? b : c ? [d]".length ≤ ({} : Limits).maxLength ∧
    tokenize {} "é ? b : c ? [d]" = .error (.grammar (.missingColon 11)) := by
  obtain ⟨first, hfirst⟩ := exists_eq_ok (x := tokenize {} "é ? b : c") (by decide +kernel)
  obtain ⟨second, hsecond⟩ :=
    exists_eq_ok (x := tokenize { maxDepth := 1 } "[d]") (by decide +kernel)
  have hlength : "é ? b : c ? [d]".length ≤ ({} : Limits).maxLength := by decide
  let m : Misfit := .undecided ⟨_, _, first, hfirst⟩ ⟨_, _, second, hsecond⟩
  have hnesting : m.nesting ≤ 256 := Nat.le_refl 256
  exact ⟨first, second, hfirst, hsecond, hlength, (tokenize_misfit {} m).2 hlength hnesting⟩

end TemplateBinding
