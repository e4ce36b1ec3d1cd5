import TemplateBinding.Proofs.Grammar.Phrase
import TemplateBinding.Source.Arrangement

set_option autoImplicit false

namespace TemplateBinding

namespace Operator

theorem yieldsTo_of_leftLevel_le {op next : Operator} (h : next.operands = 2)
    (hl : next.leftLevel ≤ op.level) : op.yieldsTo next = true := by
  have hall : ∀ op ∈ all, ∀ next ∈ all, next.operands = 2 → next.leftLevel ≤ op.level →
      op.yieldsTo next = true := by decide
  exact hall op (mem_all op) next (mem_all next) h hl

theorem yieldsTo_of_rightLevel_le {op next : Operator} (h : op ≠ .conditional)
    (h2 : next.operands = 2) (hl : op.rightLevel ≤ next.level) : op.yieldsTo next = false := by
  have hall : ∀ op ∈ all, ∀ next ∈ all, op ≠ .conditional → next.operands = 2 →
      op.rightLevel ≤ next.level → op.yieldsTo next = false := by decide
  exact hall op (mem_all op) next (mem_all next) h h2 hl

theorem ne_conditional {op : Operator} (h : op.operands = 1 ∨ op.operands = 2) :
    op ≠ .conditional := by
  rintro rfl
  revert h
  decide

theorem level_le_eight (op : Operator) : op.level ≤ 8 := by cases op <;> decide

theorem level_le_rightLevel (op : Operator) : op.level ≤ op.rightLevel := by
  cases op <;> decide

theorem level_pos {op : Operator} (h : op ≠ .conditional) : 0 < op.level := by
  cases op <;> first | decide | exact absurd rfl h

theorem level_le_leftLevel (op : Operator) : op.level ≤ op.leftLevel := by
  cases op <;> decide

end Operator

namespace Waiting

/-- What a phrase of the level may leave waiting. -/
def HoldsAt (level : Nat) : Waiting → Prop
  | .operator op => level ≤ op.level
  | .colon => level = 0
  | .question _ => False

theorem HoldsAt.mono {level level' : Nat} {w : Waiting} (h : w.HoldsAt level')
    (hl : level ≤ level') : w.HoldsAt level := by
  cases w with
  | operator op => exact Nat.le_trans hl h
  | colon =>
    have hz : level' = 0 := h
    exact Nat.le_zero.1 (hz ▸ hl)
  | question position => exact h

def token : Waiting → Token
  | .operator op => .operator op
  | .question _ | .colon => .operator .conditional

end Waiting

namespace Arrangement

variable {level : Nat} {wait rest : List Waiting} {output : List Token}

def emitted (wait : List Waiting) (output : List Token) : List Token :=
  (wait.map Waiting.token).reverse ++ output

@[simp] theorem emitted_nil (output : List Token) : emitted [] output = output := rfl

theorem emitted_cons (w : Waiting) (wait : List Waiting) (output : List Token) :
    emitted (w :: wait) output = emitted wait (w.token :: output) := by
  simp [emitted]

theorem emitted_concat (wait : List Waiting) (w : Waiting) (output : List Token) :
    emitted (wait ++ [w]) output = w.token :: emitted wait output := by
  simp [emitted]

theorem emitAll_eq (h : ∀ w ∈ wait, w.HoldsAt level) :
    emitAll wait output = .ok (emitted wait output) := by
  induction wait generalizing output with
  | nil => rfl
  | cons w wait ih =>
    obtain ⟨hw, hwait⟩ := List.forall_mem_cons.1 h
    rw [emitted_cons, ← ih hwait]
    cases w with
    | operator op => rfl
    | question position => exact hw.elim
    | colon => rfl

def Stops (p : Operator → Bool) (rest : List Waiting) : Prop :=
  ∀ op ws, rest = .operator op :: ws → p op = false

theorem emitWhile_append {p : Operator → Bool}
    (h : ∀ w ∈ wait, ∃ op, w = .operator op ∧ p op = true) (hr : Stops p rest) :
    emitWhile p (wait ++ rest) output = (rest, emitted wait output) := by
  induction wait generalizing output with
  | nil =>
    cases rest with
    | nil => rfl
    | cons w ws =>
      cases w with
      | operator op =>
        have hop := hr op ws rfl
        rw [List.nil_append, emitWhile, if_neg (by rw [hop]; exact Bool.false_ne_true)]
        rfl
      | question position => rfl
      | colon => rfl
  | cons w wait ih =>
    obtain ⟨⟨op, rfl, hop⟩, hwait⟩ := List.forall_mem_cons.1 h
    rw [emitted_cons, ← ih hwait, List.cons_append, emitWhile, if_pos hop]
    rfl

theorem emitToQuestion_append {position opened : Nat} (h : ∀ w ∈ wait, w.HoldsAt level) :
    emitToQuestion position (wait ++ .question opened :: rest) output =
      .ok (.colon :: rest, emitted wait output) := by
  induction wait generalizing output with
  | nil => rfl
  | cons w wait ih =>
    obtain ⟨hw, hwait⟩ := List.forall_mem_cons.1 h
    rw [emitted_cons, ← ih hwait]
    cases w with
    | operator op => rfl
    | question position => exact hw.elim
    | colon => rfl

/-- An operand of the level can stand behind what waits: no operator in it is taken for one of
which the operand is a part. -/
def Admits (level : Nat) (waiting : List Waiting) : Prop :=
  ∀ op ws, waiting = .operator op :: ws →
    0 < level ∧ ∀ next : Operator, next.operands = 2 → level ≤ next.level →
      op.yieldsTo next = false

theorem Admits.mono {level' : Nat} (h : Admits level rest) (hl : level ≤ level') :
    Admits level' rest := by
  intro op ws hr
  obtain ⟨hpos, hnext⟩ := h op ws hr
  exact ⟨Nat.lt_of_lt_of_le hpos hl, fun next h2 hle => hnext next h2 (Nat.le_trans hl hle)⟩

theorem admits_nil (level : Nat) : Admits level [] := fun _ _ h => by cases h

theorem admits_question (level position : Nat) (ws : List Waiting) :
    Admits level (.question position :: ws) := fun _ _ h => by cases h

theorem admits_colon (level : Nat) (ws : List Waiting) : Admits level (.colon :: ws) :=
  fun _ _ h => by cases h

theorem admits_operator {op : Operator} (h : op ≠ .conditional) (hl : op.rightLevel ≤ level)
    (ws : List Waiting) : Admits level (.operator op :: ws) := by
  intro op' ws' heq
  cases heq
  have hpos := Operator.level_pos h
  have hle := op.level_le_rightLevel
  exact ⟨by omega, fun next h2 hn => Operator.yieldsTo_of_rightLevel_le h h2 (Nat.le_trans hl hn)⟩

/-- An operator emits what waits inside its left operand, and stops there. -/
theorem emitWhile_left {op : Operator} (h2 : op.operands = 2) (hl : op.leftLevel ≤ level)
    (h : ∀ w ∈ wait, w.HoldsAt level) (ha : Admits op.level rest) :
    emitWhile (·.yieldsTo op) (wait ++ rest) output = (rest, emitted wait output) := by
  have hpos := Operator.level_pos (Operator.ne_conditional (.inr h2))
  have hle := op.level_le_leftLevel
  refine emitWhile_append (fun w hw => ?_) fun op' ws hr => (ha op' ws hr).2 op h2 (Nat.le_refl _)
  have hholds := h w hw
  cases w with
  | operator op' => exact ⟨op', rfl, Operator.yieldsTo_of_leftLevel_le h2 (Nat.le_trans hl hholds)⟩
  | question position => exact hholds.elim
  | colon =>
    have hz : level = 0 := hholds
    omega

theorem emitWhile_condition (hl : 1 ≤ level) (h : ∀ w ∈ wait, w.HoldsAt level)
    (ha : Admits 0 rest) :
    emitWhile (fun _ => true) (wait ++ rest) output = (rest, emitted wait output) := by
  refine emitWhile_append (fun w hw => ?_) fun op ws hr => absurd (ha op ws hr).1 (Nat.lt_irrefl 0)
  have hholds := h w hw
  cases w with
  | operator op => exact ⟨op, rfl, rfl⟩
  | question position => exact hholds.elim
  | colon =>
    have hz : level = 0 := hholds
    omega

/-- Nothing waits inside an operand that binds more tightly than all operators. -/
theorem eq_nil_of_holdsAt (hl : 9 ≤ level) (h : ∀ w ∈ wait, w.HoldsAt level) : wait = [] := by
  cases wait with
  | nil => rfl
  | cons w wait =>
    have hw := h w List.mem_cons_self
    cases w with
    | operator op =>
      have hle : level ≤ op.level := hw
      have := op.level_le_eight
      omega
    | question position => exact hw.elim
    | colon =>
      have hz : level = 0 := hw
      omega

end Arrangement

end TemplateBinding
