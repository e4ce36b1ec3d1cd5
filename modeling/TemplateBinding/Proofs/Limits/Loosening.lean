import TemplateBinding.Proofs.Grammar.Steps
import TemplateBinding.Proofs.Postfix.Refusal

set_option autoImplicit false

namespace TemplateBinding

/-- The first outcome is the second one, unless it has been refused for a limit. -/
def Curbed {α : Type} (x y : Except ParseFault α) : Prop :=
  x = y ∨ ∃ fault, x = .error (.limit fault)

namespace Curbed

variable {α β : Type} {x y : Except ParseFault α}

theorem refl (x : Except ParseFault α) : Curbed x x := .inl rfl

theorem refused (fault : LimitFault) (y : Except ParseFault α) :
    Curbed (.error (.limit fault)) y := .inr ⟨fault, rfl⟩

theorem eq_of_ok {a : α} (h : Curbed x y) (hx : x = .ok a) : y = .ok a := by
  obtain rfl | ⟨fault, rfl⟩ := h
  · exact hx
  · cases hx

theorem bind {f g : α → Except ParseFault β} (h : Curbed x y) (k : ∀ a, Curbed (f a) (g a)) :
    Curbed (x >>= f) (y >>= g) := by
  obtain rfl | ⟨fault, rfl⟩ := h
  · cases x with
    | ok a => exact k a
    | error fault => exact refl _
  · exact refused fault _

theorem ite {p p' : Prop} [Decidable p] [Decidable p'] {fault fault' : LimitFault}
    (hp : p' → p) (h : ¬p → ¬p' → Curbed x y) :
    Curbed (if p then .error (.limit fault) else x) (if p' then .error (.limit fault') else y) := by
  by_cases hlimit : p
  · rw [if_pos hlimit]
    exact refused fault _
  · have hlimit' : ¬p' := fun h => hlimit (hp h)
    rw [if_neg hlimit, if_neg hlimit']
    exact h hlimit hlimit'

end Curbed

variable {limits looser : Limits}

namespace Arrangement

variable {a : Arrangement} {position : Nat}

theorem curbed_openScope (h : limits.maxDepth ≤ looser.maxDepth) (kind : ScopeKind) :
    Curbed (a.openScope limits kind position) (a.openScope looser kind position) :=
  .ite (Nat.le_trans h) fun _ _ => .refl _

theorem curbed_accept (h : limits.maxDepth ≤ looser.maxDepth) (lexeme : Lexeme) :
    Curbed (a.accept limits lexeme position) (a.accept looser lexeme position) := by
  cases lexeme with
  | opening bracket =>
    simp only [accept]
    obtain herror | ⟨kind, -, hopen⟩ := opening_cases a bracket position
    · rw [herror, herror]
      exact .refl _
    · rw [hopen, hopen]
      exact curbed_openScope h kind
  | _ => exact .refl _

theorem curbed_run (h : limits.maxDepth ≤ looser.maxDepth) (a : Arrangement) (c : Cursor) :
    Curbed (a.run limits c) (a.run looser c) := by
  fun_induction Arrangement.run limits a c with
  | case1 a c fault hread =>
    rw [run_unread hread]
    exact .refl _
  | case2 a c hread =>
    rw [run_end hread]
    exact .refl _
  | case3 a c lexeme next hread fault haccept =>
    have hcurbed : Curbed (a.accept limits lexeme c.skipBlanks.offset)
        (a.accept looser lexeme c.skipBlanks.offset) := curbed_accept h lexeme
    obtain heq | ⟨fault', hlimit⟩ := hcurbed
    · rw [haccept] at heq
      rw [run_error hread heq.symm]
      exact .refl _
    · rw [haccept] at hlimit
      cases hlimit
      exact .refused fault' _
  | case4 a c lexeme next hread b haccept ih =>
    rw [run_read hread ((curbed_accept h lexeme).eq_of_ok haccept)]
    exact ih

end Arrangement

theorem curbed_tokenize (hlength : limits.maxLength ≤ looser.maxLength)
    (hdepth : limits.maxDepth ≤ looser.maxDepth) (source : String) :
    Curbed (tokenize limits source) (tokenize looser source) :=
  .ite (Nat.lt_of_le_of_lt hlength) fun _ _ => Arrangement.curbed_run hdepth _ _

namespace Builder

theorem Limited.curbed {step : Nat → Except ParseFault Builder} (h : Limited step) {m n : Nat}
    (hle : m ≤ n) : Curbed (step m) (step n) := by
  cases h with
  | ok b => exact .refl _
  | fault f => exact .refl _
  | push b t depth reads => exact .ite (Nat.lt_of_le_of_lt hle) fun _ _ => .refl _

theorem curbed_run {m n : Nat} (h : m ≤ n) (b : Builder) (k : Nat) (tokens : List Token) :
    Curbed (b.run m k tokens) (b.run n k tokens) := by
  induction tokens generalizing b k with
  | nil => exact .refl _
  | cons token tokens ih => exact ((limited_step b k token).curbed h).bind fun c => ih c (k + 1)

end Builder

namespace Expression

theorem curbed_compile (h : limits.maxDepth ≤ looser.maxDepth) (source : String)
    (tokens : List Token) : Curbed (compile limits source tokens) (compile looser source tokens) :=
  .bind (.bind (Builder.curbed_run h {} 0 tokens) fun _ => .refl _) fun _ => .refl _

theorem curbed_parse (hlength : limits.maxLength ≤ looser.maxLength)
    (hdepth : limits.maxDepth ≤ looser.maxDepth) (source : String) :
    Curbed (parse limits source) (parse looser source) :=
  .bind (curbed_tokenize hlength hdepth source) fun tokens => curbed_compile hdepth source tokens

/-- Looser limits accept what tighter ones accept, and with the same result; what they refuse for
a limit, the tighter ones do, too; and any other fault is found under the tighter limits, or a
limit stops them before. -/
theorem parse_of_looser (source : String) (hlength : limits.maxLength ≤ looser.maxLength)
    (hdepth : limits.maxDepth ≤ looser.maxDepth) :
    (∀ e, parse limits source = .ok e → parse looser source = .ok e) ∧
    (∀ fault, parse looser source = .error (.limit fault) →
      ∃ fault', parse limits source = .error (.limit fault')) ∧
    ∀ fault, parse looser source = .error fault → (∀ f, fault ≠ .limit f) →
      parse limits source = .error fault ∨
        ∃ fault', parse limits source = .error (.limit fault') := by
  have h := curbed_parse hlength hdepth source
  refine ⟨fun e => h.eq_of_ok, fun fault hfault => ?_, fun fault hfault _ => ?_⟩
  · obtain heq | hlimit := h
    · exact ⟨fault, heq.trans hfault⟩
    · exact hlimit
  · obtain heq | hlimit := h
    · exact .inl (heq.trans hfault)
    · exact .inr hlimit

/-- Two brackets are not too many, three are, and one that stays open is found in time. -/
theorem parse_of_looser_nested :
    (∃ e, parse ⟨5, 2⟩ "((1))" = .ok e ∧ parse {} "((1))" = .ok e) ∧
    (parse {} "((1" = .error (.lexical (.unclosedBracket .round 1)) ∧
      (parse ⟨5, 1⟩ "((1" = .error (.lexical (.unclosedBracket .round 1)) ∨
        ∃ fault, parse ⟨5, 1⟩ "((1" = .error (.limit fault))) := by
  obtain ⟨e, he⟩ := exists_eq_ok (x := parse ⟨5, 2⟩ "((1))") (by decide +kernel)
  have hopen : parse {} "((1" = .error (.lexical (.unclosedBracket .round 1)) :=
    eq_error_of_fault? (by decide +kernel)
  refine ⟨⟨e, he, (parse_of_looser "((1))" (by decide) (by decide)).1 e he⟩, hopen, ?_⟩
  exact (parse_of_looser "((1" (by decide) (by decide)).2.2 _ hopen nofun

end Expression

end TemplateBinding
