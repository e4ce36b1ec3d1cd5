set_option autoImplicit false

namespace TemplateBinding

variable {ε ε' α β : Type}

theorem mapError_ok (f : ε → ε') (a : α) : (Except.ok a).mapError f = .ok a := rfl

theorem bind_eq_ok_iff {x : Except ε α} {f : α → Except ε β} {b : β} :
    (x >>= f) = .ok b ↔ ∃ a, x = .ok a ∧ f a = .ok b := by
  cases x with
  | ok a => exact ⟨fun h => ⟨a, rfl, h⟩, fun ⟨_, ha, h⟩ => Except.ok.inj ha ▸ h⟩
  | error e => exact ⟨nofun, fun ⟨_, ha, _⟩ => nomatch ha⟩

theorem bind_eq_error_iff {x : Except ε α} {f : α → Except ε β} {e : ε} :
    (x >>= f) = .error e ↔ x = .error e ∨ ∃ a, x = .ok a ∧ f a = .error e := by
  cases x with
  | ok a => exact ⟨fun h => .inr ⟨a, rfl, h⟩, fun | .inr ⟨_, ha, h⟩ => Except.ok.inj ha ▸ h⟩
  | error e' =>
    refine ⟨fun h => .inl (congrArg _ (Except.error.inj h)), fun h => ?_⟩
    obtain h | ⟨_, ha, -⟩ := h
    · exact congrArg _ (Except.error.inj h)
    · cases ha

/-- A step succeeds with a result of which `Q` holds, or fails with a fault of which `E` holds. -/
def Ends (E : ε → Prop) (Q : α → Prop) : Except ε α → Prop
  | .ok a => Q a
  | .error fault => E fault

namespace Ends

variable {E F : ε → Prop} {E' : ε' → Prop} {Q : α → Prop} {R : β → Prop} {x y : Except ε α}

theorem of_ok {a : α} (h : Ends E Q x) (hx : x = .ok a) : Q a := by
  rw [hx] at h
  exact h

theorem of_error {fault : ε} (h : Ends E Q x) (hx : x = .error fault) : E fault := by
  rw [hx] at h
  exact h

theorem mono (h : Ends E Q x) (k : ∀ fault, E fault → F fault) : Ends F Q x := by
  cases x with
  | ok a => exact h
  | error fault => exact k fault h

theorem bind {f : α → Except ε β} (h : Ends E Q x) (k : ∀ a, Q a → Ends E R (f a)) :
    Ends E R (x >>= f) := by
  cases x with
  | ok a => exact k a h
  | error fault => exact h

theorem map {f : α → β} (h : Ends E Q x) (k : ∀ a, Q a → R (f a)) : Ends E R (x.map f) := by
  cases x with
  | ok a => exact k a h
  | error fault => exact h

theorem mapError {f : ε → ε'} (h : Ends E Q x) (k : ∀ fault, E fault → E' (f fault)) :
    Ends E' Q (x.mapError f) := by
  cases x with
  | ok a => exact h
  | error fault => exact k fault h

theorem ite {p : Prop} [Decidable p] (h : p → Ends E Q x) (k : ¬p → Ends E Q y) :
    Ends E Q (if p then x else y) := by
  by_cases hp : p
  · rw [if_pos hp]
    exact h hp
  · rw [if_neg hp]
    exact k hp

end Ends

theorem exists_eq_ok {x : Except ε α} (h : x.toBool = true) : ∃ a, x = .ok a := by
  cases x with
  | ok a => exact ⟨a, rfl⟩
  | error e => cases h

def fault? : Except ε α → Option ε
  | .ok _ => none
  | .error e => some e

theorem eq_error_of_fault? {x : Except ε α} {e : ε} (h : fault? x = some e) : x = .error e := by
  cases x with
  | ok a => cases h
  | error e' => exact congrArg _ (Option.some.inj h)

end TemplateBinding
