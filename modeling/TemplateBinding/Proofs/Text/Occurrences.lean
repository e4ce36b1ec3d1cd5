import Mathlib.Data.List.Infix
import TemplateBinding.Text.Search

set_option autoImplicit false

namespace TemplateBinding.Text

variable {needle separator cs part : List Char} {i k : Nat}

theorem prefix_drop_of_firstMatch (h : firstMatch needle cs = some k) : needle <+: cs.drop k := by
  induction cs generalizing k with
  | nil =>
    cases needle with
    | nil => exact List.nil_prefix
    | cons n needle => cases h
  | cons c cs ih =>
    rw [firstMatch] at h
    split at h
    · next hp =>
      obtain rfl := Option.some.inj h
      exact List.isPrefixOf_iff_prefix.1 hp
    · obtain ⟨j, hj, rfl⟩ := Option.map_eq_some_iff.1 h
      exact ih hj

theorem not_prefix_drop_of_firstMatch (h : firstMatch needle cs = some k) (hi : i < k) :
    ¬needle <+: cs.drop i := by
  induction cs generalizing i k with
  | nil =>
    cases needle with
    | nil =>
      obtain rfl := Option.some.inj h
      exact absurd hi (Nat.not_lt_zero i)
    | cons n needle => cases h
  | cons c cs ih =>
    rw [firstMatch] at h
    split at h
    · obtain rfl := Option.some.inj h
      exact absurd hi (Nat.not_lt_zero i)
    · next hp =>
      obtain ⟨j, hj, rfl⟩ := Option.map_eq_some_iff.1 h
      cases i with
      | zero => exact fun hprefix => hp (List.isPrefixOf_iff_prefix.2 hprefix)
      | succ i => exact ih hj (Nat.lt_of_succ_lt_succ hi)

theorem not_prefix_drop_of_firstMatch_eq_none (h : firstMatch needle cs = none) (i : Nat) :
    ¬needle <+: cs.drop i := by
  induction cs generalizing i with
  | nil =>
    cases needle with
    | nil => cases h
    | cons n needle =>
      rw [List.drop_nil, List.prefix_nil]
      exact List.cons_ne_nil n needle
  | cons c cs ih =>
    rw [firstMatch] at h
    split at h
    · cases h
    · next hp =>
      cases i with
      | zero => exact fun hprefix => hp (List.isPrefixOf_iff_prefix.2 hprefix)
      | succ i => exact ih (Option.map_eq_none_iff.1 h) i

theorem infix_iff_exists_prefix_drop : needle <:+: cs ↔ ∃ i, needle <+: cs.drop i := by
  constructor
  · rintro ⟨before, after, rfl⟩
    refine ⟨before.length, after, ?_⟩
    rw [List.append_assoc, List.drop_left]
  · rintro ⟨i, hi⟩
    exact hi.isInfix.trans (List.drop_suffix i cs).isInfix

theorem firstMatch_eq_none_iff : firstMatch needle cs = none ↔ ¬needle <:+: cs := by
  rw [infix_iff_exists_prefix_drop, not_exists]
  refine ⟨not_prefix_drop_of_firstMatch_eq_none, fun h => ?_⟩
  cases hk : firstMatch needle cs with
  | none => rfl
  | some k => exact absurd (prefix_drop_of_firstMatch hk) (h k)

theorem eq_append_of_firstMatch (h : firstMatch separator cs = some k) :
    cs.take k ++ separator ++ cs.drop (k + separator.length) = cs := by
  obtain ⟨after, hafter⟩ := prefix_drop_of_firstMatch h
  have hrest : cs.drop (k + separator.length) = after := by
    rw [← List.drop_drop, ← hafter, List.drop_left]
  rw [hrest, List.append_assoc, hafter, List.take_append_drop]

/-- Before the first occurrence there is none, not even in part of the separator. -/
theorem not_infix_take_of_firstMatch (hs : separator ≠ [])
    (h : firstMatch separator cs = some k) : ¬separator <:+: cs.take k := by
  rintro ⟨before, after, hinfix⟩
  have hlength := congrArg List.length hinfix
  rw [List.length_append, List.length_append, List.length_take] at hlength
  have hpos := List.length_pos_iff.2 hs
  refine not_prefix_drop_of_firstMatch h (i := before.length) (by omega) ⟨after ++ cs.drop k, ?_⟩
  have hcs : cs = before ++ (separator ++ (after ++ cs.drop k)) := by
    rw [← List.append_assoc, ← List.append_assoc, hinfix, List.take_append_drop]
  conv => rhs; rw [hcs]
  rw [List.drop_left]

theorem split_ne_nil (separator cs : List Char) : split separator cs ≠ [] := by
  by_cases hs : separator = []
  · rw [split, dif_pos hs]
    exact List.cons_ne_nil _ _
  · cases h : firstMatch separator cs with
    | none =>
      rw [split_eq_singleton h]
      exact List.cons_ne_nil _ _
    | some k =>
      rw [split_eq_cons hs h]
      exact List.cons_ne_nil _ _

theorem intercalate_split (separator cs : List Char) :
    separator.intercalate (split separator cs) = cs := by
  induction hn : cs.length using Nat.strongRecOn generalizing cs with
  | ind n ih =>
    by_cases hs : separator = []
    · rw [split, dif_pos hs, List.intercalate_singleton]
    · cases h : firstMatch separator cs with
      | none => rw [split_eq_singleton h, List.intercalate_singleton]
      | some k =>
        have hlt := length_sub_lt_of_find hs (find_eq_firstMatch separator cs ▸ h)
        rw [split_eq_cons hs h, List.intercalate_cons_of_ne_nil (split_ne_nil _ _),
          ih _ (by rwa [List.length_drop, ← hn]) _ rfl, eq_append_of_firstMatch h]

theorem not_infix_of_mem_split (hs : separator ≠ []) (h : part ∈ split separator cs) :
    ¬separator <:+: part := by
  induction hn : cs.length using Nat.strongRecOn generalizing cs with
  | ind n ih =>
    cases hk : firstMatch separator cs with
    | none =>
      rw [split_eq_singleton hk, List.mem_singleton] at h
      rw [h]
      exact firstMatch_eq_none_iff.1 hk
    | some k =>
      rw [split_eq_cons hs hk] at h
      cases h with
      | head => exact not_infix_take_of_firstMatch hs hk
      | tail _ hrest =>
        have hlt := length_sub_lt_of_find hs (find_eq_firstMatch separator cs ▸ hk)
        exact ih _ (by rwa [List.length_drop, ← hn]) hrest rfl

theorem intercalate_map_singleton (cs : List Char) :
    ([] : List Char).intercalate (cs.map ([·])) = cs := by
  induction cs with
  | nil => rfl
  | cons c cs ih =>
    cases cs with
    | nil => rfl
    | cons d cs =>
      rw [List.map_cons, List.intercalate_cons_of_ne_nil (by simp), ih]
      rfl

end TemplateBinding.Text
