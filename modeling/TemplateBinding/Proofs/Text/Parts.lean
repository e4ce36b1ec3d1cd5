import TemplateBinding.Text.Search

set_option autoImplicit false

namespace TemplateBinding.Text

theorem firstMatch_singleton_eq_none {c : Char} {cs : List Char} (h : c ∉ cs) :
    firstMatch [c] cs = none := by
  induction cs with
  | nil => rfl
  | cons d cs ih =>
    have hd := List.ne_of_not_mem_cons h
    have hcs := List.not_mem_of_not_mem_cons h
    have hp : ([c] : List Char).isPrefixOf (d :: cs) = false := by simp [List.isPrefixOf, hd]
    simp only [firstMatch, hp, ih hcs, Bool.false_eq_true, if_false, Option.map_none]

theorem firstMatch_singleton_append {c : Char} {cs : List Char} (h : c ∉ cs)
    (rest : List Char) : firstMatch [c] (cs ++ c :: rest) = some cs.length := by
  induction cs with
  | nil => simp [firstMatch, List.isPrefixOf]
  | cons d cs ih =>
    have hd := List.ne_of_not_mem_cons h
    have hcs := List.not_mem_of_not_mem_cons h
    have hp : ([c] : List Char).isPrefixOf (d :: (cs ++ c :: rest)) = false := by
      simp [List.isPrefixOf, hd]
    simp only [List.cons_append, firstMatch, hp, ih hcs, Bool.false_eq_true, if_false,
      Option.map_some, List.length_cons]

theorem split_singleton_eq_self {c : Char} {cs : List Char} (h : c ∉ cs) :
    split [c] cs = [cs] := split_eq_singleton (firstMatch_singleton_eq_none h)

theorem split_singleton_append {c : Char} {cs : List Char} (h : c ∉ cs) (rest : List Char) :
    split [c] (cs ++ c :: rest) = cs :: split [c] rest := by
  rw [split_eq_cons (List.cons_ne_nil c []) (firstMatch_singleton_append h rest)]
  simp

theorem split_singleton (c : Char) (cs : List Char) : split [c] cs = cs.splitOn c := by
  induction h : cs.length using Nat.strongRecOn generalizing cs with
  | ind n ih =>
    by_cases hc : c ∈ cs
    · obtain ⟨before, after, rfl, hb⟩ := List.eq_append_cons_of_mem hc
      rw [split_singleton_append hb, List.splitOn_append_cons_self_of_not_mem hb,
        ih after.length (by rw [← h, List.length_append, List.length_cons]; omega) after rfl]
    · rw [split_singleton_eq_self hc, List.splitOn_eq_singleton hc]

theorem not_mem_of_mem_split_singleton {c : Char} {cs part : List Char}
    (h : part ∈ split [c] cs) : c ∉ part := by
  induction hn : cs.length using Nat.strongRecOn generalizing cs with
  | ind n ih =>
    by_cases hc : c ∈ cs
    · obtain ⟨before, after, rfl, hb⟩ := List.eq_append_cons_of_mem hc
      rw [split_singleton_append hb] at h
      cases h with
      | head => exact hb
      | tail _ h =>
        exact ih after.length (by rw [← hn, List.length_append, List.length_cons]; omega) h rfl
    · rw [split_singleton_eq_self hc, List.mem_singleton] at h
      exact h ▸ hc

/-- The names in a text that dots separate. -/
def names (text : String) : List String := (split ['.'] text.toList).map String.ofList

theorem names_intercalate {path : List String} (hp : path ≠ [])
    (hd : ∀ name ∈ path, '.' ∉ name.toList) : names (".".intercalate path) = path := by
  have hl : ∀ cs ∈ path.map String.toList, '.' ∉ cs := by
    intro cs hcs
    obtain ⟨name, hn, rfl⟩ := List.mem_map.1 hcs
    exact hd name hn
  have hn : path.map String.toList ≠ [] := fun h => hp (List.map_eq_nil_iff.1 h)
  have he : (".".intercalate path).toList = ['.'].intercalate (path.map String.toList) := by
    rw [String.toList_intercalate]; rfl
  rw [names, he, split_singleton, List.splitOn_intercalate '.' hl hn, List.map_map]
  conv => rhs; rw [← List.map_id path]
  exact List.map_congr_left fun name _ => String.ofList_toList

theorem dot_not_mem_of_mem_names {text name : String} (h : name ∈ names text) :
    '.' ∉ name.toList := by
  obtain ⟨cs, hcs, rfl⟩ := List.mem_map.1 h
  rw [String.toList_ofList]
  exact not_mem_of_mem_split_singleton hcs

theorem names_intercalate_iff {path : List String} (hp : path ≠ []) :
    names (".".intercalate path) = path ↔ ∀ name ∈ path, '.' ∉ name.toList :=
  ⟨fun h _ hn => dot_not_mem_of_mem_names (h.symm ▸ hn), names_intercalate hp⟩

end TemplateBinding.Text
