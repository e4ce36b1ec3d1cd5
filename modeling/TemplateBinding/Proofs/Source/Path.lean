import TemplateBinding.Proofs.Text.Parts
import TemplateBinding.Source.Lexeme
import TemplateBinding.Tree.Fragment

set_option autoImplicit false

namespace TemplateBinding

/-- A name as a source can hold it, though its first character may be a numeral. -/
def IsName (name : String) : Prop := name.toList ≠ [] ∧ ∀ c ∈ name.toList, isNamePart c = true

theorem IsName.not_mem {name : String} (h : IsName name) {c : Char} (hc : isNamePart c = false) :
    c ∉ name.toList := by
  intro hm
  rw [h.2 c hm] at hc
  cases hc

theorem IsName.dot_not_mem {name : String} (h : IsName name) : '.' ∉ name.toList :=
  h.not_mem rfl

namespace Cursor

theorem isName_readName {c : Cursor} (h : c.nextIs isNameStart = true) :
    IsName (String.ofList c.readName.1) := by
  refine ⟨?_, ?_⟩
  · rw [String.toList_ofList]
    exact readName_ne_nil h
  · intro ch hch
    rw [String.toList_ofList] at hch
    exact List.all_eq_true.1 (List.all_takeWhile) ch hch

theorem isName_of_readPathAfter {names path : List String} {c d : Cursor}
    (h : readPathAfter names c = .ok (path, d)) (hn : ∀ name ∈ names, IsName name) :
    ∀ name ∈ path, IsName name := by
  fun_induction readPathAfter names c with
  | case1 names c _ hs ih => exact ih h (List.forall_mem_cons.2 ⟨isName_readName hs, hn⟩)
  | case2 => cases h
  | case3 names c =>
    obtain ⟨rfl, -⟩ := Prod.mk.inj (Except.ok.inj h)
    intro name hm
    exact hn name (List.mem_reverse.1 hm)

theorem ne_nil_of_readPathAfter {names path : List String} {c d : Cursor}
    (h : readPathAfter names c = .ok (path, d)) (hn : names ≠ []) : path ≠ [] := by
  fun_induction readPathAfter names c with
  | case1 names c _ _ ih => exact ih h (List.cons_ne_nil _ _)
  | case2 => cases h
  | case3 names c =>
    obtain ⟨rfl, -⟩ := Prod.mk.inj (Except.ok.inj h)
    exact fun hr => hn (List.reverse_eq_nil_iff.1 hr)

theorem isName_of_readPath {path : List String} {c d : Cursor} (hs : c.nextIs isNameStart = true)
    (h : c.readPath = .ok (path, d)) : path ≠ [] ∧ ∀ name ∈ path, IsName name :=
  ⟨ne_nil_of_readPathAfter h (List.cons_ne_nil _ _),
    isName_of_readPathAfter h (List.forall_mem_singleton.2 (isName_readName hs))⟩

end Cursor

theorem split_intercalate {path : List String} (hp : path ≠ [])
    (hn : ∀ name ∈ path, IsName name) :
    Text.split ['.'] (".".intercalate path).toList = path.map String.toList := by
  have h := Text.names_intercalate hp fun name hm => (hn name hm).dot_not_mem
  have := congrArg (List.map String.toList) h
  rw [Text.names, List.map_map] at this
  conv at this => lhs; rw [show String.toList ∘ String.ofList = id from
    funext fun _ => String.toList_ofList, List.map_id]
  exact this

theorem any_isEmpty_eq_false {path : List String} (hn : ∀ name ∈ path, IsName name) :
    (path.map String.toList).any List.isEmpty = false := by
  rw [List.any_eq_false]
  intro cs hcs
  obtain ⟨name, hm, rfl⟩ := List.mem_map.1 hcs
  simpa using (hn name hm).1

theorem map_ofList_map_toList (path : List String) :
    (path.map String.toList).map String.ofList = path := by
  rw [List.map_map, show String.ofList ∘ String.toList = id from
    funext fun _ => String.ofList_toList, List.map_id]

theorem exists_toList_intercalate {path : List String} (hp : path ≠ [])
    (hn : ∀ name ∈ path, IsName name) :
    ∃ c cs, (".".intercalate path).toList = c :: cs ∧ isNamePart c = true := by
  cases path with
  | nil => exact absurd rfl hp
  | cons name path =>
    obtain ⟨hne, hpart⟩ := hn name List.mem_cons_self
    obtain ⟨c, cs, hc⟩ := List.exists_cons_of_ne_nil hne
    refine ⟨c, ['.'].intercalate (cs :: path.map String.toList), ?_, ?_⟩
    · rw [String.toList_intercalate, List.map_cons, hc, List.intercalate_cons_cons_left]
      rfl
    · exact hpart c (hc ▸ List.mem_cons_self)

theorem splitIdentifier_intercalate {path : List String} (hp : path ≠ [])
    (hn : ∀ name ∈ path, IsName name) :
    splitIdentifier (".".intercalate path) = .ok (.context, path) := by
  obtain ⟨c, cs, hcs, hc⟩ := exists_toList_intercalate hp hn
  have hat : c ≠ '@' := fun h => absurd hc (by rw [h]; decide)
  have hs := split_intercalate hp hn
  rw [hcs] at hs
  unfold splitIdentifier
  rw [hcs]
  split
  next isAlias body hb =>
  split at hb
  · next h => exact absurd (List.cons.inj h).1 hat
  · cases hb
    simp only [hs, any_isEmpty_eq_false hn, map_ofList_map_toList, Bool.false_eq_true, if_false]

theorem splitIdentifier_alias {name : String} {path : List String}
    (hn : ∀ n ∈ name :: path, IsName n) :
    splitIdentifier ("@" ++ ".".intercalate (name :: path)) = .ok (.alias name, path) := by
  have hs := split_intercalate (List.cons_ne_nil name path) hn
  have ht : ("@" ++ ".".intercalate (name :: path)).toList =
      '@' :: (".".intercalate (name :: path)).toList := by
    rw [String.toList_append]; rfl
  unfold splitIdentifier
  rw [ht]
  simp only [hs, any_isEmpty_eq_false hn, map_ofList_map_toList, Bool.false_eq_true, if_false]

def Root.names : Root → List String
  | .context => []
  | .alias name => [name]

def identifierNames (text : String) : List (List Char) :=
  (if text.toList.head? = some '@' then text.toList.tail else text.toList).splitOn '.'

theorem identifierNames_ne_nil (text : String) : identifierNames text ≠ [] :=
  List.splitOn_ne_nil '.' _

theorem dot_not_mem_of_mem_identifierNames {text : String} {name : List Char}
    (h : name ∈ identifierNames text) : '.' ∉ name := by
  rw [identifierNames, ← Text.split_singleton] at h
  exact Text.not_mem_of_mem_split_singleton h

theorem splitIdentifier_of_names {text : String} {name : List Char} {names : List (List Char)}
    (h : identifierNames text = name :: names) :
    splitIdentifier text =
      if (name :: names).any List.isEmpty then .error (.invalidIdentifier text)
      else if text.toList.head? = some '@' then
        .ok (.alias (String.ofList name), names.map String.ofList)
      else .ok (.context, (name :: names).map String.ofList) := by
  unfold identifierNames at h
  unfold splitIdentifier
  generalize text.toList = cs at h ⊢
  split
  next isAlias body hbody =>
  split at hbody
  · cases hbody
    rw [List.head?_cons, if_pos rfl, List.tail_cons] at h
    simp only [Text.split_singleton, h, List.map_cons, List.head?_cons, if_true]
  · next hat =>
    cases hbody
    have hhead : ¬cs.head? = some '@' := fun hh => by
      obtain ⟨rest, rfl⟩ := List.head?_eq_some_iff.1 hh
      exact hat rest rfl
    rw [if_neg hhead] at h
    simp only [Text.split_singleton, h, hhead, if_false]

theorem names_of_splitIdentifier {text : String} {root : Root} {segments : List String}
    (h : splitIdentifier text = .ok (root, segments)) :
    root.names ++ segments = (identifierNames text).map String.ofList := by
  obtain ⟨name, names, hn⟩ := List.exists_cons_of_ne_nil (identifierNames_ne_nil text)
  rw [splitIdentifier_of_names hn] at h
  rw [hn]
  split at h
  · cases h
  · split at h <;> cases h <;> rfl

/-- An identifier holds a path unless one of its names is empty. -/
theorem exists_splitIdentifier_iff (text : String) :
    (∃ root segments, splitIdentifier text = .ok (root, segments)) ↔
      [] ∉ identifierNames text := by
  obtain ⟨name, names, hn⟩ := List.exists_cons_of_ne_nil (identifierNames_ne_nil text)
  have hany : (name :: names).any List.isEmpty = true ↔ [] ∈ name :: names := by
    simp only [List.any_eq_true, List.isEmpty_iff, exists_eq_right]
  rw [splitIdentifier_of_names hn, hn, ← hany]
  split
  · next he => exact iff_of_false nofun fun h => h he
  · next he =>
    refine iff_of_true ?_ he
    split
    · exact ⟨_, _, rfl⟩
    · exact ⟨_, _, rfl⟩

theorem dot_not_mem_of_splitIdentifier {text : String} {root : Root} {segments : List String}
    (h : splitIdentifier text = .ok (root, segments)) :
    ∀ name ∈ root.names ++ segments, '.' ∉ name.toList := by
  intro name hm
  rw [names_of_splitIdentifier h] at hm
  obtain ⟨cs, hcs, rfl⟩ := List.mem_map.1 hm
  rw [String.toList_ofList]
  exact dot_not_mem_of_mem_identifierNames hcs

theorem ne_nil_of_splitIdentifier {text : String} {root : Root} {segments : List String}
    (h : splitIdentifier text = .ok (root, segments)) : root.names ++ segments ≠ [] := by
  rw [names_of_splitIdentifier h]
  exact fun hn => identifierNames_ne_nil text (List.map_eq_nil_iff.1 hn)

end TemplateBinding
