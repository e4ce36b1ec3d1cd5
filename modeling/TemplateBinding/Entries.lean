set_option autoImplicit false

namespace TemplateBinding

/-- Maps from texts, as lists in which `insert` puts each key in its place. -/
abbrev Entries (α : Type) := List (String × α)

namespace Entries

variable {α β : Type}

def Ascending (entries : Entries α) : Prop := entries.Pairwise (·.1 < ·.1)

def get? (entries : Entries α) (key : String) : Option α :=
  match entries with
  | [] => none
  | (k, v) :: rest => if k = key then some v else get? rest key

def insert (entries : Entries α) (key : String) (value : α) : Entries α :=
  match entries with
  | [] => [(key, value)]
  | (k, v) :: rest =>
    if key < k then (key, value) :: (k, v) :: rest
    else if key = k then (key, value) :: rest
    else (k, v) :: insert rest key value

def erase (entries : Entries α) (key : String) : Entries α := entries.filter (·.1 ≠ key)

/-- Of several entries with one key the last counts. -/
def ofList (entries : List (String × α)) : Entries α :=
  entries.foldl (fun map e => insert map e.1 e.2) []

@[simp] theorem get?_nil (key : String) : get? ([] : Entries α) key = none := rfl

theorem get?_cons (e : String × α) (rest : Entries α) (key : String) :
    get? (e :: rest) key = if e.1 = key then some e.2 else get? rest key := rfl

@[simp] theorem get?_insert_self (entries : Entries α) (key : String) (value : α) :
    get? (insert entries key value) key = some value := by
  fun_induction insert entries key value with
  | case1 | case2 | case3 => simp [get?_cons]
  | case4 k v rest _ h ih => simp [get?_cons, Ne.symm h, ih]

@[simp] theorem get?_insert_of_ne (entries : Entries α) {key other : String} (value : α)
    (h : other ≠ key) : get? (insert entries key value) other = get? entries other := by
  fun_induction insert entries key value with
  | case1 => simp [get?_cons, Ne.symm h]
  | case2 => simp [get?_cons, Ne.symm h]
  | case3 => simp [get?_cons, Ne.symm h]
  | case4 k v rest _ _ ih => simp [get?_cons, ih]

theorem get?_foldl_insert (entries : List (String × α)) (map : Entries α) (key : String) :
    get? (entries.foldl (fun map e => insert map e.1 e.2) map) key =
      ((entries.reverse.find? (·.1 = key)).map (·.2)).or (get? map key) := by
  induction entries generalizing map with
  | nil => rfl
  | cons e entries ih =>
    rw [List.foldl_cons, ih, List.reverse_cons, List.find?_append]
    by_cases he : e.1 = key
    · subst he
      cases entries.reverse.find? (·.1 = e.1) <;> simp
    · simp [he, get?_insert_of_ne map e.2 (Ne.symm he)]

theorem get?_ofList (entries : List (String × α)) (key : String) :
    get? (ofList entries) key = (entries.reverse.find? (·.1 = key)).map (·.2) := by
  rw [ofList, get?_foldl_insert]
  exact Option.or_none

@[simp] theorem get?_erase_self (entries : Entries α) (key : String) :
    get? (erase entries key) key = none := by
  induction entries with
  | nil => rfl
  | cons e entries ih =>
    by_cases he : e.1 = key
    · simpa [erase, he] using ih
    · simpa [erase, he, get?_cons] using ih

@[simp] theorem get?_erase_of_ne (entries : Entries α) {key other : String} (h : other ≠ key) :
    get? (erase entries key) other = get? entries other := by
  induction entries with
  | nil => rfl
  | cons e entries ih =>
    by_cases he : e.1 = key
    · simpa [erase, he, get?_cons, Ne.symm h] using ih
    · by_cases ho : e.1 = other
      · simp [erase, get?_cons, ho, h]
      · simpa [erase, he, get?_cons, ho] using ih

theorem get?_isSome_iff {entries : Entries α} {key : String} :
    (get? entries key).isSome = true ↔ key ∈ entries.map Prod.fst := by
  induction entries with
  | nil => simp
  | cons e entries ih =>
    by_cases he : e.1 = key
    · simp [get?_cons, he]
    · simp only [get?_cons, if_neg he, ih, List.map_cons, List.mem_cons, Ne.symm he, false_or]

theorem insert_perm_of_none {entries : Entries α} {key : String} (value : α)
    (h : get? entries key = none) : (insert entries key value).Perm ((key, value) :: entries) := by
  fun_induction insert entries key value with
  | case1 => exact .refl _
  | case2 => exact .refl _
  | case3 v rest => simp [get?_cons] at h
  | case4 k v rest _ hk ih =>
    have hrest : get? rest key = none := by simpa [get?_cons, Ne.symm hk] using h
    exact ((ih hrest).cons (k, v)).trans (.swap (key, value) (k, v) rest)

end Entries

end TemplateBinding
