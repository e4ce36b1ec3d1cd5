import TemplateBinding.Proofs.Value.Equality
import TemplateBinding.Value.Json

set_option autoImplicit false

namespace TemplateBinding

namespace Json

inductive Occurs (i : Json) : Json → Prop where
  | here : Occurs i i
  | item {j : Json} {items : List Json} : j ∈ items → Occurs i j → Occurs i (.array items)
  | entry {e : String × Json} {entries : List (String × Json)} :
      e ∈ entries → Occurs i e.2 → Occurs i (.object entries)

/-- Whole numbers that are words, floats that are finite, and everything else. -/
def Keeps : Json → Prop
  | .integer n => -2 ^ 63 ≤ n ∧ n < 2 ^ 63
  | .float x => x.isFinite = true
  | _ => True

theorem ind {motive : Json → Prop} (null : motive .null) (boolean : ∀ b, motive (.boolean b))
    (integer : ∀ n, motive (.integer n)) (float : ∀ x, motive (.float x))
    (string : ∀ s, motive (.string s))
    (array : ∀ items, (∀ item ∈ items, motive item) → motive (.array items))
    (object : ∀ entries, (∀ e ∈ entries, motive e.2) → motive (.object entries))
    (j : Json) : motive j :=
  Json.rec (motive_1 := motive) (motive_2 := fun js => ∀ j ∈ js, motive j)
    (motive_3 := fun es => ∀ e ∈ es, motive e.2) (motive_4 := fun e => motive e.2)
    null boolean integer float string array object
    (fun _ h => nomatch h)
    (fun _ _ head tail => List.forall_mem_cons.2 ⟨head, tail⟩)
    (fun _ h => nomatch h)
    (fun _ _ head tail => List.forall_mem_cons.2 ⟨head, tail⟩)
    (fun _ _ h => h) j

variable {P : Json → Prop} {items : List Json} {entries : List (String × Json)}

theorem forall_occurs_array_iff (hP : P (.array items)) :
    (∀ i, Occurs i (.array items) → P i) ↔ ∀ j ∈ items, ∀ i, Occurs i j → P i := by
  constructor
  · exact fun h j hj i hi => h i (.item hj hi)
  · intro h i hi
    cases hi with
    | here => exact hP
    | item hj hi => exact h _ hj i hi

theorem forall_occurs_object_iff (hP : P (.object entries)) :
    (∀ i, Occurs i (.object entries) → P i) ↔ ∀ e ∈ entries, ∀ i, Occurs i e.2 → P i := by
  constructor
  · exact fun h e he i hi => h i (.entry he hi)
  · intro h i hi
    cases hi with
    | here => exact hP
    | entry he hi => exact h _ he i hi

end Json

namespace Value

theorem eq_map {α β : Type} {f : α → β} {g : List α → List β} (hnil : g [] = [])
    (hcons : ∀ a l, g (a :: l) = f a :: g l) (l : List α) : g l = l.map f := by
  induction l with
  | nil => exact hnil
  | cons a l ih => rw [hcons, ih, List.map_cons]

theorem toJson_array (items : List Value) : toJson (.array items) = .array (items.map toJson) :=
  congrArg Json.array (eq_map rfl (fun _ _ => rfl) items)

theorem toJson_object (entries : List (String × Value)) :
    toJson (.object entries) = .object (entries.map fun e => (e.1, e.2.toJson)) :=
  congrArg Json.object (eq_map (g := toJsonEntries) rfl (fun _ _ => rfl) entries)

theorem ofJson_array (items : List Json) : ofJson (.array items) = .array (items.map ofJson) :=
  congrArg Value.array (eq_map rfl (fun _ _ => rfl) items)

theorem ofJson_object (entries : List (String × Json)) :
    ofJson (.object entries) = .object (entries.map fun e => (e.1, ofJson e.2)) :=
  congrArg Value.object (eq_map (g := ofJsonEntries) rfl (fun _ _ => rfl) entries)

def isLost : Value → Bool
  | .undefined | .function _ => true
  | .float x => !x.isFinite
  | _ => false

mutual

/-- The value with `null` in place of everything in it that is lost. -/
def blanked : Value → Value
  | .array items => .array (blankedItems items)
  | .object entries => .object (blankedEntries entries)
  | v => if v.isLost then .null else v

def blankedItems : List Value → List Value
  | [] => []
  | v :: vs => blanked v :: blankedItems vs

def blankedEntries : List (String × Value) → List (String × Value)
  | [] => []
  | (k, v) :: es => (k, blanked v) :: blankedEntries es

end

theorem blanked_array (items : List Value) :
    blanked (.array items) = .array (items.map blanked) :=
  congrArg Value.array (eq_map rfl (fun _ _ => rfl) items)

theorem blanked_object (entries : List (String × Value)) :
    blanked (.object entries) = .object (entries.map fun e => (e.1, e.2.blanked)) :=
  congrArg Value.object (eq_map (g := blankedEntries) rfl (fun _ _ => rfl) entries)

theorem blanked_of_atom {v : Value} (h : v.isContainer = false) :
    v.blanked = if v.isLost then .null else v := by
  cases v <;> first | rfl | cases h

theorem ofWhole_toInt (n : Int64) : ofWhole n.toInt = .integer n := by
  rw [ofWhole, Number.word?_toInt]

theorem ofJson_toJson (v : Value) : ofJson (toJson v) = v.blanked := by
  induction v using ind with
  | atom v hn hc =>
    rw [blanked_of_atom hc]
    cases v with
    | integer n => cases hn
    | float x => cases hn
    | array items => cases hc
    | object entries => cases hc
    | _ => rfl
  | integer n => exact ofWhole_toInt n
  | float x =>
    rw [blanked_of_atom rfl, toJson, isLost]
    cases x.isFinite <;> rfl
  | array items ih =>
    rw [toJson_array, ofJson_array, blanked_array, List.map_map]
    exact congrArg _ (List.map_congr_left ih)
  | object entries ih =>
    rw [toJson_object, ofJson_object, blanked_object, List.map_map]
    refine congrArg _ (List.map_congr_left fun e he => ?_)
    exact congrArg _ (ih e he)

theorem toJson_ofJson_toJson (v : Value) : toJson (ofJson (toJson v)) = toJson v := by
  induction v using ind with
  | atom v hn hc =>
    cases v with
    | integer n => cases hn
    | float x => cases hn
    | array items => cases hc
    | object entries => cases hc
    | _ => rfl
  | integer n => exact congrArg toJson (ofWhole_toInt n)
  | float x =>
    rw [toJson]
    split
    · next hx => exact if_pos hx
    · rfl
  | array items ih =>
    rw [toJson_array, ofJson_array, toJson_array, List.map_map, List.map_map]
    exact congrArg _ (List.map_congr_left ih)
  | object entries ih =>
    rw [toJson_object, ofJson_object, toJson_object, List.map_map, List.map_map]
    refine congrArg _ (List.map_congr_left fun e he => ?_)
    exact congrArg _ (ih e he)

theorem map_eq_self_iff {α : Type} {f : α → α} {l : List α} : l.map f = l ↔ ∀ a ∈ l, f a = a := by
  conv => lhs; rhs; rw [← List.map_id l]
  exact List.map_inj_left

theorem map_snd_eq_self_iff {α : Type} {f : α → α} {es : List (String × α)} :
    (es.map fun e => (e.1, f e.2)) = es ↔ ∀ e ∈ es, f e.2 = e.2 := by
  rw [map_eq_self_iff]
  simp only [Prod.ext_iff, true_and]

theorem isContainer_of_isLost {v : Value} (h : v.isLost = true) : v.isContainer = false := by
  cases v with
  | array items => cases h
  | object entries => cases h
  | _ => rfl

theorem blanked_eq_self_iff (v : Value) :
    v.blanked = v ↔ ∀ u, u.isLost = true → ¬Occurs u v := by
  have atom {v : Value} (hc : v.isContainer = false) :
      v.blanked = v ↔ ∀ u, u.isLost = true → ¬Occurs u v := by
    rw [blanked_of_atom hc]
    simp only [occurs_iff_eq hc]
    cases hlost : v.isLost with
    | false =>
      refine iff_of_true rfl fun u hu huv => ?_
      rw [huv, hlost] at hu
      cases hu
    | true =>
      refine iff_of_false (fun hnull => ?_) fun h => h v hlost rfl
      rw [← hnull] at hlost
      cases hlost
  induction v using ind with
  | atom v hn hc => exact atom hc
  | integer n => exact atom rfl
  | float x => exact atom rfl
  | array items ih =>
    rw [blanked_array, array.injEq, map_eq_self_iff]
    constructor
    · intro h u hu hocc
      obtain ⟨v, hv, hocc⟩ := (occurs_array_iff (isContainer_of_isLost hu)).1 hocc
      exact (ih v hv).1 (h v hv) u hu hocc
    · exact fun h v hv => (ih v hv).2 fun u hu hocc => h u hu (.item hv hocc)
  | object entries ih =>
    rw [blanked_object, object.injEq, map_snd_eq_self_iff]
    constructor
    · intro h u hu hocc
      obtain ⟨e, he, hocc⟩ := (occurs_object_iff (isContainer_of_isLost hu)).1 hocc
      exact (ih e he).1 (h e he) u hu hocc
    · exact fun h e he => (ih e he).2 fun u hu hocc => h u hu (.entry he hocc)

theorem toJson_ofWhole_iff (n : Int) : toJson (ofWhole n) = .integer n ↔ (Json.integer n).Keeps := by
  rw [ofWhole]
  cases hword : Number.word? n with
  | some w =>
    have hw := Number.word?_eq_some_iff.1 hword
    have hle := w.le_toInt
    have hlt := w.toInt_lt
    refine iff_of_true (congrArg Json.integer hw) ⟨?_, ?_⟩ <;> omega
  | none =>
    have hout := Number.word?_eq_none_iff.1 hword
    refine iff_of_false (fun h => ?_) (fun ⟨hle, hlt⟩ => by omega)
    simp only [toJson] at h
    split at h <;> cases h

/-- A document comes back as it was just when its numbers are words and finite floats. -/
theorem toJson_ofJson_iff (j : Json) :
    toJson (ofJson j) = j ↔ ∀ i, Json.Occurs i j → i.Keeps := by
  induction j using Json.ind with
  | null | boolean b | string s =>
    refine iff_of_true rfl fun i hi => ?_
    cases hi
    exact trivial
  | integer n =>
    refine (toJson_ofWhole_iff n).trans ⟨fun h i hi => ?_, fun h => h _ .here⟩
    cases hi
    exact h
  | float x =>
    have hfinite : toJson (ofJson (.float x)) = .float x ↔ x.isFinite = true := by
      rw [ofJson, toJson]
      cases x.isFinite <;> simp
    refine hfinite.trans ⟨fun h i hi => ?_, fun h => h _ .here⟩
    cases hi
    exact h
  | array items ih =>
    rw [ofJson_array, toJson_array, List.map_map, Json.array.injEq, map_eq_self_iff,
      Json.forall_occurs_array_iff trivial]
    exact forall₂_congr ih
  | object entries ih =>
    rw [ofJson_object, toJson_object, List.map_map, Json.object.injEq,
      Json.forall_occurs_object_iff trivial]
    exact (map_snd_eq_self_iff (f := fun j => toJson (ofJson j))).trans (forall₂_congr ih)

/-- A value comes back from a document with `null` in place of all in it that is lost, so as it was
if there is nothing of the kind, and nothing more is lost the second time. A document comes back
from a value as it was, if its whole numbers are words and its floats are finite, and only then. -/
theorem json_round_trips :
    (∀ v : Value, ofJson v.toJson = v.blanked ∧
      (v.blanked = v ↔ ∀ u, u.isLost = true → ¬Occurs u v)) ∧
    (∀ v : Value, ofJson (toJson (ofJson v.toJson)) = ofJson v.toJson) ∧
    ∀ j : Json, toJson (ofJson j) = j ↔ ∀ i, Json.Occurs i j → i.Keeps :=
  ⟨fun v => ⟨ofJson_toJson v, blanked_eq_self_iff v⟩,
    fun v => congrArg ofJson (toJson_ofJson_toJson v), toJson_ofJson_iff⟩

/-- A zero keeps its sign, and a whole float its kind; a whole number beyond the words loses its. -/
theorem json_round_trips_zero :
    let minusZero : Float := Number.zero .negative
    let v : Value := .array [.float minusZero, .object [("k", .undefined), ("l", .integer 1)]]
    ofJson v.toJson = .array [.float minusZero, .object [("k", .null), ("l", .integer 1)]] ∧
      toJson (ofJson (.array [.float (Number.ofInt 1), .integer 1])) =
        .array [.float (Number.ofInt 1), .integer 1] ∧
      toJson (ofJson (.integer (2 ^ 63))) ≠ .integer (2 ^ 63) := by
  intro minusZero v
  obtain ⟨hvalue, -, hdocument⟩ := json_round_trips
  refine ⟨(hvalue v).1.trans ?_, (hdocument _).2 ?_, fun h => ?_⟩
  · have hfinite : minusZero.isFinite = true := by decide
    simp [v, blanked, blankedItems, blankedEntries, isLost, hfinite]
  · rw [Json.forall_occurs_array_iff trivial]
    simp only [List.forall_mem_cons]
    refine ⟨fun i hi => ?_, fun i hi => ?_, nofun⟩
    · cases hi
      exact (by decide : (Number.ofInt 1).isFinite = true)
    · cases hi
      exact (by decide : -2 ^ 63 ≤ (1 : Int) ∧ (1 : Int) < 2 ^ 63)
  · exact absurd ((hdocument _).1 h _ .here).2 (by decide)

end Value

end TemplateBinding
