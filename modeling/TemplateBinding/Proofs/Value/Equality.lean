import Mathlib
import TemplateBinding.Value.Equality

set_option autoImplicit false

namespace TemplateBinding

namespace Entries

variable {α β : Type}

theorem pairwise_keys {es : Entries α} (h : Ascending es) : (es.map Prod.fst).Pairwise (· < ·) :=
  List.pairwise_map.2 h

theorem nodup_keys {es : Entries α} (h : Ascending es) : (es.map Prod.fst).Nodup :=
  (pairwise_keys h).imp ne_of_lt

theorem get?_eq_some_of_mem {es : Entries α} {e : String × α} (h : (es.map Prod.fst).Nodup)
    (he : e ∈ es) : get? es e.1 = some e.2 := by
  induction es with
  | nil => cases he
  | cons first es ih =>
    obtain ⟨hfirst, hes⟩ := List.nodup_cons.1 h
    obtain rfl | he := List.mem_cons.1 he
    · simp [get?_cons]
    · have hne : first.1 ≠ e.1 := fun heq => hfirst (heq ▸ List.mem_map_of_mem he)
      rw [get?_cons, if_neg hne]
      exact ih hes he

/-- Two maps agree entry by entry if they have equally many entries, and what the one has under a
key agrees with what the other has there: as the keys are told apart, none of the other's can be
left over. -/
theorem forall₂_iff_get? {R : α → β → Prop} {es : Entries α} {fs : Entries β} (hes : Ascending es)
    (hfs : Ascending fs) :
    List.Forall₂ (fun e f => e.1 = f.1 ∧ R e.2 f.2) es fs ↔
      es.length = fs.length ∧
        ∀ key v, get? es key = some v → ∃ w, get? fs key = some w ∧ R v w := by
  constructor
  · intro h
    refine ⟨h.length_eq, fun key v hv => ?_⟩
    induction h with
    | nil => cases hv
    | @cons e f es fs hef _ ih =>
      obtain ⟨hkey, hR⟩ := hef
      by_cases hk : e.1 = key
      · rw [get?_cons, if_pos hk] at hv
        obtain rfl := Option.some.inj hv
        exact ⟨f.2, by rw [get?_cons, if_pos (hkey ▸ hk)], hR⟩
      · rw [get?_cons, if_neg hk] at hv
        rw [get?_cons, if_neg (hkey ▸ hk)]
        exact ih (List.Pairwise.of_cons hes) (List.Pairwise.of_cons hfs) hv
  · rintro ⟨hlength, hget⟩
    have hsub : es.map Prod.fst ⊆ fs.map Prod.fst := by
      intro key hkey
      obtain ⟨v, hv⟩ := Option.isSome_iff_exists.1 (get?_isSome_iff.2 hkey)
      obtain ⟨w, hw, -⟩ := hget key v hv
      exact get?_isSome_iff.1 (Option.isSome_iff_exists.2 ⟨w, hw⟩)
    have hperm : (es.map Prod.fst).Perm (fs.map Prod.fst) :=
      (List.subperm_of_subset (nodup_keys hes) hsub).perm_of_length_le (by simp [hlength])
    have hkeys : es.map Prod.fst = fs.map Prod.fst :=
      hperm.eq_of_pairwise (fun _ _ _ _ h h' => absurd h (lt_asymm h')) (pairwise_keys hes)
        (pairwise_keys hfs)
    refine List.forall₂_iff_get.2 ⟨hlength, fun i hi hi' => ?_⟩
    have hkey : (es.get ⟨i, hi⟩).1 = (fs.get ⟨i, hi'⟩).1 := by
      have := List.getElem_of_eq hkeys (by simpa using hi)
      simpa using this
    obtain ⟨w, hw, hR⟩ := hget _ _ (get?_eq_some_of_mem (nodup_keys hes) (es.get_mem ⟨i, hi⟩))
    have hw' := get?_eq_some_of_mem (nodup_keys hfs) (fs.get_mem ⟨i, hi'⟩)
    rw [hkey, hw'] at hw
    exact ⟨hkey, Option.some.inj hw ▸ hR⟩

end Entries

namespace Value

theorem ind {motive : Value → Prop}
    (atom : ∀ v, v.isNumber = false → v.isContainer = false → motive v)
    (integer : ∀ n, motive (.integer n))
    (float : ∀ x, motive (.float x))
    (array : ∀ items, (∀ item ∈ items, motive item) → motive (.array items))
    (object : ∀ entries, (∀ e ∈ entries, motive e.2) → motive (.object entries))
    (v : Value) : motive v :=
  Value.rec (motive_1 := motive) (motive_2 := fun vs => ∀ v ∈ vs, motive v)
    (motive_3 := fun es => ∀ e ∈ es, motive e.2) (motive_4 := fun e => motive e.2)
    (atom .undefined rfl rfl) (atom .null rfl rfl) (fun b => atom (.boolean b) rfl rfl)
    integer float (fun s => atom (.string s) rfl rfl) array object
    (fun f => atom (.function f) rfl rfl)
    (fun _ h => nomatch h)
    (fun _ _ head tail => List.forall_mem_cons.2 ⟨head, tail⟩)
    (fun _ h => nomatch h)
    (fun _ _ head tail => List.forall_mem_cons.2 ⟨head, tail⟩)
    (fun _ _ h => h) v

/-- The value holds `u` at some depth of its arrays and objects, or is `u` itself. -/
inductive Occurs (u : Value) : Value → Prop where
  | here : Occurs u u
  | item {v : Value} {items : List Value} : v ∈ items → Occurs u v → Occurs u (.array items)
  | entry {e : String × Value} {entries : List (String × Value)} :
      e ∈ entries → Occurs u e.2 → Occurs u (.object entries)

variable {a b : Value} {vs ws : List Value} {es fs : List (String × Value)}

theorem strictEquals_iff_eq (hn : a.isNumber = false) (hc : a.isContainer = false) :
    a.strictEquals b = true ↔ a = b := by
  cases a <;> cases b <;> simp_all [strictEquals, isNumber, isContainer]

theorem integer_strictEquals_iff {m : Int64} :
    (integer m).strictEquals b = true ↔
      b = .integer m ∨ ∃ y, b = .float y ∧ (Number.ofInt m.toInt == y) = true := by
  cases b with
  | integer n => simpa [strictEquals] using eq_comm
  | _ => simp [strictEquals]

theorem float_strictEquals_iff {x : Float} :
    (float x).strictEquals b = true ↔
      (∃ n, b = .integer n ∧ (x == Number.ofInt n.toInt) = true) ∨
        ∃ y, b = .float y ∧ (x == y) = true := by
  cases b <;> simp [strictEquals]

theorem strictEqualsItems_iff : strictEqualsItems vs ws = true ↔
    List.Forall₂ (fun v w => v.strictEquals w = true) vs ws := by
  induction vs generalizing ws with
  | nil => cases ws with
    | nil => exact iff_of_true rfl .nil
    | cons w ws => exact iff_of_false nofun nofun
  | cons v vs ih => cases ws with
    | nil => exact iff_of_false nofun nofun
    | cons w ws => rw [List.forall₂_cons, ← ih]; exact Bool.and_eq_true_iff

theorem strictEqualsEntries_iff : strictEqualsEntries es fs = true ↔
    List.Forall₂ (fun e f => e.1 = f.1 ∧ e.2.strictEquals f.2 = true) es fs := by
  induction es generalizing fs with
  | nil => cases fs with
    | nil => exact iff_of_true rfl .nil
    | cons f fs => exact iff_of_false nofun nofun
  | cons e es ih => cases fs with
    | nil => exact iff_of_false nofun nofun
    | cons f fs =>
      have hcons : strictEqualsEntries (e :: es) (f :: fs) =
          (e.1 == f.1 && e.2.strictEquals f.2 && strictEqualsEntries es fs) := rfl
      rw [List.forall₂_cons, ← ih, hcons, Bool.and_eq_true_iff, Bool.and_eq_true_iff, beq_iff_eq]

theorem array_strictEquals_iff : (array vs).strictEquals b = true ↔
    ∃ ws, b = .array ws ∧ List.Forall₂ (fun v w => v.strictEquals w = true) vs ws := by
  cases b with
  | array ws =>
    have hitems : (array vs).strictEquals (.array ws) = strictEqualsItems vs ws := rfl
    simp [hitems, strictEqualsItems_iff]
  | _ => exact iff_of_false nofun nofun

theorem object_strictEquals_iff : (object es).strictEquals b = true ↔
    ∃ fs, b = .object fs ∧
      List.Forall₂ (fun e f => e.1 = f.1 ∧ e.2.strictEquals f.2 = true) es fs := by
  cases b with
  | object fs =>
    have hentries : (object es).strictEquals (.object fs) = strictEqualsEntries es fs := rfl
    simp [hentries, strictEqualsEntries_iff]
  | _ => exact iff_of_false nofun nofun

theorem strictEquals_object_iff_get? (hes : Entries.Ascending es) (hfs : Entries.Ascending fs) :
    (object es).strictEquals (.object fs) = true ↔
      es.length = fs.length ∧ ∀ key v, Entries.get? es key = some v →
        ∃ w, Entries.get? fs key = some w ∧ v.strictEquals w = true := by
  rw [← Entries.forall₂_iff_get? hes hfs, object_strictEquals_iff]
  simp

theorem strictEquals_symm (h : a.strictEquals b = true) : b.strictEquals a = true := by
  induction a using ind generalizing b with
  | atom v hn hc =>
    obtain rfl := (strictEquals_iff_eq hn hc).1 h
    exact h
  | integer m =>
    obtain rfl | ⟨y, rfl, hy⟩ := integer_strictEquals_iff.1 h
    · exact h
    · exact float_strictEquals_iff.2 (.inl ⟨m, rfl, BEq.symm hy⟩)
  | float x =>
    obtain ⟨n, rfl, hx⟩ | ⟨y, rfl, hx⟩ := float_strictEquals_iff.1 h
    · exact integer_strictEquals_iff.2 (.inr ⟨x, rfl, BEq.symm hx⟩)
    · exact float_strictEquals_iff.2 (.inr ⟨x, rfl, BEq.symm hx⟩)
  | array vs ih =>
    obtain ⟨ws, rfl, hws⟩ := array_strictEquals_iff.1 h
    have hsw := ((List.forall₂_and_left _ _).2 ⟨@ih, hws⟩).imp fun _ _ ⟨hv, h⟩ => hv h
    exact array_strictEquals_iff.2 ⟨vs, rfl, hsw.flip⟩
  | object es ih =>
    obtain ⟨fs, rfl, hfs⟩ := object_strictEquals_iff.1 h
    have hsf := ((List.forall₂_and_left _ _).2 ⟨@ih, hfs⟩).imp
      fun _ _ ⟨he, hkey, h⟩ => And.intro hkey.symm (he h)
    exact object_strictEquals_iff.2 ⟨es, rfl, hsf.flip⟩

theorem strictEquals_comm (a b : Value) : a.strictEquals b = b.strictEquals a :=
  Bool.eq_iff_iff.2 ⟨strictEquals_symm, strictEquals_symm⟩

theorem occurs_array_iff {u : Value} (hu : u.isContainer = false) :
    Occurs u (.array vs) ↔ ∃ v ∈ vs, Occurs u v := by
  constructor
  · intro h
    cases h with
    | here => cases hu
    | item hv h => exact ⟨_, hv, h⟩
  · rintro ⟨v, hv, h⟩
    exact .item hv h

theorem occurs_object_iff {u : Value} (hu : u.isContainer = false) :
    Occurs u (.object es) ↔ ∃ e ∈ es, Occurs u e.2 := by
  constructor
  · intro h
    cases h with
    | here => cases hu
    | entry he h => exact ⟨_, he, h⟩
  · rintro ⟨e, he, h⟩
    exact .entry he h

theorem occurs_iff_eq {u : Value} (hc : a.isContainer = false) : Occurs u a ↔ u = a := by
  constructor
  · intro h
    cases h with
    | here => rfl
    | item _ _ => cases hc
    | entry _ _ => cases hc
  · rintro rfl
    exact .here

theorem strictEquals_array_self_iff :
    (array vs).strictEquals (.array vs) = true ↔ ∀ v ∈ vs, v.strictEquals v = true := by
  rw [array_strictEquals_iff]
  simp [List.forall₂_same]

theorem strictEquals_object_self_iff :
    (object es).strictEquals (.object es) = true ↔ ∀ e ∈ es, e.2.strictEquals e.2 = true := by
  rw [object_strictEquals_iff]
  simp [List.forall₂_same]

theorem strictEquals_self_iff (a : Value) :
    a.strictEquals a = true ↔ ∀ x, Occurs (.float x) a → x.isNaN = false := by
  induction a using ind with
  | atom v hn hc =>
    refine iff_of_true ((strictEquals_iff_eq hn hc).2 rfl) fun x h => ?_
    rw [← (occurs_iff_eq hc).1 h] at hn
    cases hn
  | integer n =>
    refine iff_of_true (integer_strictEquals_iff.2 (.inl rfl)) fun x h => ?_
    cases h
  | float x =>
    have hx : (float x).strictEquals (.float x) = (x == x) := rfl
    have hocc : ∀ y, Occurs (.float y) (.float x) ↔ float y = .float x := fun y => occurs_iff_eq rfl
    simp [hx, hocc]
  | array vs ih =>
    rw [strictEquals_array_self_iff]
    constructor
    · intro h x hx
      obtain ⟨v, hv, hx⟩ := (occurs_array_iff rfl).1 hx
      exact (ih v hv).1 (h v hv) x hx
    · exact fun h v hv => (ih v hv).2 fun x hx => h x (.item hv hx)
  | object es ih =>
    rw [strictEquals_object_self_iff]
    constructor
    · intro h x hx
      obtain ⟨e, he, hx⟩ := (occurs_object_iff rfl).1 hx
      exact (ih e he).1 (h e he) x hx
    · exact fun h e he => (ih e he).2 fun x hx => h x (.entry he hx)

theorem strictEqualsItems_of_sameItems
    (ih : ∀ v ∈ vs, ∀ {w : Value}, v.same w = true → v.strictEquals w = true)
    (h : sameItems vs ws = true) : strictEqualsItems vs ws = true := by
  induction vs generalizing ws with
  | nil => cases ws with
    | nil => rfl
    | cons w ws => cases h
  | cons v vs ih' => cases ws with
    | nil => cases h
    | cons w ws =>
      obtain ⟨hv, hvs⟩ := Bool.and_eq_true_iff.1 h
      obtain ⟨ihv, ihvs⟩ := List.forall_mem_cons.1 ih
      exact Bool.and_eq_true_iff.2 ⟨ihv hv, ih' ihvs hvs⟩

theorem strictEqualsEntries_of_sameEntries
    (ih : ∀ e ∈ es, ∀ {w : Value}, e.2.same w = true → e.2.strictEquals w = true)
    (h : sameEntries es fs = true) : strictEqualsEntries es fs = true := by
  induction es generalizing fs with
  | nil => cases fs with
    | nil => rfl
    | cons f fs => cases h
  | cons e es ih' => cases fs with
    | nil => cases h
    | cons f fs =>
      obtain ⟨hef, hes⟩ := Bool.and_eq_true_iff.1 h
      obtain ⟨hkey, he⟩ := Bool.and_eq_true_iff.1 hef
      obtain ⟨ihe, ihes⟩ := List.forall_mem_cons.1 ih
      exact Bool.and_eq_true_iff.2 ⟨Bool.and_eq_true_iff.2 ⟨hkey, ihe he⟩, ih' ihes hes⟩

theorem strictEquals_of_same (h : a.same b = true) : a.strictEquals b = true := by
  induction a using ind generalizing b with
  | atom v hn hc => cases v <;> cases b <;> simp_all [same, strictEquals, isNumber, isContainer]
  | integer n =>
    cases b with
    | integer m => exact h
    | _ => cases h
  | float x =>
    cases b with
    | float y => exact h
    | _ => cases h
  | array vs ih =>
    cases b with
    | array ws => exact strictEqualsItems_of_sameItems @ih h
    | _ => cases h
  | object es ih =>
    cases b with
    | object fs => exact strictEqualsEntries_of_sameEntries @ih h
    | _ => cases h

/-- Strict equality is symmetric. A value equals itself unless it holds a not-a-number somewhere,
and what is the same as data is equal. Of two objects the entries of one are looked up in the
other. -/
theorem strictEquals_laws :
    (∀ a b : Value, a.strictEquals b = b.strictEquals a) ∧
    (∀ a : Value, a.strictEquals a = true ↔ ∀ x, Occurs (.float x) a → x.isNaN = false) ∧
    (∀ a b : Value, a.same b = true → a.strictEquals b = true) ∧
    ∀ es fs : Entries Value, Entries.Ascending es → Entries.Ascending fs →
      ((object es).strictEquals (.object fs) = true ↔
        es.length = fs.length ∧ ∀ key v, Entries.get? es key = some v →
          ∃ w, Entries.get? fs key = some w ∧ v.strictEquals w = true) :=
  ⟨strictEquals_comm, strictEquals_self_iff, fun _ _ => strictEquals_of_same,
    fun _ _ => strictEquals_object_iff_get?⟩

/-- Zeros of both signs are the same. Objects with different keys are not equal, though they are of
one size. -/
theorem strictEquals_laws_zeros :
    let a : Value := .array [.integer 1, .object [("k", .float 0)]]
    let b : Value := .array [.integer 1, .object [("k", .float (-0))]]
    a.strictEquals b = true ∧ b.strictEquals a = true ∧
      (object [("k", .null)]).strictEquals (.object [("l", .null)]) = false := by
  obtain ⟨hcomm, -, hsame, hobject⟩ := strictEquals_laws
  have hab := hsame (.array [.integer 1, .object [("k", .float 0)]])
    (.array [.integer 1, .object [("k", .float (-0))]]) (by decide)
  refine ⟨hab, hcomm _ _ ▸ hab, Bool.eq_false_iff.2 fun h => ?_⟩
  obtain ⟨-, hget⟩ := (hobject _ _ (by simp [Entries.Ascending]) (by simp [Entries.Ascending])).1 h
  obtain ⟨w, hw, -⟩ := hget "k" .null rfl
  cases hw

end Value

end TemplateBinding
