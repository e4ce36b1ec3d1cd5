import TemplateBinding.Json.Reader
import TemplateBinding.Proofs.Outcome
import TemplateBinding.Proofs.Value.Documents
import TemplateBinding.Value.Member
import TemplateBinding.Value.Operation

set_option autoImplicit false

namespace TemplateBinding

namespace Entries

variable {α β : Type} {entries : Entries α} {key : String} {value : α} {e : String × α}

theorem mem_of_get? (h : get? entries key = some value) : (key, value) ∈ entries := by
  induction entries with
  | nil => cases h
  | cons first entries ih =>
    rw [get?_cons] at h
    split at h
    · next hkey =>
      obtain rfl := Option.some.inj h
      exact hkey ▸ .head _
    · exact .tail _ (ih h)

theorem mem_of_mem_insert (h : e ∈ insert entries key value) : e = (key, value) ∨ e ∈ entries := by
  fun_induction insert entries key value with
  | case1 => exact .inl (List.mem_singleton.1 h)
  | case2 => exact List.mem_cons.1 h
  | case3 => exact (List.mem_cons.1 h).imp_right (.tail _)
  | case4 k v rest _ _ ih =>
    obtain rfl | h := List.mem_cons.1 h
    · exact .inr (.head _)
    · exact (ih h).imp_right (.tail _)

theorem Ascending.insert (h : Ascending entries) (key : String) (value : α) :
    Ascending (Entries.insert entries key value) := by
  fun_induction Entries.insert entries key value with
  | case1 => exact List.pairwise_singleton _ _
  | case2 k v rest hlt =>
    refine List.pairwise_cons.2 ⟨fun e he => ?_, h⟩
    obtain rfl | he := List.mem_cons.1 he
    · exact hlt
    · exact hlt.trans (List.rel_of_pairwise_cons h he)
  | case3 => exact List.pairwise_cons.2 (List.pairwise_cons.1 h)
  | case4 k v rest hlt hne ih =>
    obtain ⟨hfirst, hrest⟩ := List.pairwise_cons.1 h
    refine List.pairwise_cons.2 ⟨fun e he => ?_, ih hrest⟩
    obtain rfl | he := mem_of_mem_insert he
    · exact lt_of_le_of_ne (not_lt.1 hlt) (Ne.symm hne)
    · exact hfirst e he

theorem Ascending.map (h : Ascending entries) (f : α → β) :
    Ascending (entries.map fun e => (e.1, f e.2)) := List.pairwise_map.2 h

end Entries

namespace Json

def KeysAscend (j : Json) : Prop :=
  ∀ entries, Occurs (.object entries) j → Entries.Ascending entries

variable {items : List Json} {entries : List (String × Json)}

theorem keysAscend_array_iff : (array items).KeysAscend ↔ ∀ j ∈ items, j.KeysAscend := by
  constructor
  · exact fun h j hj es hes => h es (.item hj hes)
  · intro h es hes
    cases hes with
    | item hj hes => exact h _ hj es hes

theorem keysAscend_object_iff :
    (object entries).KeysAscend ↔
      Entries.Ascending entries ∧ ∀ e ∈ entries, e.2.KeysAscend := by
  constructor
  · exact fun h => ⟨h entries .here, fun e he es hes => h es (.entry he hes)⟩
  · rintro ⟨h, hvalues⟩ es hes
    cases hes with
    | here => exact h
    | entry he hes => exact hvalues _ he es hes

theorem keysAscend_nil : (array []).KeysAscend ∧ (object []).KeysAscend :=
  ⟨keysAscend_array_iff.2 nofun, keysAscend_object_iff.2 ⟨List.Pairwise.nil, nofun⟩⟩

theorem KeysAscend.insert (h : (object entries).KeysAscend) (key : String) {j : Json}
    (hj : j.KeysAscend) : (object (Entries.insert entries key j)).KeysAscend := by
  obtain ⟨hkeys, hvalues⟩ := keysAscend_object_iff.1 h
  refine keysAscend_object_iff.2 ⟨hkeys.insert key j, fun e he => ?_⟩
  obtain rfl | he := Entries.mem_of_mem_insert he
  · exact hj
  · exact hvalues e he

theorem KeysAscend.number? {negative : Bool} {n : Number.Numeral} {j : Json}
    (h : Json.number? negative n = some j) : j.KeysAscend := by
  unfold Json.number? at h
  dsimp only at h
  split at h
  · obtain rfl := Option.some.inj h
    rintro _ ⟨⟩
  · split at h
    · obtain rfl := Option.some.inj h
      rintro _ ⟨⟩
    · obtain ⟨x, -, rfl⟩ := Option.map_eq_some_iff.1 h
      rintro _ ⟨⟩

theorem KeysAscend.readNumber? {cs : List Char} {p : Parsed Json cs}
    (h : Json.readNumber? cs = some p) : p.value.KeysAscend := by
  simp only [Json.readNumber?, Option.ite_none_left_eq_some, Option.dite_none_right_eq_some,
    Option.map_eq_some_iff] at h
  obtain ⟨-, -, j, hj, rfl⟩ := h
  exact .number? hj

theorem KeysAscend.readWord? {cs : List Char} {p : Parsed Json cs}
    (h : Json.readWord? cs = some p) : p.value.KeysAscend := by
  unfold Json.readWord? at h
  split at h
  · obtain rfl := Option.some.inj h
    rintro _ ⟨⟩
  · obtain rfl := Option.some.inj h
    rintro _ ⟨⟩
  · obtain rfl := Option.some.inj h
    rintro _ ⟨⟩
  · cases h

theorem length_lt_of_skipBlanks {c : Char} {cs r : List Char} (h : skipBlanks cs = c :: r) :
    r.length < cs.length := by
  have hlength := skipBlanks_length cs
  rw [h, List.length_cons] at hlength
  omega

/-- What is read of texts shorter than `n` has ascending keys. -/
structure AscendBelow (n : Nat) : Prop where
  value : ∀ {levels : Nat} {cs : List Char} {p : Parsed Json cs}, cs.length < n →
    readValue? levels cs = some p → p.value.KeysAscend
  items : ∀ {levels : Nat} {read : List Json} {cs : List Char} {p : Parsed (List Json) cs},
    cs.length < n → (array read).KeysAscend → readItems? levels read cs = some p →
      (array p.value).KeysAscend
  entries : ∀ {levels : Nat} {read : List (String × Json)} {cs : List Char}
    {p : Parsed (List (String × Json)) cs}, cs.length < n → (object read).KeysAscend →
      readEntries? levels read cs = some p → (object p.value).KeysAscend

namespace AscendBelow

variable {n levels : Nat} {cs : List Char}

theorem value_succ (below : AscendBelow n) {p : Parsed Json cs} (hn : cs.length < n + 1)
    (h : readValue? levels cs = some p) : p.value.KeysAscend := by
  unfold readValue? at h
  split at h
  · obtain ⟨q, -, rfl⟩ := Option.map_eq_some_iff.1 h
    rintro _ ⟨⟩
  · split at h
    · cases h
    · split at h
      · obtain rfl := Option.some.inj h
        exact keysAscend_nil.1
      · obtain ⟨q, hq, rfl⟩ := Option.map_eq_some_iff.1 h
        exact below.items (Nat.lt_of_succ_lt_succ hn) keysAscend_nil.1 hq
  · split at h
    · cases h
    · split at h
      · obtain rfl := Option.some.inj h
        exact keysAscend_nil.2
      · obtain ⟨q, hq, rfl⟩ := Option.map_eq_some_iff.1 h
        exact below.entries (Nat.lt_of_succ_lt_succ hn) keysAscend_nil.2 hq
  · split at h
    · next hword =>
      obtain rfl := Option.some.inj h
      exact .readWord? hword
    · exact .readNumber? h

theorem items_succ (below : AscendBelow n) {read : List Json} {p : Parsed (List Json) cs}
    (hn : cs.length < n + 1) (hread : (array read).KeysAscend)
    (h : readItems? levels read cs = some p) : (array p.value).KeysAscend := by
  unfold readItems? at h
  split at h
  · cases h
  · next item hitem =>
    have hcs := skipBlanks_length cs
    have hrest := item.shorter
    have hread' := keysAscend_array_iff.2 (List.forall_mem_cons.2
      ⟨below.value_succ (by omega) hitem, keysAscend_array_iff.1 hread⟩)
    dsimp only at h
    split at h
    · next r hr =>
      obtain ⟨q, hq, rfl⟩ := Option.map_eq_some_iff.1 h
      have hshorter := length_lt_of_skipBlanks hr
      exact below.items (p := q) (by omega) hread' hq
    · obtain rfl := Option.some.inj h
      exact keysAscend_array_iff.2 fun j hj =>
        keysAscend_array_iff.1 hread' j (List.mem_reverse.1 hj)
    · cases h

theorem entries_succ (below : AscendBelow n) {read : List (String × Json)}
    {p : Parsed (List (String × Json)) cs} (hn : cs.length < n + 1)
    (hread : (object read).KeysAscend) (h : readEntries? levels read cs = some p) :
    (object p.value).KeysAscend := by
  unfold readEntries? at h
  split at h
  · next afterQuote hquote =>
    split at h
    · cases h
    · next key hkey =>
      split at h
      · next afterColon hcolon =>
        have hcs := length_lt_of_skipBlanks hquote
        have hkey' := key.shorter
        have hcolon' := length_lt_of_skipBlanks hcolon
        have hvalue := skipBlanks_length afterColon
        dsimp only at h
        split at h
        · cases h
        · next value hread? =>
          have hrest := value.shorter
          have hread' := hread.insert key.value (below.value_succ (by omega) hread?)
          split at h
          · next r hr =>
            obtain ⟨q, hq, rfl⟩ := Option.map_eq_some_iff.1 h
            have hshorter := length_lt_of_skipBlanks hr
            exact below.entries (p := q) (by omega) hread' hq
          · obtain rfl := Option.some.inj h
            exact hread'
          · cases h
      · cases h
  · cases h

end AscendBelow

theorem ascendBelow (n : Nat) : AscendBelow n := by
  induction n with
  | zero =>
    have hlt (cs : List Char) : ¬cs.length < 0 := Nat.not_lt_zero _
    exact ⟨fun h => absurd h (hlt _), fun h => absurd h (hlt _), fun h => absurd h (hlt _)⟩
  | succ n ih => exact ⟨ih.value_succ, ih.items_succ, ih.entries_succ⟩

theorem keysAscend_of_parse? {levels : Nat} {text : String} {j : Json}
    (h : parse? levels text = some j) : j.KeysAscend := by
  unfold parse? at h
  split at h
  · next p hp =>
    obtain ⟨-, hj⟩ := Option.ite_none_right_eq_some.1 h
    obtain rfl := Option.some.inj hj
    exact (ascendBelow _).value (Nat.lt_succ_self _) hp
  · cases h

end Json

namespace Value

/-- All objects in the value have ascending keys. -/
def KeysAscend (v : Value) : Prop :=
  ∀ entries, Occurs (.object entries) v → Entries.Ascending entries

variable {v w : Value} {items args : List Value} {entries : List (String × Value)}

theorem keysAscend_array_iff : (array items).KeysAscend ↔ ∀ v ∈ items, v.KeysAscend := by
  constructor
  · exact fun h v hv es hes => h es (.item hv hes)
  · intro h es hes
    cases hes with
    | item hv hes => exact h _ hv es hes

theorem keysAscend_object_iff :
    (object entries).KeysAscend ↔
      Entries.Ascending entries ∧ ∀ e ∈ entries, e.2.KeysAscend := by
  constructor
  · exact fun h => ⟨h entries .here, fun e he es hes => h es (.entry he hes)⟩
  · rintro ⟨h, hvalues⟩ es hes
    cases hes with
    | here => exact h
    | entry he hes => exact hvalues _ he es hes

theorem keysAscend_of_isContainer (h : v.isContainer = false) : v.KeysAscend := by
  intro es hes
  rw [← (occurs_iff_eq h).1 hes] at h
  cases h

theorem KeysAscend.insert (h : (object entries).KeysAscend) (key : String)
    (hv : v.KeysAscend) : (object (Entries.insert entries key v)).KeysAscend := by
  obtain ⟨hkeys, hvalues⟩ := keysAscend_object_iff.1 h
  refine keysAscend_object_iff.2 ⟨hkeys.insert key v, fun e he => ?_⟩
  obtain rfl | he := Entries.mem_of_mem_insert he
  · exact hv
  · exact hvalues e he

theorem isContainer_ofWhole (n : Int) : (ofWhole n).isContainer = false := by
  unfold ofWhole
  split <;> rfl

theorem KeysAscend.ofJson {j : Json} (h : j.KeysAscend) : (Value.ofJson j).KeysAscend := by
  induction j using Json.ind with
  | integer n => exact keysAscend_of_isContainer (isContainer_ofWhole n)
  | array items ih =>
    rw [ofJson_array, keysAscend_array_iff, List.forall_mem_map]
    exact fun j hj => ih j hj (Json.keysAscend_array_iff.1 h j hj)
  | object entries ih =>
    obtain ⟨hkeys, hvalues⟩ := Json.keysAscend_object_iff.1 h
    rw [ofJson_object, keysAscend_object_iff, List.forall_mem_map]
    exact ⟨hkeys.map _, fun e he => ih e he (hvalues e he)⟩
  | _ => exact keysAscend_of_isContainer rfl

theorem KeysAscend.toJson (h : v.KeysAscend) : v.toJson.KeysAscend := by
  induction v using ind with
  | atom v hn hc =>
    cases v with
    | integer _ | float _ => cases hn
    | array _ | object _ => cases hc
    | _ => rintro _ ⟨⟩
  | integer n => rintro _ ⟨⟩
  | float x =>
    unfold Value.toJson
    split <;> rintro _ ⟨⟩
  | array items ih =>
    rw [toJson_array, Json.keysAscend_array_iff, List.forall_mem_map]
    exact fun v hv => ih v hv (keysAscend_array_iff.1 h v hv)
  | object entries ih =>
    obtain ⟨hkeys, hvalues⟩ := keysAscend_object_iff.1 h
    rw [toJson_object, Json.keysAscend_object_iff, List.forall_mem_map]
    exact ⟨hkeys.map _, fun e he => ih e he (hvalues e he)⟩

theorem KeysAscend.get? {name : String} (h : v.KeysAscend) (hw : v.get? name = some w) :
    w.KeysAscend := by
  cases v with
  | object entries => exact (keysAscend_object_iff.1 h).2 _ (Entries.mem_of_get? hw)
  | array items =>
    unfold Value.get? at hw
    dsimp only at hw
    split at hw
    · obtain rfl := Option.some.inj hw
      exact keysAscend_of_isContainer rfl
    · obtain ⟨i, -, hi⟩ := Option.bind_eq_some_iff.1 hw
      exact keysAscend_array_iff.1 h _ (List.mem_of_getElem? hi)
  | string s =>
    unfold Value.get? at hw
    dsimp only at hw
    split at hw
    · obtain rfl := Option.some.inj hw
      exact keysAscend_of_isContainer rfl
    · obtain ⟨c, -, rfl⟩ := Option.map_eq_some_iff.1 hw
      exact keysAscend_of_isContainer rfl
  | function f =>
    unfold Value.get? at hw
    dsimp only at hw
    split at hw
    · obtain rfl := Option.some.inj hw
      exact keysAscend_of_isContainer rfl
    · split at hw
      · obtain rfl := Option.some.inj hw
        exact keysAscend_of_isContainer rfl
      · cases hw
  | _ => cases hw

theorem keysAscend_undefined : undefined.KeysAscend := keysAscend_of_isContainer rfl

theorem KeysAscend.getD {o : Option Value} (h : ∀ w, o = some w → w.KeysAscend) :
    (o.getD .undefined).KeysAscend := by
  cases o with
  | none => exact keysAscend_undefined
  | some w => exact h w rfl

theorem KeysAscend.walk (h : v.KeysAscend) (names : List String) : (v.walk names).KeysAscend := by
  induction names generalizing v with
  | nil => exact h
  | cons name names ih =>
    rw [Value.walk]
    split
    · next w hw => exact ih (h.get? hw)
    · exact keysAscend_undefined

end Value

end TemplateBinding
