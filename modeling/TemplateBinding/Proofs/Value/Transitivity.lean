import TemplateBinding.Proofs.Number.Rounding
import TemplateBinding.Proofs.Value.Equality
import TemplateBinding.Value.Method

set_option autoImplicit false

namespace TemplateBinding

namespace Value

/-- At one place of all three values, a float stands between different words. -/
inductive Blurs : Value → Value → Value → Prop where
  | number {m n : Int64} {x : Float} : m ≠ n → Blurs (.integer m) (.float x) (.integer n)
  | item {us vs ws : List Value} {u v w : Value} {i : Nat} :
      us[i]? = some u → vs[i]? = some v → ws[i]? = some w → Blurs u v w →
        Blurs (.array us) (.array vs) (.array ws)
  | entry {ds es fs : List (String × Value)} {key : String} {u v w : Value} {i : Nat} :
      ds[i]? = some (key, u) → es[i]? = some (key, v) → fs[i]? = some (key, w) → Blurs u v w →
        Blurs (.object ds) (.object es) (.object fs)

theorem forall₂_trans_iff {α : Type} {R : α → α → Prop} {B : α → α → α → Prop} {us vs ws : List α}
    (h : ∀ u ∈ us, ∀ v w, R u v → R v w → (R u w ↔ ¬B u v w)) (huv : List.Forall₂ R us vs)
    (hvw : List.Forall₂ R vs ws) :
    List.Forall₂ R us ws ↔
      ¬∃ (i : Nat) (u v w : α), us[i]? = some u ∧ vs[i]? = some v ∧ ws[i]? = some w ∧ B u v w := by
  induction huv generalizing ws with
  | nil =>
    cases hvw
    simp
  | @cons u v us vs hu _ ih =>
    cases hvw with
    | @cons _ w _ ws hv hvw =>
      obtain ⟨hhead, htail⟩ := List.forall_mem_cons.1 h
      rw [List.forall₂_cons, hhead v w hu hv, ih htail hvw, ← not_or]
      refine not_congr ⟨?_, ?_⟩
      · rintro (hB | ⟨i, hi⟩)
        · exact ⟨0, u, v, w, rfl, rfl, rfl, hB⟩
        · exact ⟨i + 1, hi⟩
      · rintro ⟨_ | i, u', v', w', hu', hv', hw', hB⟩
        · obtain rfl := Option.some.inj hu'
          obtain rfl := Option.some.inj hv'
          obtain rfl := Option.some.inj hw'
          exact .inl hB
        · exact .inr ⟨i, u', v', w', hu', hv', hw', hB⟩

variable {a b c : Value} {us vs ws : List Value} {ds es fs : List (String × Value)}

theorem not_blurs_of_atom (hn : a.isNumber = false) (hc : a.isContainer = false) :
    ¬Blurs a b c := by
  intro h
  cases h <;> simp_all [isNumber, isContainer]

theorem blurs_integer_iff {m n : Int64} {x : Float} :
    Blurs (.integer m) (.float x) (.integer n) ↔ m ≠ n := by
  constructor
  · rintro ⟨h⟩
    exact h
  · exact .number

theorem blurs_array_iff : Blurs (.array us) (.array vs) (.array ws) ↔
    ∃ (i : Nat) (u v w : Value),
      us[i]? = some u ∧ vs[i]? = some v ∧ ws[i]? = some w ∧ Blurs u v w := by
  constructor
  · rintro (_ | ⟨hu, hv, hw, h⟩)
    exact ⟨_, _, _, _, hu, hv, hw, h⟩
  · rintro ⟨i, u, v, w, hu, hv, hw, h⟩
    exact .item hu hv hw h

theorem blurs_object_iff : Blurs (.object ds) (.object es) (.object fs) ↔
    ∃ (i : Nat) (d e f : String × Value), ds[i]? = some d ∧ es[i]? = some e ∧ fs[i]? = some f ∧
      d.1 = e.1 ∧ e.1 = f.1 ∧ Blurs d.2 e.2 f.2 := by
  constructor
  · rintro (_ | _ | ⟨hd, he, hf, h⟩)
    exact ⟨_, _, _, _, hd, he, hf, rfl, rfl, h⟩
  · rintro ⟨i, ⟨key, u⟩, ⟨_, v⟩, ⟨_, w⟩, hd, he, hf, rfl, rfl, h⟩
    exact .entry hd he hf h

theorem strictEquals_trans_iff (hab : a.strictEquals b = true) (hbc : b.strictEquals c = true) :
    a.strictEquals c = true ↔ ¬Blurs a b c := by
  induction a using ind generalizing b c with
  | atom v hn hc =>
    obtain rfl := (strictEquals_iff_eq hn hc).1 hab
    exact iff_of_true hbc (not_blurs_of_atom hn hc)
  | integer m =>
    obtain rfl | ⟨y, rfl, hy⟩ := integer_strictEquals_iff.1 hab
    · exact iff_of_true hbc (by rintro ⟨⟩)
    · obtain ⟨n, rfl, -⟩ | ⟨z, rfl, hz⟩ := float_strictEquals_iff.1 hbc
      · rw [blurs_integer_iff, ne_eq, not_not]
        exact beq_iff_eq
      · exact iff_of_true (integer_strictEquals_iff.2 (.inr ⟨z, rfl, BEq.trans hy hz⟩))
          (by rintro ⟨⟩)
  | float x =>
    refine iff_of_true (float_strictEquals_iff.2 ?_) (by rintro ⟨⟩)
    obtain ⟨n, rfl, hn⟩ | ⟨y, rfl, hy⟩ := float_strictEquals_iff.1 hab
    · obtain rfl | ⟨z, rfl, hz⟩ := integer_strictEquals_iff.1 hbc
      · exact .inl ⟨n, rfl, hn⟩
      · exact .inr ⟨z, rfl, BEq.trans hn hz⟩
    · obtain ⟨n, rfl, hn⟩ | ⟨z, rfl, hz⟩ := float_strictEquals_iff.1 hbc
      · exact .inl ⟨n, rfl, BEq.trans hy hn⟩
      · exact .inr ⟨z, rfl, BEq.trans hy hz⟩
  | array us ih =>
    obtain ⟨vs, rfl, huv⟩ := array_strictEquals_iff.1 hab
    obtain ⟨ws, rfl, hvw⟩ := array_strictEquals_iff.1 hbc
    have hequals : (array us).strictEquals (.array ws) = true ↔
        List.Forall₂ (fun u w => u.strictEquals w = true) us ws := strictEqualsItems_iff
    rw [hequals, blurs_array_iff]
    exact forall₂_trans_iff (fun u hu _ _ => ih u hu) huv hvw
  | object ds ih =>
    obtain ⟨es, rfl, hde⟩ := object_strictEquals_iff.1 hab
    obtain ⟨fs, rfl, hef⟩ := object_strictEquals_iff.1 hbc
    have hequals : (object ds).strictEquals (.object fs) = true ↔
        List.Forall₂ (fun d f => d.1 = f.1 ∧ d.2.strictEquals f.2 = true) ds fs :=
      strictEqualsEntries_iff
    rw [hequals, blurs_object_iff]
    refine forall₂_trans_iff (fun d hd e f ⟨hkey, hval⟩ ⟨hkey', hval'⟩ => ?_) hde hef
    rw [hkey, hkey', ih d hd hval hval']
    simp

theorem rel_of_forall₂ {α β : Type} {R : α → β → Prop} {l : List α} {l' : List β} {i : Nat}
    {x : α} {y : β} (h : List.Forall₂ R l l') (hx : l[i]? = some x) (hy : l'[i]? = some y) :
    R x y := by
  obtain ⟨hi, rfl⟩ := List.getElem?_eq_some_iff.1 hx
  obtain ⟨hi', rfl⟩ := List.getElem?_eq_some_iff.1 hy
  exact h.get hi hi'

/-- Words that meet at a float, though they differ, are not both small. -/
theorem Blurs.exists_occurs (h : Blurs a b c) (hab : a.strictEquals b = true)
    (hbc : b.strictEquals c = true) :
    ∃ n : Int64, 2 ^ 53 < n.toInt.natAbs ∧ (Occurs (.integer n) a ∨ Occurs (.integer n) c) := by
  induction h with
  | @number m n x hne =>
    obtain hm | hm := Nat.lt_or_ge (2 ^ 53) m.toInt.natAbs
    · exact ⟨m, hm, .inl .here⟩
    · obtain hn | hn := Nat.lt_or_ge (2 ^ 53) n.toInt.natAbs
      · exact ⟨n, hn, .inr .here⟩
      · have hrounded := (Number.holds_ofInt_toInt m).eq_of_beq (Number.holds_ofInt_toInt n)
          (BEq.trans (b := x) hab hbc)
        rw [Number.rounded_eq_self hm, Number.rounded_eq_self hn] at hrounded
        exact absurd (Int64.toInt_inj.1 hrounded) hne
  | item hu hv hw _ ih =>
    have huv := rel_of_forall₂ (strictEqualsItems_iff.1 hab) hu hv
    have hvw := rel_of_forall₂ (strictEqualsItems_iff.1 hbc) hv hw
    obtain ⟨n, hn, h⟩ := ih huv hvw
    exact ⟨n, hn, h.imp (.item (List.mem_of_getElem? hu)) (.item (List.mem_of_getElem? hw))⟩
  | entry hd he hf _ ih =>
    have hde := rel_of_forall₂ (strictEqualsEntries_iff.1 hab) hd he
    have hef := rel_of_forall₂ (strictEqualsEntries_iff.1 hbc) he hf
    obtain ⟨n, hn, h⟩ := ih hde.2 hef.2
    exact ⟨n, hn, h.imp (.entry (List.mem_of_getElem? hd)) (.entry (List.mem_of_getElem? hf))⟩

/-- A search compares all items with the needle; an equal needle gives the same answers. -/
theorem callMethod_eq_of_strictEquals {items : List Value} {x y : Value} {method : String}
    (hmethod : method ∈ ["includes", "indexOf"]) (hxy : x.strictEquals y = true)
    (h : ∀ v ∈ items, ¬Blurs v x y ∧ ¬Blurs v y x) :
    (Value.array items).callMethod method [x] = (Value.array items).callMethod method [y] := by
  have hmap : items.map (strictEquals · x) = items.map (strictEquals · y) := by
    refine List.map_congr_left fun v hv => Bool.eq_iff_iff.2 ⟨fun hvx => ?_, fun hvy => ?_⟩
    · exact (strictEquals_trans_iff hvx hxy).2 (h v hv).1
    · exact (strictEquals_trans_iff hvy (strictEquals_symm hxy)).2 (h v hv).2
  have hany (z : Value) : items.any (strictEquals · z) = (items.map (strictEquals · z)).any id := by
    rw [List.any_map]
    rfl
  have hfind (z : Value) :
      items.findIdx? (strictEquals · z) = (items.map (strictEquals · z)).findIdx? id := by
    rw [List.findIdx?_map]
    rfl
  simp only [List.mem_cons, List.not_mem_nil, or_false] at hmethod
  obtain rfl | rfl := hmethod
  · show Except.ok (Value.boolean _) = Except.ok (Value.boolean _)
    rw [hany x, hany y, hmap]
  · show Except.ok (ofPosition _) = Except.ok (ofPosition _)
    rw [hfind x, hfind y, hmap]

/-- What equals a value that equals another is equal to that one, unless somewhere inside a float
stands between two different words, of which one is beyond `2 ^ 53`. So a search in an array does
not depend on which of two equal needles it is for, unless the needles and an item are such
values. -/
theorem strictEquals_transitive :
    (∀ a b c : Value, a.strictEquals b = true → b.strictEquals c = true →
      (a.strictEquals c = true ↔ ¬Blurs a b c)) ∧
    (∀ a b c : Value, a.strictEquals b = true → b.strictEquals c = true → Blurs a b c →
      ∃ n : Int64, 2 ^ 53 < n.toInt.natAbs ∧ (Occurs (.integer n) a ∨ Occurs (.integer n) c)) ∧
    ∀ (items : List Value) (x y : Value), x.strictEquals y = true →
      (∀ v ∈ items, ¬Blurs v x y ∧ ¬Blurs v y x) → ∀ method ∈ ["includes", "indexOf"],
        (Value.array items).callMethod method [x] = (Value.array items).callMethod method [y] :=
  ⟨fun _ _ _ => strictEquals_trans_iff, fun _ _ _ hab hbc h => h.exists_occurs hab hbc,
    fun _ _ _ hxy h _ hmethod => callMethod_eq_of_strictEquals hmethod hxy h⟩

/-- A small word and the float of it are the same needle. Where they are not, there is a greater
word. -/
theorem strictEquals_transitive_one :
    let one : Value := .array [.integer 1]
    let float : Value := .array [.float (Number.ofInt 1)]
    one.strictEquals one = true ∧
      (Value.array [.null, one]).callMethod "indexOf" [float] =
        (Value.array [.null, one]).callMethod "indexOf" [one] ∧
      ∃ n : Int64, 2 ^ 53 < n.toInt.natAbs ∧
        (Occurs (.integer n) (.integer 9007199254740993) ∨
          Occurs (.integer n) (.integer 9007199254740992)) := by
  intro one float
  obtain ⟨htrans, hgreat, hsearch⟩ := strictEquals_transitive
  have hleft : one.strictEquals float = true := by decide
  have hright : float.strictEquals one = true := by decide
  have hself : one.strictEquals one = true := by decide
  refine ⟨hself, hsearch _ float one hright ?_ _ (by decide), ?_⟩
  · intro v hv
    simp only [List.mem_cons, List.not_mem_nil, or_false] at hv
    obtain rfl | rfl := hv
    · exact ⟨not_blurs_of_atom rfl rfl, not_blurs_of_atom rfl rfl⟩
    · exact ⟨(htrans one float one hleft hright).1 hself,
        (htrans one one float hself hleft).1 hleft⟩
  · exact hgreat _ (.float (Number.ofInt 9007199254740992)) _ (by decide) (by decide)
      (.number (by decide))

/-- `2 ^ 53` and the word after it both equal the float that is `2 ^ 53`, and not each other. A
search for the float finds the second, and a search for the first does not. -/
theorem strictEquals_not_transitive :
    let a : Value := .integer 9007199254740993
    let b : Value := .float (Number.ofInt 9007199254740992)
    let c : Value := .integer 9007199254740992
    a.strictEquals b = true ∧ b.strictEquals c = true ∧ a.strictEquals c = false ∧
      (Value.array [a]).callMethod "includes" [b] = .ok (.boolean true) ∧
      (Value.array [a]).callMethod "includes" [c] = .ok (.boolean false) := by
  exact ⟨by decide, by decide, by decide, rfl, rfl⟩

end Value

end TemplateBinding
