import TemplateBinding.Proofs.Text.Occurrences
import TemplateBinding.Proofs.Value.Comparison
import TemplateBinding.Proofs.Value.Slicing

set_option autoImplicit false

namespace TemplateBinding.Value

theorem apply_of_words {op : Arithmetic} {m n w : Int64} (h : op.words m n = some w) :
    op.apply (.integer m) (.integer n) = .integer w := by
  rw [Arithmetic.apply_integers, h]
  rfl

theorem add_ofNat {i m : Nat} (h : i + m < 2 ^ 63) :
    (Value.integer (Int64.ofNat i)).add (.integer (Int64.ofNat m)) =
      .integer (Int64.ofNat (i + m)) := by
  have hwords : Arithmetic.add.words (Int64.ofNat i) (Int64.ofNat m) =
      some (Int64.ofNat (i + m)) := by
    refine Number.word?_eq_some_iff.2 ?_
    rw [Int64.toInt_ofNat_of_lt h, Int64.toInt_ofNat_of_lt (n := i) (by omega),
      Int64.toInt_ofNat_of_lt (n := m) (by omega), Int.natCast_add]
  exact apply_of_words hwords

theorem subtract_ofNat {i m : Nat} (hi : i < 2 ^ 63) (h : m ≤ i) :
    Arithmetic.subtract.apply (.integer (Int64.ofNat i)) (.integer (Int64.ofNat m)) =
      .integer (Int64.ofNat (i - m)) := by
  refine apply_of_words (Number.word?_eq_some_iff.2 ?_)
  rw [Int64.toInt_ofNat_of_lt hi, Int64.toInt_ofNat_of_lt (n := m) (by omega),
    Int64.toInt_ofNat_of_lt (n := i - m) (by omega), Int.natCast_sub h]

variable {α : Type} {items : List α} {length : Nat}

theorem slicePosition_ofNat (hl : length < 2 ^ 53) {i : Nat} (hi : i < 2 ^ 63) (default : Nat) :
    slicePosition length (some (.integer (Int64.ofNat i))) default = min i length := by
  have hword := Int64.toInt_ofNat_of_lt hi
  have hv : Value.integer (Int64.ofNat i) ≠ .undefined := nofun
  rw [slicePosition_some hv, relativePosition_integer hl (by omega), hword, Int.toNat_natCast]

theorem slice_window (hl : items.length < 2 ^ 53) {i m : Nat} (h : i + m < 2 ^ 63) :
    slice items [.integer (Int64.ofNat i),
      (Value.integer (Int64.ofNat i)).add (.integer (Int64.ofNat m))] =
        (items.drop i).take m := by
  rw [add_ofNat h, slice_eq_between, between_eq, List.getElem?_cons_zero,
    List.getElem?_cons_succ, List.getElem?_cons_zero, slicePosition_ofNat hl (by omega),
    slicePosition_ofNat hl h, List.drop_take]
  obtain hi | hi := Nat.le_total i items.length
  · rw [Nat.min_eq_left hi]
    refine (List.take_eq_take_min ..).trans (Eq.trans ?_ (List.take_eq_take_min ..).symm)
    rw [List.length_drop]
    congr 1
    omega
  · rw [Nat.min_eq_right hi, List.drop_length, List.drop_eq_nil_of_le hi, List.take_nil,
      List.take_nil]

theorem slice_prefix (items : List α) (args : List Value) :
    slice items args <+: items.drop (slicePosition items.length args[0]? 0) := by
  rw [slice_eq_between, between_eq, List.drop_take]
  exact List.take_prefix _ _

theorem lessThan_holds_integer_iff {m n : Int64} :
    Operator.lessThan.Holds (.integer m) (.integer n) ↔ m.toInt < n.toInt := by
  rw [Operator.lessThan_holds_iff, ← Int64.lt_iff_toInt_lt]
  exact Option.some_inj.trans Std.compare_eq_lt

theorem lessEqual_holds_integer_iff {m n : Int64} :
    Operator.lessEqual.Holds (.integer m) (.integer n) ↔ m.toInt ≤ n.toInt := by
  have horder : Value.order? (.integer m) (.integer n) = some (compare m n) := rfl
  rw [Operator.lessEqual_holds_iff, horder, Option.some_inj, Option.some_inj,
    ← Ordering.isLE_iff_eq_lt_or_eq_eq, Std.isLE_compare, Int64.le_iff_toInt_le]

theorem relativePosition_lt_of_holds (hl : length < 2 ^ 53) {i : Nat} (hi : i ≤ length) {j : Value}
    (hj : j.isNumber = true) (h0 : Operator.lessEqual.Holds (.integer 0) j)
    (hlt : Operator.lessThan.Holds j (.integer (Int64.ofNat i))) :
    relativePosition length j.number < i := by
  have hword : (Int64.ofNat i).toInt = i := Int64.toInt_ofNat_of_lt (by omega)
  have hrounded : Number.rounded i = i := Number.rounded_eq_self (by omega)
  cases j with
  | integer m =>
    rw [lessEqual_holds_integer_iff] at h0
    rw [lessThan_holds_integer_iff, hword] at hlt
    rw [relativePosition_integer hl h0]
    rw [Int64.toInt_zero] at h0
    omega
  | float x =>
    have hzero : (Value.integer 0).place? = some 0 := rfl
    have hplace : (Value.integer (Int64.ofNat i)).place? = some (i : ℚ) := by
      rw [place?, number, Number.place_ofInt, hword, hrounded, Int.cast_natCast]
    rw [Operator.lessThan_holds_iff] at hlt
    obtain ⟨q, r, hq, hr, hqr⟩ := (order?_eq_lt_iff hj rfl).1 hlt
    obtain rfl := Option.some.inj (hplace.symm.trans hr)
    have hqi : q < i := hqr.resolve_right fun htie => by cases htie.2
    have horder : Value.order? (.integer 0) (.float x) = some (compare 0 q) := by
      rw [order?_eq rfl hj, hzero, hq]
      exact congrArg some Ordering.then_eq
    rw [Operator.lessEqual_holds_iff, horder, Option.some_inj, Option.some_inj, compare_lt_iff_lt,
      compare_eq_iff_eq] at h0
    exact relativePosition_lt hl hi hq (le_iff_lt_or_eq.2 h0) hqi
  | _ => cases hj

/-- A slice of `s` is taken, and compared with `n`; the answer is `yes`. -/
def SliceIs (s n : String) (args : List Value) (yes : Bool) : Prop :=
  ∃ v, callMethod (.string s) "slice" args = .ok v ∧ v.strictEquals (.string n) = yes

/-- What the searches of `s` for `n` tell. The position is `k`, or `-1` for none, and `length` and
`size` are the lengths of `s` and of `n`. -/
structure SearchesAgree (s n : String) (k length size : Int64) : Prop where
  least : -1 ≤ k
  /-- At the position the slice is `n`, and from no number before it. -/
  first : 0 ≤ k →
    SliceIs s n [.integer k, (Value.integer k).add (.integer size)] true ∧
      ∀ j : Value, j.isNumber = true → Operator.lessEqual.Holds (.integer 0) j →
        Operator.lessThan.Holds j (.integer k) → SliceIs s n [j, j.add (.integer size)] false
  /-- There is no position just when the slice is `n` from no number. -/
  missing : k = -1 ↔
    ∀ j : Value, j.isNumber = true → Operator.lessEqual.Holds (.integer 0) j →
      SliceIs s n [j, j.add (.integer size)] false
  holding : callMethod (.string s) "includes" [.string n] = .ok (.boolean (0 ≤ k))
  start : callMethod (.string s) "startsWith" [.string n] = .ok (.boolean (k = 0))
  /-- It ends with `n` just when the slice that is left before the end is `n`. -/
  stop : ∃ yes, callMethod (.string s) "endsWith" [.string n] = .ok (.boolean yes) ∧
    (yes = true ↔ size ≤ length ∧
      SliceIs s n [Arithmetic.subtract.apply (.integer length) (.integer size)] true)

variable {s n : String} {args : List Value}

theorem ofChars_strictEquals (cs : List Char) (n : String) :
    (ofChars cs).strictEquals (.string n) = (cs == n.toList) := by
  rw [ofChars, strictEquals, Bool.eq_iff_iff, beq_iff_eq, beq_iff_eq, String.ext_iff,
    String.toList_ofList]

theorem sliceIs_of_slice {yes : Bool} (hargs : args.length ≤ 2)
    (h : (slice s.toList args == n.toList) = yes) : SliceIs s n args yes :=
  ⟨_, slices_string s args hargs, (ofChars_strictEquals _ n).trans h⟩

theorem SliceIs.slice_beq {yes : Bool} (h : SliceIs s n args yes) (hargs : args.length ≤ 2) :
    (slice s.toList args == n.toList) = yes := by
  obtain ⟨v, hv, hyes⟩ := h
  rw [slices_string s args hargs] at hv
  rw [← ofChars_strictEquals, Except.ok.inj hv, hyes]

theorem sliceIs_false_of_not_prefix {j : Value} (hj : j.isNumber = true)
    (h : ¬n.toList <+: s.toList.drop (relativePosition s.toList.length j.number)) (stop : Value) :
    SliceIs s n [j, stop] false := by
  have hdefined : j ≠ .undefined := by
    rintro rfl
    cases hj
  refine sliceIs_of_slice (Nat.le_refl 2) (beq_eq_false_iff_ne.2 fun heq => ?_)
  have hprefix := slice_prefix s.toList [j, stop]
  rw [heq, List.getElem?_cons_zero, slicePosition_some hdefined] at hprefix
  exact h hprefix

theorem sliceIs_true_of_prefix (hs : s.toList.length < 2 ^ 53) {i : Nat}
    (hi : i + n.toList.length < 2 ^ 63) (h : n.toList <+: s.toList.drop i) :
    SliceIs s n [.integer (Int64.ofNat i),
      (Value.integer (Int64.ofNat i)).add (.integer (Int64.ofNat n.toList.length))] true := by
  refine sliceIs_of_slice (Nat.le_refl 2) (beq_iff_eq.2 ?_)
  rw [slice_window hs hi]
  exact (List.prefix_iff_eq_take.1 h).symm

theorem get?_length (s : String) :
    (Value.string s).get? "length" = some (.integer (Int64.ofNat s.toList.length)) := rfl

theorem callMethod_search (s n : String) :
    callMethod (.string s) "indexOf" [.string n] =
        .ok (ofPosition (Text.firstMatch n.toList s.toList)) ∧
      callMethod (.string s) "includes" [.string n] =
        .ok (.boolean (Text.firstMatch n.toList s.toList).isSome) ∧
      callMethod (.string s) "startsWith" [.string n] =
        .ok (.boolean (n.toList.isPrefixOf s.toList)) ∧
      callMethod (.string s) "endsWith" [.string n] =
        .ok (.boolean (n.toList.isSuffixOf s.toList)) := by
  rw [← Text.find_eq_firstMatch]
  exact ⟨rfl, rfl, rfl, rfl⟩

/-- A text ends with `n` just when what a slice leaves of it, from the place on where `n` has to
start, is `n`. -/
theorem isSuffixOf_iff_slice (hs : s.toList.length < 2 ^ 53) (hn : n.toList.length < 2 ^ 53) :
    n.toList.isSuffixOf s.toList = true ↔
      Int64.ofNat n.toList.length ≤ Int64.ofNat s.toList.length ∧
        SliceIs s n [Arithmetic.subtract.apply (.integer (Int64.ofNat s.toList.length))
          (.integer (Int64.ofNat n.toList.length))] true := by
  rw [List.isSuffixOf_iff_suffix, Int64.ofNat_le_iff_le (by omega) (by omega)]
  have hrest (hle : n.toList.length ≤ s.toList.length) :
      slice s.toList [Arithmetic.subtract.apply (.integer (Int64.ofNat s.toList.length))
        (.integer (Int64.ofNat n.toList.length))] =
          s.toList.drop (s.toList.length - n.toList.length) := by
    have hword : (Int64.ofNat (s.toList.length - n.toList.length)).toInt =
        (s.toList.length - n.toList.length : Nat) := Int64.toInt_ofNat_of_lt (by omega)
    have hdefined (j : Int64) : Value.integer j ≠ .undefined := nofun
    rw [subtract_ofNat (by omega) hle, slice_from s.toList (hdefined _),
      relativePosition_integer hs (by omega), hword, Int.toNat_natCast,
      Nat.min_eq_left (Nat.sub_le _ _)]
  constructor
  · intro h
    refine ⟨h.length_le, sliceIs_of_slice (Nat.le_succ 1) (beq_iff_eq.2 ?_)⟩
    rw [hrest h.length_le]
    exact (List.suffix_iff_eq_drop.1 h).symm
  · rintro ⟨hle, h⟩
    have heq := beq_iff_eq.1 (h.slice_beq (Nat.le_succ 1))
    rw [hrest hle] at heq
    exact List.suffix_iff_eq_drop.2 heq.symm

theorem searchesAgree_of_none (hs : s.toList.length < 2 ^ 53) (hn : n.toList.length < 2 ^ 53)
    (hk : Text.firstMatch n.toList s.toList = none) :
    SearchesAgree s n (-1) (Int64.ofNat s.toList.length) (Int64.ofNat n.toList.length) := by
  obtain ⟨-, hincludes, hstarts, hends⟩ := callMethod_search s n
  have hnone := Text.not_prefix_drop_of_firstMatch_eq_none hk
  refine ⟨by decide, fun h => absurd h (by decide), ⟨fun _ j hj _ => ?_, fun _ => rfl⟩, ?_, ?_,
    _, hends, isSuffixOf_iff_slice hs hn⟩
  · exact sliceIs_false_of_not_prefix hj (hnone _) _
  · rw [hincludes, hk]
    rfl
  · have hstart : n.toList.isPrefixOf s.toList = false := by
      rw [Bool.eq_false_iff, Ne, List.isPrefixOf_iff_prefix]
      exact hnone 0
    rw [hstarts, hstart]
    rfl

theorem searchesAgree_of_some (hs : s.toList.length < 2 ^ 53) (hn : n.toList.length < 2 ^ 53)
    {k : Nat} (hk : Text.firstMatch n.toList s.toList = some k) :
    SearchesAgree s n (Int64.ofNat k) (Int64.ofNat s.toList.length)
      (Int64.ofNat n.toList.length) := by
  obtain ⟨-, hincludes, hstarts, hends⟩ := callMethod_search s n
  have hle : k + n.toList.length ≤ s.toList.length := Text.add_length_le_of_firstMatch hk
  have hword : (Int64.ofNat k).toInt = k := Int64.toInt_ofNat_of_lt (by omega)
  have h0 : 0 ≤ Int64.ofNat k :=
    (Int64.ofNat_le_iff_le (a := 0) (by decide) (by omega)).2 (Nat.zero_le k)
  have hfound := sliceIs_true_of_prefix hs (by omega) (Text.prefix_drop_of_firstMatch hk)
  refine ⟨?_, fun _ => ⟨hfound, fun j hj hj0 hlt => ?_⟩, ⟨fun h => ?_, fun h => ?_⟩, ?_, ?_,
    _, hends, isSuffixOf_iff_slice hs hn⟩
  · exact Int64.le_trans (by decide) h0
  · have hbefore := relativePosition_lt_of_holds hs (by omega) hj hj0 hlt
    exact sliceIs_false_of_not_prefix hj (Text.not_prefix_drop_of_firstMatch hk hbefore) _
  · rw [h] at h0
    exact absurd h0 (by decide)
  · -- the slice at the position itself is `n`
    have hnot := h (.integer (Int64.ofNat k)) rfl
      (lessEqual_holds_integer_iff.2 (Int64.le_iff_toInt_le.1 h0))
    cases (hfound.slice_beq (Nat.le_refl 2)).symm.trans (hnot.slice_beq (Nat.le_refl 2))
  · rw [hincludes, hk, decide_eq_true h0]
    rfl
  · have hstart : n.toList.isPrefixOf s.toList = true ↔ Int64.ofNat k = 0 := by
      rw [List.isPrefixOf_iff_prefix, ← Int64.toInt_inj, hword, Int64.toInt_zero]
      constructor
      · intro hprefix
        by_contra hne
        exact Text.not_prefix_drop_of_firstMatch hk (i := 0) (by omega) hprefix
      · intro hzero
        obtain rfl : k = 0 := by omega
        exact Text.prefix_drop_of_firstMatch hk
    rw [hstarts, Bool.eq_iff_iff.2 (hstart.trans decide_eq_true_iff.symm)]

/-- A search tells the first position from which the slice is what is looked for, or that there is
none; what the other questions are answered agrees with it and with the slices. -/
theorem search_agrees (s n : String) (hs : s.length < 2 ^ 53) (hn : n.length < 2 ^ 53) :
    ∃ k length size : Int64,
      callMethod (.string s) "indexOf" [.string n] = .ok (.integer k) ∧
      (Value.string s).get? "length" = some (.integer length) ∧
      (Value.string n).get? "length" = some (.integer size) ∧
      SearchesAgree s n k length size := by
  have hindex := (callMethod_search s n).1
  rw [← String.length_toList] at hs hn
  cases hk : Text.firstMatch n.toList s.toList with
  | none =>
    rw [hk] at hindex
    exact ⟨_, _, _, hindex, get?_length s, get?_length n, searchesAgree_of_none hs hn hk⟩
  | some k =>
    rw [hk] at hindex
    exact ⟨_, _, _, hindex, get?_length s, get?_length n, searchesAgree_of_some hs hn hk⟩

/-- A text in which two occurrences of what is looked for overlap. -/
theorem search_agrees_overlapping :
    ("éaéaé".length < 2 ^ 53 ∧ "éaé".length < 2 ^ 53) ∧
      ∃ k length size : Int64,
        callMethod (.string "éaéaé") "indexOf" [.string "éaé"] = .ok (.integer k) ∧
        (Value.string "éaéaé").get? "length" = some (.integer length) ∧
        (Value.string "éaé").get? "length" = some (.integer size) ∧
        SearchesAgree "éaéaé" "éaé" k length size :=
  ⟨⟨by decide, by decide⟩, search_agrees "éaéaé" "éaé" (by decide) (by decide)⟩

end TemplateBinding.Value
