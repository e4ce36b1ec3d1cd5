import TemplateBinding.Proofs.Value.Positions

set_option autoImplicit false

namespace TemplateBinding.Value

variable {length : Nat} {args : List Value} {arg : Option Value} {default : Nat}

theorem slicePosition_some {v : Value} (hv : v ≠ .undefined) (default : Nat) :
    slicePosition length (some v) default = relativePosition length v.number := by
  cases v with
  | undefined => exact absurd rfl hv
  | _ => rfl

theorem slicePosition_le (hl : length < 2 ^ 53) (hd : default ≤ length) (arg : Option Value) :
    slicePosition length arg default ≤ length := by
  unfold slicePosition
  split
  · exact hd
  · exact hd
  · exact relativePosition_le hl _

theorem sliceBounds_le (hl : length < 2 ^ 53) (args : List Value) :
    (sliceBounds length args).1 ≤ (sliceBounds length args).2 ∧
      (sliceBounds length args).2 ≤ length :=
  ⟨Nat.le_max_left _ _, Nat.max_le.2
    ⟨slicePosition_le hl (Nat.zero_le _) _, slicePosition_le hl (Nat.le_refl _) _⟩⟩

/-- The place that an argument means: the default for a missing one, and else the position that
its number means. -/
def meantPlace (length : Nat) (arg : Option Value) (default : Nat) : Nat :=
  match arg with
  | none | some .undefined => default
  | some v => resolvedPosition length v.number

/-- The argument is there, and converts to a sliver. -/
def HasSliver (arg : Option Value) : Prop := ∃ v, arg = some v ∧ IsSliver v.number

theorem meantPlace_some {v : Value} (hv : v ≠ .undefined) (default : Nat) :
    meantPlace length (some v) default = resolvedPosition length v.number := by
  cases v with
  | undefined => exact absurd rfl hv
  | _ => rfl

theorem meantPlace_le (hd : default ≤ length) (arg : Option Value) :
    meantPlace length arg default ≤ length := by
  unfold meantPlace
  split
  · exact hd
  · exact hd
  · exact resolvedPosition_le length _

theorem not_isSliver_undefined : ¬IsSliver Value.undefined.number := by
  rintro ⟨-, hzero⟩
  have hnone : Number.truncate? Value.undefined.number = none := by decide
  cases hnone.symm.trans hzero

theorem slicePosition_of_hasSliver (hl : length < 2 ^ 53) (h : HasSliver arg) (default : Nat) :
    meantPlace length arg default = 0 ∧ slicePosition length arg default = length := by
  obtain ⟨v, rfl, hsliver⟩ := h
  have hv : v ≠ .undefined := fun hv => not_isSliver_undefined (hv ▸ hsliver)
  constructor
  · rw [meantPlace_some hv, resolvedPosition_of_truncate? hsliver.2, if_neg (Int.lt_irrefl 0)]
    omega
  · rw [slicePosition_some hv]
    exact (relativePosition_eq hl v.number).2 hsliver

theorem slicePosition_of_not_hasSliver (hl : length < 2 ^ 53) (h : ¬HasSliver arg)
    (default : Nat) : slicePosition length arg default = meantPlace length arg default := by
  unfold meantPlace
  split
  · rfl
  · rfl
  · next v hv =>
    rw [slicePosition_some (fun h => hv (h ▸ rfl))]
    exact (relativePosition_eq hl v.number).1 fun hsliver => h ⟨v, rfl, hsliver⟩

def between {α : Type} (items : List α) (a b : Nat) : List α :=
  (items.zipIdx.filter fun p => a ≤ p.2 ∧ p.2 < b).map Prod.fst

variable {α : Type} {items : List α}

theorem filter_zipIdx (items : List α) (a b n : Nat) :
    ((items.zipIdx n).filter fun p => a ≤ p.2 ∧ p.2 < b).map Prod.fst =
      (items.take (b - n)).drop (a - n) := by
  induction items generalizing n with
  | nil => simp
  | cons item items ih =>
    have hrest := ih (n + 1)
    rw [List.zipIdx_cons, List.filter_cons]
    obtain hb | hb := Nat.lt_or_ge n b
    · rw [show b - n = b - (n + 1) + 1 by omega, List.take_succ_cons]
      obtain ha | ha := Nat.lt_or_ge n a
      · rw [if_neg (by simp; omega), hrest, show a - n = a - (n + 1) + 1 by omega,
          List.drop_succ_cons]
      · rw [if_pos (by simp; omega), List.map_cons, hrest, Nat.sub_eq_zero_of_le ha,
          Nat.sub_eq_zero_of_le (by omega), List.drop_zero, List.drop_zero]
    · rw [if_neg (by simp; omega), hrest, Nat.sub_eq_zero_of_le hb,
        Nat.sub_eq_zero_of_le (by omega : b ≤ n + 1)]
      simp

theorem between_eq (items : List α) (a b : Nat) : between items a b = (items.take b).drop a :=
  filter_zipIdx items a b 0

theorem between_eq_nil_iff {a b : Nat} :
    between items a b = [] ↔ items.length ≤ a ∨ b ≤ a := by
  rw [between_eq, List.drop_eq_nil_iff, List.length_take]
  omega

theorem slice_eq_between (items : List α) (args : List Value) :
    slice items args = between items (slicePosition items.length args[0]? 0)
      (slicePosition items.length args[1]? items.length) := by
  rw [between_eq, slice, sliceBounds]
  dsimp only
  generalize slicePosition items.length args[0]? 0 = a
  generalize slicePosition items.length args[1]? items.length = b
  obtain hab | hba := Nat.le_total a b
  · rw [Nat.max_eq_right hab]
  · rw [Nat.max_eq_left hba, List.drop_eq_nil_of_le (List.length_take_le _ _),
      List.drop_eq_nil_of_le ((List.length_take_le _ _).trans hba)]

/-- A slice with what is before it and after it. -/
theorem take_append_slice_append_drop (items : List α) (args : List Value) :
    items.take (sliceBounds items.length args).1 ++ slice items args ++
      items.drop (sliceBounds items.length args).2 = items := by
  have hle : (sliceBounds items.length args).1 ≤ (sliceBounds items.length args).2 :=
    Nat.le_max_left _ _
  have hpart : (items.take (sliceBounds items.length args).2).take
      (sliceBounds items.length args).1 = items.take (sliceBounds items.length args).1 := by
    rw [List.take_take, Nat.min_eq_left hle]
  rw [slice, ← hpart, List.take_append_drop, List.take_append_drop]

theorem relativePosition_zero (length : Nat) :
    relativePosition length (Value.integer 0).number = 0 := by
  have hnan : (Value.integer 0).number.isNaN = false := by decide
  have hlt : ¬(Value.integer 0).number < 0 := by decide
  have hsize : Number.size (Number.cut (Value.integer 0).number) = 0 := by decide
  rw [relativePosition, hnan, if_neg Bool.false_ne_true, if_neg hlt, hsize, Nat.zero_min]

theorem slice_from (items : List α) {k : Value} (hk : k ≠ .undefined) :
    slice items [k] = items.drop (relativePosition items.length k.number) := by
  rw [slice_eq_between, between_eq, List.getElem?_cons_zero, slicePosition_some hk]
  exact congrArg _ (List.take_length (l := items))

theorem slice_append_slice (items : List α) {k : Value} (hk : k ≠ .undefined) :
    slice items [.integer 0, k] ++ slice items [k] = items := by
  have hzero : Value.integer 0 ≠ .undefined := nofun
  have hfront : slice items [.integer 0, k] =
      items.take (relativePosition items.length k.number) := by
    rw [slice_eq_between, between_eq, List.getElem?_cons_zero, List.getElem?_cons_succ,
      List.getElem?_cons_zero, slicePosition_some hk, slicePosition_some hzero,
      relativePosition_zero, List.drop_zero]
  rw [hfront, slice_from items hk, List.take_append_drop]

variable {receiver : Value} {make : List α → Value}

def Slices (receiver : Value) (make : List α → Value) (items : List α) : Prop :=
  ∀ args : List Value, args.length ≤ 2 →
    callMethod receiver "slice" args = .ok (make (slice items args))

theorem expectArgs_slice (h : args.length ≤ 2) : expectArgs "slice" args 0 2 = .ok () := by
  rw [expectArgs, if_neg (by omega), if_neg (by omega)]

theorem slices_string (s : String) : Slices (.string s) ofChars s.toList := by
  intro args hargs
  have hcall : callMethod (.string s) "slice" args = (do
      expectArgs "slice" args 0 2
      return ofChars (slice s.toList args)) := rfl
  rw [hcall, expectArgs_slice hargs]
  rfl

theorem slices_array (items : List Value) : Slices (.array items) .array items := by
  intro args hargs
  have hcall : callMethod (.array items) "slice" args = (do
      expectArgs "slice" args 0 2
      return .array (slice items args)) := rfl
  rw [hcall, expectArgs_slice hargs]
  rfl

/-- Slices of a receiver are in range, and two of them make it up. -/
structure CutsCleanly (receiver : Value) (make : List α → Value) (items : List α) : Prop where
  /-- The bounds of all slices are in order, and within the receiver. -/
  bounds (args : List Value) :
    (sliceBounds items.length args).1 ≤ (sliceBounds items.length args).2 ∧
      (sliceBounds items.length args).2 ≤ items.length
  /-- A slice is the part of the receiver between its bounds. -/
  part (args : List Value) (hargs : args.length ≤ 2) : ∃ before middle after : List α,
    callMethod receiver "slice" args = .ok (make middle) ∧
      items = before ++ middle ++ after ∧
      before.length = (sliceBounds items.length args).1 ∧
      before.length + middle.length = (sliceBounds items.length args).2
  /-- The slice up to a place and the slice from there on make up the receiver. -/
  cut (k : Value) (hk : k ≠ .undefined) : ∃ front back : List α,
    callMethod receiver "slice" [.integer 0, k] = .ok (make front) ∧
      callMethod receiver "slice" [k] = .ok (make back) ∧ front ++ back = items

theorem Slices.cutsCleanly (hs : Slices receiver make items) (hl : items.length < 2 ^ 53) :
    CutsCleanly receiver make items where
  bounds := sliceBounds_le hl
  part args hargs := by
    obtain ⟨hle, hlength⟩ := sliceBounds_le hl args
    refine ⟨_, _, _, hs args hargs, (take_append_slice_append_drop items args).symm, ?_, ?_⟩
    · rw [List.length_take]
      omega
    · rw [slice, List.length_drop, List.length_take, List.length_take]
      omega
  cut k hk :=
    ⟨_, _, hs _ (Nat.le_refl 2), hs _ (Nat.le_succ 1), slice_append_slice items hk⟩

/-- Texts and arrays are cut cleanly, whatever the arguments are. -/
theorem slice_cutsCleanly :
    (∀ s : String, s.length < 2 ^ 53 → CutsCleanly (.string s) ofChars s.toList) ∧
      ∀ items : List Value, items.length < 2 ^ 53 → CutsCleanly (.array items) .array items :=
  ⟨fun s hs => (slices_string s).cutsCleanly hs,
    fun items hl => (slices_array items).cutsCleanly hl⟩

theorem slice_cutsCleanly_short :
    CutsCleanly (.string "abc") ofChars ['a', 'b', 'c'] ∧
      CutsCleanly (.array [.null, .string "a"]) .array [.null, .string "a"] :=
  ⟨slice_cutsCleanly.1 "abc" (by decide), slice_cutsCleanly.2 [.null, .string "a"] (by decide)⟩

/-- What a call of `slice` returns, and when that is the part that the arguments mean. -/
structure SlicesBetween (receiver : Value) (make : List α → Value) (items : List α)
    (args : List Value) : Prop where
  /-- The slice is the part between two places. Each is the one that its argument means, but for
  slivers, which are taken for the end. -/
  places : ∃ a b : Nat,
    callMethod receiver "slice" args = .ok (make (between items a b)) ∧
      (¬HasSliver args[0]? → a = meantPlace items.length args[0]? 0) ∧
      (¬HasSliver args[1]? → b = meantPlace items.length args[1]? items.length) ∧
      (HasSliver args[0]? → a = items.length) ∧ (HasSliver args[1]? → b = items.length)
  /-- The slice is the part between the places that the arguments mean, unless one of them is a
  sliver and the other leaves something of the receiver. -/
  meant : callMethod receiver "slice" args =
      .ok (make (between items (meantPlace items.length args[0]? 0)
        (meantPlace items.length args[1]? items.length))) ↔
    (HasSliver args[0]? → meantPlace items.length args[1]? items.length = 0) ∧
      (HasSliver args[1]? →
        HasSliver args[0]? ∨ meantPlace items.length args[0]? 0 = items.length)

theorem between_slicePosition_eq_iff (hl : items.length < 2 ^ 53) (start stop : Option Value) :
    between items (slicePosition items.length start 0)
        (slicePosition items.length stop items.length) =
      between items (meantPlace items.length start 0)
        (meantPlace items.length stop items.length) ↔
    (HasSliver start → meantPlace items.length stop items.length = 0) ∧
      (HasSliver stop → HasSliver start ∨ meantPlace items.length start 0 = items.length) := by
  have hstart := meantPlace_le (Nat.zero_le items.length) start
  have hstop := meantPlace_le (Nat.le_refl items.length) stop
  by_cases hs : HasSliver start
  -- From the end on there is nothing, and from the start on nothing only before the start.
  · obtain ⟨hmeant, htaken⟩ := slicePosition_of_hasSliver hl hs 0
    have hnil : between items items.length (slicePosition items.length stop items.length) = [] :=
      between_eq_nil_iff.2 (.inl (Nat.le_refl _))
    rw [hmeant, htaken, hnil, eq_comm, between_eq_nil_iff]
    simp only [hs, true_implies, true_or, implies_true, and_true]
    omega
  · rw [slicePosition_of_not_hasSliver hl hs]
    by_cases ht : HasSliver stop
    · obtain ⟨hmeant, htaken⟩ := slicePosition_of_hasSliver hl ht items.length
      have hnil : between items (meantPlace items.length start 0) 0 = [] :=
        between_eq_nil_iff.2 (.inr (Nat.zero_le _))
      rw [hmeant, htaken, hnil, between_eq_nil_iff]
      simp only [hs, ht, false_implies, true_implies, true_and, false_or]
      omega
    · rw [slicePosition_of_not_hasSliver hl ht]
      simp only [hs, ht, false_implies, and_self]

theorem Slices.slicesBetween (hs : Slices receiver make items) (hmake : make.Injective)
    (hl : items.length < 2 ^ 53) {args : List Value} (hargs : args.length ≤ 2) :
    SlicesBetween receiver make items args where
  places := by
    refine ⟨_, _, (hs args hargs).trans (by rw [slice_eq_between]),
      fun h => slicePosition_of_not_hasSliver hl h 0,
      fun h => slicePosition_of_not_hasSliver hl h items.length,
      fun h => (slicePosition_of_hasSliver hl h 0).2,
      fun h => (slicePosition_of_hasSliver hl h items.length).2⟩
  meant := by
    rw [hs args hargs, slice_eq_between, Except.ok.injEq, hmake.eq_iff]
    exact between_slicePosition_eq_iff hl args[0]? args[1]?

theorem ofChars_injective : ofChars.Injective := by
  intro cs ds h
  exact String.ofList_injective (Value.string.inj h)

/-- Slices of texts and arrays are the parts between the places that the arguments mean, but where
a sliver is taken for the end. -/
theorem slice_between (args : List Value) (hargs : args.length ≤ 2) :
    (∀ s : String, s.length < 2 ^ 53 → SlicesBetween (.string s) ofChars s.toList args) ∧
      ∀ items : List Value, items.length < 2 ^ 53 →
        SlicesBetween (.array items) .array items args :=
  ⟨fun s hs => (slices_string s).slicesBetween ofChars_injective hs hargs,
    fun items hl => (slices_array items).slicesBetween (fun _ _ => Value.array.inj) hl hargs⟩

theorem slice_between_short :
    SlicesBetween (.string "abc") ofChars ['a', 'b', 'c'] [.integer (-2)] ∧
      SlicesBetween (.array [.null, .string "a"]) .array [.null, .string "a"]
        [.undefined, .string "1"] :=
  ⟨(slice_between [.integer (-2)] (by decide)).1 "abc" (by decide),
    (slice_between [.undefined, .string "1"] (by decide)).2 [.null, .string "a"] (by decide)⟩

/-- The sliver `-0.5`, without its fraction, is zero and means the start, so that all of the text
would be behind it; it is taken for the end. -/
theorem slice_sliver :
    let half := Number.ofView (.finite .negative (2 ^ 52) (-53) (by decide))
    Number.truncate? half = some 0 ∧
      between ['a', 'b', 'c'] (meantPlace 3 (some (.float half)) 0) 3 = ['a', 'b', 'c'] ∧
      callMethod (.string "abc") "slice" [.float half] = .ok (.string "") := by
  refine ⟨by decide, by decide, ?_⟩
  rw [slices_string "abc" _ (by decide)]
  exact congrArg (fun cs => Except.ok (ofChars cs)) (by decide)

end TemplateBinding.Value
