set_option autoImplicit false

namespace TemplateBinding.Text

def firstMatch (needle : List Char) : List Char → Option Nat
  | [] => if needle.isEmpty then some 0 else none
  | c :: cs => if needle.isPrefixOf (c :: cs) then some 0 else (firstMatch needle cs).map (· + 1)

theorem firstMatch_of_isPrefixOf {needle cs : List Char} (h : needle.isPrefixOf cs = true) :
    firstMatch needle cs = some 0 := by
  cases cs with
  | nil => simpa [firstMatch] using h
  | cons c cs => simp only [firstMatch, h, if_true]

theorem firstMatch_eq_none_of_length_lt {needle cs : List Char}
    (h : cs.length < needle.length) : firstMatch needle cs = none := by
  induction cs with
  | nil => cases needle <;> simp_all [firstMatch]
  | cons c cs ih =>
    have hp : needle.isPrefixOf (c :: cs) = false := by
      rw [Bool.eq_false_iff]
      exact fun hp => Nat.not_le_of_lt h (List.isPrefixOf_iff_prefix.1 hp).length_le
    have hc : cs.length < needle.length := Nat.lt_of_succ_lt h
    simp only [firstMatch, hp, ih hc, Bool.false_eq_true, if_false, Option.map_none]

theorem add_length_le_of_firstMatch {needle cs : List Char} {i : Nat}
    (h : firstMatch needle cs = some i) : i + needle.length ≤ cs.length := by
  induction cs generalizing i with
  | nil =>
    cases needle with
    | nil => cases h; exact Nat.le_refl 0
    | cons n needle => cases h
  | cons c cs ih =>
    simp only [firstMatch] at h
    split at h
    · next hp =>
      cases h
      simpa using (List.isPrefixOf_iff_prefix.1 hp).length_le
    · obtain ⟨j, hj, rfl⟩ := Option.map_eq_some_iff.1 h
      have := ih hj
      rw [List.length_cons]
      omega

def charMark (c : Char) : UInt64 := c.val.toUInt64

def markBase : UInt64 := 1099511628211

/-- A number for a text, the same for equal texts and seldom for others. -/
def fingerprint (cs : List Char) : UInt64 := cs.foldl (fun h c => h * markBase + charMark c) 0

def markWeight : Nat → UInt64
  | 0 => 1
  | n + 1 => markWeight n * markBase

theorem foldl_charMark (cs : List Char) (h : UInt64) :
    cs.foldl (fun h c => h * markBase + charMark c) h =
      h * markWeight cs.length + fingerprint cs := by
  unfold fingerprint
  induction cs generalizing h with
  | nil => simp [markWeight]
  | cons c cs ih =>
    rw [List.foldl_cons, List.foldl_cons, ih, ih (0 * markBase + charMark c), List.length_cons,
      markWeight]
    grind

theorem fingerprint_cons (c : Char) (cs : List Char) :
    fingerprint (c :: cs) = charMark c * markWeight cs.length + fingerprint cs := by
  rw [fingerprint, List.foldl_cons, foldl_charMark]
  grind

theorem fingerprint_concat (cs : List Char) (d : Char) :
    fingerprint (cs ++ [d]) = fingerprint cs * markBase + charMark d := by
  simp only [fingerprint, List.foldl_append, List.foldl_cons, List.foldl_nil]

/-- The fingerprint `h` of a text that starts with `c`, when `c` leaves it and `d` joins it at
the end; the weight is that of `c`. -/
def slide (weight h : UInt64) (c d : Char) : UInt64 :=
  (h - charMark c * weight) * markBase + charMark d

theorem slide_fingerprint (c : Char) (cs : List Char) (d : Char) :
    slide (markWeight cs.length) (fingerprint (c :: cs)) c d = fingerprint (cs ++ [d]) := by
  rw [slide, fingerprint_concat, fingerprint_cons]
  grind

/-- Looks for `needle` from the start of `cs` on. The text `ahead` is what follows the window
of the needle's length, and `h` is the fingerprint of the window. -/
def findFrom (needle : List Char) (target weight : UInt64) (position : Nat) (h : UInt64) :
    List Char → List Char → Option Nat
  | cs, ahead =>
    if h = target ∧ needle.isPrefixOf cs then some position
    else match cs, ahead with
      | c :: cs, d :: ahead =>
        findFrom needle target weight (position + 1) (slide weight h c d) cs ahead
      | _, _ => none

def find (needle cs : List Char) : Option Nat :=
  let window := needle.length
  findFrom needle (fingerprint needle) (markWeight (window - 1)) 0 (fingerprint (cs.take window))
    cs (cs.drop window)

theorem take_succ_of_drop {cs ahead : List Char} {d : Char} {k : Nat}
    (h : cs.drop k = d :: ahead) : cs.take k ++ [d] = cs.take (k + 1) ∧ ahead = cs.drop (k + 1) := by
  have hd : cs[k]? = some d := by rw [← List.head?_drop, h]; rfl
  constructor
  · rw [List.take_add_one, hd]; rfl
  · rw [← List.tail_drop, h]; rfl

theorem findFrom_eq (needle cs : List Char) (position : Nat) :
    findFrom needle (fingerprint needle) (markWeight (needle.length - 1)) position
      (fingerprint (cs.take needle.length)) cs (cs.drop needle.length) =
        (firstMatch needle cs).map (· + position) := by
  induction cs generalizing position with
  | nil =>
    cases needle with
    | nil => simp [findFrom, firstMatch]
    | cons n needle => simp [findFrom, firstMatch, List.isPrefixOf]
  | cons c cs ih =>
    unfold findFrom
    by_cases hp : needle.isPrefixOf (c :: cs) = true
    · have ht := List.prefix_iff_eq_take.1 (List.isPrefixOf_iff_prefix.1 hp)
      rw [if_pos ⟨congrArg fingerprint ht.symm, hp⟩, firstMatch_of_isPrefixOf hp, Option.map_some,
        Nat.zero_add]
    · rw [if_neg fun h => hp h.2, firstMatch, if_neg hp]
      obtain ⟨k, hk⟩ : ∃ k, needle.length = k + 1 := by
        cases needle with
        | nil => simp at hp
        | cons n needle => exact ⟨needle.length, rfl⟩
      rw [hk, List.drop_succ_cons]
      cases hd : cs.drop k with
      | nil =>
        have hl : cs.length < needle.length := by
          have := List.drop_eq_nil_iff.1 hd
          omega
        rw [firstMatch_eq_none_of_length_lt hl]
        rfl
      | cons d ahead =>
        obtain ⟨ht, rfl⟩ := take_succ_of_drop hd
        have hw : (cs.take k).length = k := by
          have hl := congrArg List.length hd
          rw [List.length_drop, List.length_cons] at hl
          rw [List.length_take]
          omega
        have hs := slide_fingerprint c (cs.take k) d
        rw [hw, ht] at hs
        rw [List.take_succ_cons, Nat.add_sub_cancel]
        dsimp only
        rw [hs]
        have hi := ih (position + 1)
        rw [hk, Nat.add_sub_cancel] at hi
        rw [hi, Option.map_map]
        congr 1
        funext i
        simp only [Function.comp_apply]
        omega

theorem find_eq_firstMatch (needle cs : List Char) : find needle cs = firstMatch needle cs := by
  rw [find, findFrom_eq]
  cases firstMatch needle cs <;> rfl

theorem length_sub_lt_of_find {separator cs : List Char} {i : Nat} (hs : separator ≠ [])
    (h : find separator cs = some i) : cs.length - (i + separator.length) < cs.length := by
  have hi := add_length_le_of_firstMatch (find_eq_firstMatch separator cs ▸ h)
  have := List.length_pos_iff.2 hs
  omega

/-- Cuts a text at each occurrence of the separator, from left to right. An empty separator
cuts nowhere. -/
def split (separator cs : List Char) : List (List Char) :=
  if hs : separator = [] then [cs]
  else match h : find separator cs with
    | none => [cs]
    | some i =>
      have := length_sub_lt_of_find hs h
      cs.take i :: split separator (cs.drop (i + separator.length))
termination_by cs.length

theorem split_eq_singleton {separator cs : List Char} (h : firstMatch separator cs = none) :
    split separator cs = [cs] := by
  rw [← find_eq_firstMatch] at h
  rw [split]
  split
  · rfl
  · split
    · rfl
    · next hi => cases h.symm.trans hi

theorem split_eq_cons {separator cs : List Char} {i : Nat} (hs : separator ≠ [])
    (h : firstMatch separator cs = some i) :
    split separator cs = cs.take i :: split separator (cs.drop (i + separator.length)) := by
  rw [← find_eq_firstMatch] at h
  rw [split, dif_neg hs]
  split
  · next hi => cases h.symm.trans hi
  · next j hi =>
    obtain rfl := Option.some.inj (h.symm.trans hi)
    rfl

end TemplateBinding.Text
