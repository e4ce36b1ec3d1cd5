import TemplateBinding.Proofs.Merging
import TemplateBinding.Proofs.Number.Spelling
import TemplateBinding.Proofs.Postfix.Refusal
import TemplateBinding.Proofs.Value.Exactness
import TemplateBinding.Proofs.Value.Searching
import TemplateBinding.Proofs.Value.Splitting

set_option autoImplicit false

namespace TemplateBinding

/-- The digits of a position are a name for it. -/
theorem indexOfName_digits (k : Nat) : indexOfName (String.ofList (Number.digits k)) = some k := by
  have hempty : String.ofList (Number.digits k) ≠ "" := by
    rw [Ne, String.ofList_eq_empty_iff]
    exact Nat.toDigits_ne_nil
  have hdigits : (Number.digits k).all Char.isDigit = true :=
    List.all_eq_true.2 fun _ => Number.isDigit_of_mem_digits
  rw [indexOfName, if_pos ⟨hempty, by rwa [String.toList_ofList]⟩, String.toList_ofList,
    Number.digitsValue_eq_ofDigitChars, Number.digits, Nat.ofDigitChars_ten_toDigits]

namespace Value

variable {s : String} {i : Int64} {k : Nat}

/-- An expression that indexes one for the text `s` with one for the number `i`, be that computed
or a literal, comes to `v`, and calls what both call. -/
def IndexGives (s : String) (i : Int64) (v : Value) : Prop :=
  ∀ (limits : Limits) (source : String) (holderTokens keyTokens : List Token)
    (holder key e : Expression) (env : Environment) (calls calls' : List HostCall),
    Expression.compile limits source holderTokens = .ok holder →
    Expression.compile limits source keyTokens = .ok key →
    Expression.compile limits source (holderTokens ++ keyTokens ++ [⟨.index, 0⟩]) = .ok e →
    holder.evaluate env = ⟨.ok (.string s), calls⟩ →
    key.evaluate env = ⟨.ok (.integer i), calls'⟩ →
      e.evaluate env = ⟨.ok v, calls ++ calls'⟩

theorem indexGives_get? (s : String) (i : Int64) :
    IndexGives s i (((Value.string s).get? (Value.integer i).propertyKey).getD .undefined) := by
  intro limits source _ _ holder key e env calls calls' hholder hkey he hs hi
  obtain ⟨c, rfl, -, hc⟩ := Expression.exists_construct_of_compile hholder
  obtain ⟨d, rfl, -, hd⟩ := Expression.exists_construct_of_compile hkey
  have hlisting : (Construct.index c d).listing = c.listing ++ d.listing ++ [⟨.index, 0⟩] := rfl
  rw [← hlisting] at he
  have hroot : e.root = Tree.member (!c.isCalled) c.tree d.tree := by
    obtain hdeep | ⟨e', he', hroot⟩ := Expression.compile_listing limits source (.index c d)
    · cases hdeep.symm.trans he
    · cases he'.symm.trans he
      exact hroot
  rw [Expression.evaluate, hc] at hs
  rw [Expression.evaluate, hd] at hi
  rw [Expression.evaluate, hroot, (Tree.same_member rfl rfl).1, Tree.eval_index, hs, hi,
    Run.ok_bind, Run.ok_bind]
  simp only [Run.outcome_pure, Run.calls_pure, List.append_nil]

theorem get?_propertyKey (s : String) (hk : k < 2 ^ 63) :
    (Value.string s).get? (Value.integer (Int64.ofNat k)).propertyKey =
      s.toList[k]?.map fun c => .string (String.singleton c) := by
  have hkey : (Value.integer (Int64.ofNat k)).propertyKey = String.ofList (Number.digits k) := by
    rw [propertyKey, text_eq_ofList_chars, chars, Int64.toInt_ofNat_of_lt hk, Number.whole,
      decide_eq_false (Int.not_lt.2 (Int.natCast_nonneg k)), Int.natAbs_natCast]
    rfl
  have hname : String.ofList (Number.digits k) ≠ "length" := by
    intro hlength
    have hindex := indexOfName_digits k
    rw [hlength] at hindex
    cases hindex
  rw [hkey, get?, if_neg hname, indexOfName_digits, Option.bind_some]

theorem indexGives_ofNat (s : String) (hk : k < 2 ^ 63) :
    IndexGives s (Int64.ofNat k)
      ((s.toList[k]?.map fun c => .string (String.singleton c)).getD .undefined) := by
  rw [← get?_propertyKey s hk]
  exact indexGives_get? s (Int64.ofNat k)

example (env : Environment) :
    (Expression.compile {} "" [⟨.string "aé", 0⟩, ⟨.integer 1, 0⟩, ⟨.index, 0⟩]).map
      (·.evaluate env) = .ok ⟨.ok (.string "é"), []⟩ := rfl

/-- Great positions are rounded, but then they are beyond the text. -/
theorem charAt_ofNat {cs : List Char} (hl : cs.length < 2 ^ 53) (hk : k < 2 ^ 63) :
    charAt cs (Value.integer (Int64.ofNat k)).number = cs[k]?.toList := by
  have hholds := Number.holds_ofInt_toInt (Int64.ofNat k)
  rw [Int64.toInt_ofNat_of_lt hk] at hholds
  have hrounded := Number.rounded_eq_or_le (n := k) (by omega)
  have hnonneg : 0 ≤ Number.ofInt k := by
    rw [Number.holds_float_zero.le_iff hholds]
    omega
  rw [number, Int64.toInt_ofNat_of_lt hk, charAt, if_pos hnonneg, hholds.truncate?]
  dsimp only
  obtain heq | ⟨hgreat, hgreat'⟩ := hrounded
  · rw [heq, Int.toNat_natCast]
  · rw [List.getElem?_eq_none (by omega), List.getElem?_eq_none (by omega)]

/-- The ways to read the character at `i` agree. Before the end of the text it is one character,
and from there on it is none. -/
def ReadsAgree (s : String) (length i : Int64) : Prop :=
  ∃ text : String,
    callMethod (.string s) "charAt" [.integer i] = .ok (.string text) ∧
    callMethod (.string s) "slice" [.integer i, (Value.integer i).add (.integer 1)] =
      .ok (.string text) ∧
    (i < length → text.length = 1 ∧ IndexGives s i (.string text)) ∧
    (length ≤ i → text = "" ∧ IndexGives s i .undefined)

theorem callMethod_charAt (s : String) (v : Value) :
    callMethod (.string s) "charAt" [v] = .ok (ofChars (charAt s.toList v.number)) := rfl

theorem readsAgree_ofNat (hs : s.toList.length < 2 ^ 53) (hk : k + 1 < 2 ^ 63) :
    ReadsAgree s (Int64.ofNat s.toList.length) (Int64.ofNat k) := by
  have hindex := indexGives_ofNat s (k := k) (by omega)
  refine ⟨String.ofList s.toList[k]?.toList, ?_, ?_, fun hlt => ?_, fun hle => ?_⟩
  · rw [callMethod_charAt, charAt_ofNat hs (by omega), ofChars]
  · have hone : Value.integer 1 = .integer (Int64.ofNat 1) := rfl
    rw [slices_string s [_, _] (Nat.le_refl 2), hone, slice_window hs hk, List.take_one,
      List.head?_drop, ofChars]
  · rw [Int64.ofNat_lt_iff_lt (by omega) (by omega)] at hlt
    rw [List.getElem?_eq_getElem hlt] at hindex ⊢
    rw [Option.toList_some, ← String.singleton_eq_ofList]
    exact ⟨String.length_singleton, hindex⟩
  · rw [Int64.ofNat_le_iff_le (by omega) (by omega)] at hle
    rw [List.getElem?_eq_none hle] at hindex ⊢
    exact ⟨rfl, hindex⟩

def characters (s : String) : List Value :=
  s.toList.map fun c => .string (String.singleton c)

theorem foldl_add_singleton (t : String) (cs : List Char) :
    (cs.map fun c => Value.string (String.singleton c)).foldl Value.add (.string t) =
      .string (t ++ String.ofList cs) := by
  induction cs generalizing t with
  | nil => rw [List.map_nil, List.foldl_nil, String.ofList_nil, String.append_empty]
  | cons c cs ih =>
    have hadd : (Value.string t).add (.string (String.singleton c)) =
        .string (t ++ String.singleton c) := rfl
    rw [List.map_cons, List.foldl_cons, hadd, ih, String.singleton_eq_ofList, String.append_assoc,
      ← String.ofList_append, List.singleton_append]

theorem callMethod_split_empty (s : String) :
    callMethod (.string s) "split" [.string ""] = .ok (.array (characters s)) := by
  have hparts : (splitText s.toList (some (.string ""))).map String.ofList =
      s.toList.map String.singleton := by
    have hempty : splitText s.toList (some (.string "")) = s.toList.map ([·]) := rfl
    rw [hempty, List.map_map]
    exact List.map_congr_left fun c _ => String.singleton_eq_ofList.symm
  have hsplit := callMethod_split s (some (.string ""))
  rw [hparts, ofTexts, List.map_map] at hsplit
  exact hsplit

structure CharactersAgree (s : String) (length : Int64) (characters : List Value) : Prop where
  count : (characters.length : Int) = length.toInt
  reads (i : Int64) (h0 : 0 ≤ i) (hi : i < Int64.maxValue) : ReadsAgree s length i
  /-- The characters are the members of the text. -/
  members (i : Int64) (h0 : 0 ≤ i) (c : Value) (hc : characters[i.toInt.toNat]? = some c) :
    IndexGives s i c
  /-- Added to each other from the first one on they are the text. -/
  whole : characters.foldl Value.add (.string "") = .string s
  parts : callMethod (.string s) "split" [.string ""] = .ok (.array characters)

theorem exists_ofNat (h : 0 ≤ i) : ∃ k : Nat, (k : Int) = i.toInt ∧ Int64.ofNat k = i := by
  rw [Int64.le_iff_toInt_le, Int64.toInt_zero] at h
  refine ⟨i.toInt.toNat, Int.toNat_of_nonneg h, ?_⟩
  rw [← Int64.ofInt_eq_ofNat, Int.toNat_of_nonneg h, Int64.ofInt_toInt]

/-- A character is the same text in whichever way it is read, and all of them together are the
text. -/
theorem characters_agree (s : String) (hs : s.length < 2 ^ 53) :
    ∃ (length : Int64) (characters : List Value),
      (Value.string s).get? "length" = some (.integer length) ∧
      CharactersAgree s length characters := by
  rw [← String.length_toList] at hs
  refine ⟨_, characters s, get?_length s, ?_, fun i h0 hi => ?_, fun i h0 c hc => ?_, ?_,
    callMethod_split_empty s⟩
  · rw [characters, List.length_map, Int64.toInt_ofNat_of_lt (by omega)]
  · obtain ⟨k, hk, rfl⟩ := exists_ofNat h0
    have hmax : Int64.maxValue.toInt = 2 ^ 63 - 1 := by decide
    rw [Int64.lt_iff_toInt_lt, ← hk, hmax] at hi
    exact readsAgree_ofNat hs (by omega)
  · obtain ⟨k, hk, rfl⟩ := exists_ofNat h0
    have hlt := Int64.toInt_lt (Int64.ofNat k)
    rw [← hk, Int.toNat_natCast, characters, List.getElem?_map] at hc
    have hindex := indexGives_ofNat s (k := k) (by omega)
    rwa [hc] at hindex
  · rw [characters, foldl_add_singleton, String.ofList_toList, String.empty_append]

/-- A text of two characters, of which one has more than one byte. -/
theorem characters_agree_accented :
    "aé".length < 2 ^ 53 ∧
      ∃ (length : Int64) (characters : List Value),
        (Value.string "aé").get? "length" = some (.integer length) ∧
        CharactersAgree "aé" length characters :=
  ⟨by decide, characters_agree "aé" (by decide)⟩

end Value

end TemplateBinding
