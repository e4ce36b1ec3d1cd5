import TemplateBinding.Proofs.Text.Occurrences
import TemplateBinding.Value.Method

set_option autoImplicit false

namespace TemplateBinding.Value

variable {v : Value}

def ofTexts (texts : List String) : Value := .array (texts.map .string)

theorem splitText_some (hv : v ≠ .undefined) (cs : List Char) :
    splitText cs (some v) =
      if v.chars.isEmpty then cs.map ([·]) else Text.split v.chars cs := by
  cases v with
  | undefined => exact absurd rfl hv
  | _ => rfl

theorem joinItems_some (hv : v ≠ .undefined) (items : List Value) :
    joinItems items (some v) = v.chars.intercalate (itemChars items) := by
  cases v with
  | undefined => exact absurd rfl hv
  | _ => rfl

theorem itemChars_string (texts : List String) :
    itemChars (texts.map .string) = texts.map String.toList := by
  rw [itemChars_eq_map, List.map_map]
  exact List.map_congr_left fun text _ => rfl

theorem intercalate_splitText (hv : v ≠ .undefined) (cs : List Char) :
    v.chars.intercalate (splitText cs (some v)) = cs := by
  rw [splitText_some hv]
  split
  · next hempty =>
    rw [List.isEmpty_iff.1 hempty]
    exact Text.intercalate_map_singleton cs
  · exact Text.intercalate_split v.chars cs

theorem not_infix_of_mem_splitText (hv : v ≠ .undefined) {cs part : List Char}
    (hchars : v.chars ≠ []) (h : part ∈ splitText cs (some v)) : ¬v.chars <:+: part := by
  rw [splitText_some hv, if_neg (mt List.isEmpty_iff.1 hchars)] at h
  exact Text.not_infix_of_mem_split hchars h

theorem callMethod_split (s : String) (arg : Option Value) :
    callMethod (.string s) "split" arg.toList =
      .ok (ofTexts ((splitText s.toList arg).map String.ofList)) := by
  have hcall : callMethod (.string s) "split" arg.toList = (do
      expectArgs "split" arg.toList 0 1
      return .array ((splitText s.toList arg.toList.head?).map ofChars)) := rfl
  rw [hcall, ofTexts, List.map_map]
  cases arg <;> rfl

theorem callMethod_join (texts : List String) (arg : Option Value) :
    callMethod (ofTexts texts) "join" arg.toList =
      .ok (ofChars (joinItems (texts.map .string) arg)) := by
  have hcall : callMethod (ofTexts texts) "join" arg.toList = (do
      expectArgs "join" arg.toList 0 1
      return ofChars (joinItems (texts.map .string) arg.toList.head?)) := rfl
  rw [hcall]
  cases arg <;> rfl

theorem joinItems_singleton (s : String) (arg : Option Value) :
    joinItems [.string s] arg = s.toList := List.intercalate_singleton

/-- Joining undoes splitting. For every separator the parts are texts that, joined with the same
separator, make up the text, and none of which contains the text of the separator, unless that is
empty. Without a separator the text is the only part, so that no separator is joined to it. -/
theorem split_join (s : String) :
    (∀ v : Value, v ≠ .undefined → ∃ parts : List String,
      callMethod (.string s) "split" [v] = .ok (ofTexts parts) ∧
        callMethod (ofTexts parts) "join" [v] = .ok (.string s) ∧
        (v.text ≠ "" → ∀ part ∈ parts, ¬v.text.toList <:+: part.toList)) ∧
    ∀ arg : Option Value, arg = none ∨ arg = some .undefined →
      callMethod (.string s) "split" arg.toList = .ok (ofTexts [s]) ∧
        ∀ separator : Option Value,
          callMethod (ofTexts [s]) "join" separator.toList = .ok (.string s) := by
  constructor
  · intro v hv
    have hparts : ((splitText s.toList (some v)).map String.ofList).map String.toList =
        splitText s.toList (some v) := by
      rw [List.map_map]
      conv => rhs; rw [← List.map_id (splitText s.toList (some v))]
      exact List.map_congr_left fun cs _ => String.toList_ofList
    refine ⟨_, callMethod_split s (some v), ?_, ?_⟩
    · refine (callMethod_join _ (some v)).trans ?_
      rw [joinItems_some hv, itemChars_string, hparts, intercalate_splitText hv, ofChars,
        String.ofList_toList]
    · intro htext part hpart
      obtain ⟨cs, hcs, rfl⟩ := List.mem_map.1 hpart
      rw [text_eq_ofList_chars, String.toList_ofList, String.toList_ofList]
      refine not_infix_of_mem_splitText hv (fun hchars => htext ?_) hcs
      rw [text_eq_ofList_chars, hchars]
  · intro arg harg
    have hwhole : splitText s.toList arg = [s.toList] := by
      obtain rfl | rfl := harg <;> rfl
    constructor
    · rw [callMethod_split, hwhole, List.map_singleton, String.ofList_toList]
    · intro separator
      rw [callMethod_join, List.map_singleton, joinItems_singleton, ofChars, String.ofList_toList]

/-- Occurrences overlap in the first text, and separators are at the ends of the second. -/
theorem split_join_overlapping :
    (∃ parts : List String, callMethod (.string "aaa") "split" [.string "aa"] = .ok (ofTexts parts) ∧
      callMethod (ofTexts parts) "join" [.string "aa"] = .ok (.string "aaa")) ∧
    ∃ parts : List String, callMethod (.string "1,1") "split" [.integer 1] = .ok (ofTexts parts) ∧
      callMethod (ofTexts parts) "join" [.integer 1] = .ok (.string "1,1") := by
  obtain ⟨parts, hsplit, hjoin, -⟩ := (split_join "aaa").1 (.string "aa") nofun
  obtain ⟨others, hsplit', hjoin', -⟩ := (split_join "1,1").1 (.integer 1) nofun
  exact ⟨⟨parts, hsplit, hjoin⟩, others, hsplit', hjoin'⟩

end TemplateBinding.Value
