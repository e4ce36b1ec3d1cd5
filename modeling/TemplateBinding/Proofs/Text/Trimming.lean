import Mathlib.Data.List.TakeWhile
import TemplateBinding.Text.Blank

set_option autoImplicit false

namespace TemplateBinding.Text

variable {cs : List Char} {c : Char}

theorem mem_dropWhile {p : Char → Bool} (hc : c ∈ cs) (hp : p c = false) : c ∈ cs.dropWhile p := by
  rw [← List.takeWhile_append_dropWhile (p := p) (l := cs), List.mem_append] at hc
  obtain hc | hc := hc
  · rw [List.mem_takeWhile_imp hc] at hp
    cases hp
  · exact hc

theorem mem_trim (hc : c ∈ cs) (hb : isBlank c = false) : c ∈ trim cs := by
  have hfront := List.mem_reverse.2 (mem_dropWhile hc hb)
  exact List.mem_reverse.2 (mem_dropWhile hfront hb)

theorem trim_eq_self (h : ∀ c ∈ cs, isBlank c = false) : trim cs = cs := by
  have hself {l : List Char} (hl : ∀ c ∈ l, isBlank c = false) : l.dropWhile isBlank = l :=
    List.dropWhile_eq_self_iff.2 fun hlt => by simp [hl _ (List.getElem_mem hlt)]
  rw [trim, hself h, hself fun c hc => h c (List.mem_reverse.1 hc), List.reverse_reverse]

end TemplateBinding.Text
