import TemplateBinding.Fault
import TemplateBinding.Source.Cursor
import TemplateBinding.Text.Letter

set_option autoImplicit false

namespace TemplateBinding

def isNameStart (c : Char) : Bool := Text.isLetter c || c == '_' || c == '$'

def isNamePart (c : Char) : Bool := Text.isLetterOrNumeral c || c == '_' || c == '$'

theorem isNamePart_of_isNameStart {c : Char} (h : isNameStart c = true) : isNamePart c = true := by
  simp only [isNameStart, isNamePart, Bool.or_eq_true] at h ⊢
  rcases h with (h | h) | h
  · exact .inl (.inl (Text.isLetterOrNumeral_of_isLetter h))
  · exact .inl (.inr h)
  · exact .inr h

namespace Cursor

def nextIs (p : Char → Bool) (c : Cursor) : Bool := c.rest.head?.any p

def readName (c : Cursor) : List Char × Cursor := c.takeWhile isNamePart

theorem leads_readName (c : Cursor) : c.Leads c.readName.1 c.readName.2 :=
  leads_takeWhile isNamePart c

theorem readName_ne_nil {c : Cursor} (h : c.nextIs isNameStart = true) : c.readName.1 ≠ [] := by
  cases hr : c.rest with
  | nil => simp [nextIs, hr] at h
  | cons ch rest =>
    have hp : isNamePart ch = true := isNamePart_of_isNameStart (by simpa [nextIs, hr] using h)
    simp [readName, takeWhile, hr, hp]

/-- Reads further names, each behind a dot, after the names of a path, which are given last
name first. -/
def readPathAfter (names : List String) (c : Cursor) :
    Except LexicalFault (List String × Cursor) :=
  if c.nextIs (· == '.') then
    if c.next.nextIs isNameStart then
      readPathAfter (String.ofList c.next.readName.1 :: names) c.next.readName.2
    else .error (.danglingPath (".".intercalate names.reverse) c.offset)
  else .ok (names.reverse, c)
termination_by c.rest.length
decreasing_by
  rename_i h _
  cases hr : c.rest with
  | nil => simp [nextIs, hr] at h
  | cons ch rest =>
    have := (leads_next hr).length_lt (by simp)
    have := (leads_readName c.next).length_le
    rw [hr] at *; omega

def readPath (c : Cursor) : Except LexicalFault (List String × Cursor) :=
  readPathAfter [String.ofList c.readName.1] c.readName.2

theorem leads_of_readPathAfter {names path : List String} {c d : Cursor}
    (h : readPathAfter names c = .ok (path, d)) : ∃ s, c.Leads s d := by
  fun_induction readPathAfter names c with
  | case1 names c hdot _ ih =>
    obtain ⟨s, hs⟩ := ih h
    cases hr : c.rest with
    | nil => simp [nextIs, hr] at hdot
    | cons ch rest => exact ⟨_, (leads_next hr).trans ((leads_readName c.next).trans hs)⟩
  | case2 => simp at h
  | case3 names c =>
    obtain ⟨rfl, rfl⟩ := Prod.mk.inj (Except.ok.inj h)
    exact ⟨[], Leads.refl c⟩

theorem leads_of_readPath {path : List String} {c d : Cursor} (hc : c.nextIs isNameStart = true)
    (h : c.readPath = .ok (path, d)) : ∃ s, s ≠ [] ∧ c.Leads s d := by
  obtain ⟨s, hs⟩ := leads_of_readPathAfter h
  exact ⟨_, by simp [readName_ne_nil hc], (leads_readName c).trans hs⟩

end Cursor

end TemplateBinding
