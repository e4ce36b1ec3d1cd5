import TemplateBinding.Text.LetterTable

set_option autoImplicit false

namespace TemplateBinding.Text

def isLetter (c : Char) : Bool :=
  if c.toNat < 0x80 then c.isAlpha else alphabeticRanges.contains c

def isLetterOrNumeral (c : Char) : Bool :=
  if c.toNat < 0x80 then c.isAlphanum
  else alphabeticRanges.contains c || numeralRanges.contains c

theorem isLetterOrNumeral_of_isLetter {c : Char} (h : isLetter c = true) :
    isLetterOrNumeral c = true := by
  unfold isLetter at h
  unfold isLetterOrNumeral
  split <;> simp_all [Char.isAlphanum]

end TemplateBinding.Text
