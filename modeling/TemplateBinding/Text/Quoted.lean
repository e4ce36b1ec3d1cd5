import TemplateBinding.Text.UnshownTable

set_option autoImplicit false

namespace TemplateBinding.Text

def isShown (c : Char) : Bool :=
  if c.toNat < 0x80 then 0x20 ≤ c.toNat && c.toNat < 0x7f else !unshownRanges.contains c

/-- The written form of one character: its short escape, itself, or its code point in braces. -/
def quotedChar (c : Char) : List Char :=
  match c with
  | '\"' => ['\\', '\"']
  | '\\' => ['\\', '\\']
  | '\n' => ['\\', 'n']
  | '\r' => ['\\', 'r']
  | '\t' => ['\\', 't']
  | '\x00' => ['\\', '0']
  | c => if isShown c then [c] else ['\\', 'u', '\x7b'] ++ Nat.toDigits 16 c.toNat ++ ['\x7d']

def quoted (cs : List Char) : List Char := '\"' :: cs.flatMap quotedChar ++ ['\"']

end TemplateBinding.Text
