import TemplateBinding.Json
import TemplateBinding.Number.Written
import TemplateBinding.Text.Search

set_option autoImplicit false

namespace TemplateBinding.Json

def hexDigit (n : Nat) : Char := Nat.digitChar (n % 16)

def escapedChar (c : Char) : List Char :=
  match c with
  | '\"' => ['\\', '\"']
  | '\\' => ['\\', '\\']
  | '\x08' => ['\\', 'b']
  | '\x0c' => ['\\', 'f']
  | '\n' => ['\\', 'n']
  | '\r' => ['\\', 'r']
  | '\t' => ['\\', 't']
  | c =>
    if c.toNat < 0x20 then ['\\', 'u', '0', '0', hexDigit (c.toNat / 16), hexDigit c.toNat] else [c]

def quoted (s : String) : List Char := '\"' :: s.toList.flatMap escapedChar ++ ['\"']

def leafChars : Json → List Char
  | .null => ['n', 'u', 'l', 'l']
  | .boolean true => ['t', 'r', 'u', 'e']
  | .boolean false => ['f', 'a', 'l', 's', 'e']
  | .integer n => Number.whole n
  | .float x => Number.json x
  | .string s => quoted s
  | .array _ => ['[', ']']
  | .object _ => ['\x7b', '\x7d']

mutual

def compact : Json → List Char
  | .array items => '[' :: [','].intercalate (compactItems items) ++ [']']
  | .object entries => '\x7b' :: [','].intercalate (compactEntries entries) ++ ['\x7d']
  | j => leafChars j

def compactItems : List Json → List (List Char)
  | [] => []
  | j :: js => compact j :: compactItems js

def compactEntries : List (String × Json) → List (List Char)
  | [] => []
  | (k, j) :: es => (quoted k ++ ':' :: compact j) :: compactEntries es

end

def lineBreak (steps : Nat) : List Char := '\n' :: List.replicate (2 * steps) ' '

/-- Parts on lines of their own between two brackets; nothing at all stays on one line. -/
def block (opening closing : Char) (steps : Nat) (parts : List (List Char)) : List Char :=
  if parts.isEmpty then [opening, closing]
  else
    opening :: lineBreak (steps + 1) ++ (',' :: lineBreak (steps + 1)).intercalate parts ++
      lineBreak steps ++ [closing]

mutual

def pretty (steps : Nat) : Json → List Char
  | .array items => block '[' ']' steps (prettyItems (steps + 1) items)
  | .object entries => block '\x7b' '\x7d' steps (prettyEntries (steps + 1) entries)
  | j => leafChars j

def prettyItems (steps : Nat) : List Json → List (List Char)
  | [] => []
  | j :: js => pretty steps j :: prettyItems steps js

def prettyEntries (steps : Nat) : List (String × Json) → List (List Char)
  | [] => []
  | (k, j) :: es => (quoted k ++ ':' :: ' ' :: pretty steps j) :: prettyEntries steps es

end

end TemplateBinding.Json
