import TemplateBinding.Number.Numeral
import TemplateBinding.Number.Written
import TemplateBinding.Text.Blank
import TemplateBinding.Text.Search
import TemplateBinding.Value

set_option autoImplicit false

namespace TemplateBinding

mutual

/-- The text of a value. An array is written by its items, with commas between them. -/
def Value.chars : Value → List Char
  | .undefined => ['u', 'n', 'd', 'e', 'f', 'i', 'n', 'e', 'd']
  | .null => ['n', 'u', 'l', 'l']
  | .boolean true => ['t', 'r', 'u', 'e']
  | .boolean false => ['f', 'a', 'l', 's', 'e']
  | .integer n => Number.whole n.toInt
  | .float x => Number.text x
  | .string s => s.toList
  | .array items => [','].intercalate (Value.itemChars items)
  | .object _ => ['[', 'o', 'b', 'j', 'e', 'c', 't', ' ', 'O', 'b', 'j', 'e', 'c', 't', ']']
  | .function f =>
    ['f', 'u', 'n', 'c', 't', 'i', 'o', 'n', ' '] ++ f.name.toList ++
      ['(', ')', ' ', '\x7b', ' ', '[', 'n', 'a', 't', 'i', 'v', 'e', ' ', 'c', 'o', 'd', 'e', ']',
        ' ', '\x7d']

def Value.itemChars : List Value → List (List Char)
  | [] => []
  | v :: vs => (if v.isNullish then [] else v.chars) :: Value.itemChars vs

end

namespace Value

theorem itemChars_eq_map (vs : List Value) :
    itemChars vs = vs.map fun v => if v.isNullish then [] else v.chars := by
  induction vs with
  | nil => rfl
  | cons v vs ih => simp [itemChars, ih]

def string? : Value → Option String
  | .string s => some s
  | _ => none

theorem eq_string_of_string? {v : Value} {s : String} (h : v.string? = some s) : v = .string s := by
  cases v <;> simp_all [string?]

def text (v : Value) : String := v.string?.getD (String.ofList v.chars)

theorem text_eq_ofList_chars (v : Value) : v.text = String.ofList v.chars := by
  unfold text
  cases h : v.string? with
  | none => rfl
  | some s => rw [eq_string_of_string? h, chars, String.ofList_toList, Option.getD_some]

/-- The number that a text writes. Blanks around it do not matter, nothing is zero, and letters
stand only in an exponent or in the word for infinity. -/
def numberOfChars (cs : List Char) : Float :=
  let cs := Text.trim cs
  if cs = [] then 0
  else if cs = Number.infinityWord ∨ cs = '+' :: Number.infinityWord then
    Number.infinity .positive
  else if cs = '-' :: Number.infinityWord then Number.infinity .negative
  else if cs.any fun c => c.isAlpha && c != 'e' && c != 'E' then Number.nan
  else (Number.readFloat? cs).getD Number.nan

def number : Value → Float
  | .undefined | .object _ | .function _ => Number.nan
  | .null | .boolean false | .array [] => 0
  | .boolean true => 1
  | .integer n => Number.ofInt n.toInt
  | .float x => x
  | .string s => numberOfChars s.toList
  | .array [item] => numberOfChars item.chars
  | .array (_ :: _ :: _) => Number.nan

def asFloat : Value → Option Float
  | .integer n => some (Number.ofInt n.toInt)
  | .float x => some x
  | _ => none

def propertyKey (v : Value) : String := v.text

end Value

end TemplateBinding
