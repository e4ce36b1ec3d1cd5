import TemplateBinding.Json
import TemplateBinding.Number.Word
import TemplateBinding.Number.Binary
import TemplateBinding.Value

set_option autoImplicit false

namespace TemplateBinding.Value

mutual

def toJson : Value → Json
  | .undefined | .null | .function _ => .null
  | .boolean b => .boolean b
  | .integer n => .integer n.toInt
  | .float x => if x.isFinite then .float x else .null
  | .string s => .string s
  | .array items => .array (toJsonItems items)
  | .object entries => .object (toJsonEntries entries)

def toJsonItems : List Value → List Json
  | [] => []
  | v :: vs => toJson v :: toJsonItems vs

def toJsonEntries : List (String × Value) → List (String × Json)
  | [] => []
  | (k, v) :: es => (k, toJson v) :: toJsonEntries es

end

/-- A whole number that is no word becomes a float. -/
def ofWhole (n : Int) : Value :=
  match Number.word? n with
  | some w => .integer w
  | none => .float (Number.ofInt n)

mutual

def ofJson : Json → Value
  | .null => .null
  | .boolean b => .boolean b
  | .integer n => ofWhole n
  | .float x => .float x
  | .string s => .string s
  | .array items => .array (ofJsonItems items)
  | .object entries => .object (ofJsonEntries entries)

def ofJsonItems : List Json → List Value
  | [] => []
  | j :: js => ofJson j :: ofJsonItems js

def ofJsonEntries : List (String × Json) → List (String × Value)
  | [] => []
  | (k, j) :: es => (k, ofJson j) :: ofJsonEntries es

end

end TemplateBinding.Value
