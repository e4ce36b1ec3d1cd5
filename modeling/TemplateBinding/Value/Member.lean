import TemplateBinding.Number.Digits
import TemplateBinding.Value

set_option autoImplicit false

namespace TemplateBinding

def indexOfName (name : String) : Option Nat :=
  if name ≠ "" ∧ name.toList.all Char.isDigit then some (Number.digitsValue name.toList) else none

namespace Value

/-- The member of a value, where there is one: an entry of an object, an item of an array, a
character of a text, the length of these, and the name and the arity of a function. -/
def get? (v : Value) (name : String) : Option Value :=
  match v with
  | .object entries => Entries.get? entries name
  | .array items =>
    if name = "length" then some (.integer (Int64.ofNat items.length))
    else (indexOfName name).bind (items[·]?)
  | .string s =>
    if name = "length" then some (.integer (Int64.ofNat s.toList.length))
    else ((indexOfName name).bind (s.toList[·]?)).map fun c => .string (String.singleton c)
  | .function f =>
    if name = "name" then some (.string f.name)
    else if name = "length" then some (.integer (Int64.ofNat (f.arity.getD 0)))
    else none
  | _ => none

/-- Follows a path of members; where one is missing, the walk ends in `undefined`. -/
def walk : Value → List String → Value
  | v, [] => v
  | v, name :: names =>
    match v.get? name with
    | some w => w.walk names
    | none => .undefined

@[simp] theorem walk_undefined (names : List String) : walk .undefined names = .undefined := by
  cases names <;> rfl

theorem walk_append (v : Value) (names others : List String) :
    v.walk (names ++ others) = (v.walk names).walk others := by
  induction names generalizing v with
  | nil => rfl
  | cons name names ih =>
    simp only [List.cons_append, walk]
    cases v.get? name with
    | none => simp
    | some w => exact ih w

end Value

end TemplateBinding
