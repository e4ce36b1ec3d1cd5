import TemplateBinding.Value.Conversion

set_option autoImplicit false

namespace TemplateBinding.Value

mutual

/-- Equality as data: the kinds must agree, and floats compare as floats, so that no
not-a-number equals itself. -/
def same : Value → Value → Bool
  | .undefined, .undefined | .null, .null => true
  | .boolean a, .boolean b => a == b
  | .integer a, .integer b => a == b
  | .float x, .float y => x == y
  | .string s, .string t => s == t
  | .array vs, .array ws => sameItems vs ws
  | .object es, .object fs => sameEntries es fs
  | .function f, .function g => f == g
  | _, _ => false

def sameItems : List Value → List Value → Bool
  | [], [] => true
  | v :: vs, w :: ws => same v w && sameItems vs ws
  | _, _ => false

def sameEntries : List (String × Value) → List (String × Value) → Bool
  | [], [] => true
  | (k, v) :: es, (l, w) :: fs => k == l && same v w && sameEntries es fs
  | _, _ => false

end

mutual

/-- Strict equality. Integers compare exactly, other numbers as floats; arrays and objects
compare by their contents. -/
def strictEquals : Value → Value → Bool
  | .undefined, .undefined | .null, .null => true
  | .boolean a, .boolean b => a == b
  | .integer a, .integer b => a == b
  | .integer a, .float y => Number.ofInt a.toInt == y
  | .float x, .integer b => x == Number.ofInt b.toInt
  | .float x, .float y => x == y
  | .string s, .string t => s == t
  | .array vs, .array ws => strictEqualsItems vs ws
  | .object es, .object fs => strictEqualsEntries es fs
  | .function f, .function g => f == g
  | _, _ => false

def strictEqualsItems : List Value → List Value → Bool
  | [], [] => true
  | v :: vs, w :: ws => strictEquals v w && strictEqualsItems vs ws
  | _, _ => false

/-- Objects list their entries by ascending keys, so equal objects agree entry by entry. -/
def strictEqualsEntries : List (String × Value) → List (String × Value) → Bool
  | [], [] => true
  | (k, v) :: es, (l, w) :: fs => k == l && strictEquals v w && strictEqualsEntries es fs
  | _, _ => false

end

def looseEqualsPrimitive (a b : Value) : Bool :=
  if a.typeName = b.typeName then strictEquals a b else a.number == b.number

def isContainer : Value → Bool
  | .array _ | .object _ => true
  | _ => false

/-- Loose equality. Missing values equal each other and nothing else, values of one type are
compared strictly, and a container meets a primitive value as its text. -/
def looseEquals (a b : Value) : Bool :=
  if a.isNullish || b.isNullish then a.isNullish && b.isNullish
  else if a.typeName = b.typeName then strictEquals a b
  else if a.isContainer && b.isPrimitive then looseEqualsPrimitive (.string a.text) b
  else if a.isPrimitive && b.isContainer then looseEqualsPrimitive a (.string b.text)
  else if a.isPrimitive && b.isPrimitive then a.number == b.number
  else false

end TemplateBinding.Value
