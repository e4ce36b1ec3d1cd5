import TemplateBinding.Number.Decimal
import TemplateBinding.Operator
import TemplateBinding.Value.Equality

set_option autoImplicit false

namespace TemplateBinding

inductive Operand where
  | whole (n : Int64)
  | float (x : Float)

def Value.operand : Value → Operand
  | .integer n => .whole n
  | .boolean b => .whole (if b then 1 else 0)
  | .null => .whole 0
  | v => .float v.number

def Operand.toFloat : Operand → Float
  | .whole n => Number.ofInt n.toInt
  | .float x => x

inductive Arithmetic where
  | add | subtract | multiply | divide | remainder
  deriving DecidableEq, Repr

namespace Arithmetic

def floats : Arithmetic → Float → Float → Float
  | .add, x, y => x + y
  | .subtract, x, y => x - y
  | .multiply, x, y => x * y
  | .divide, x, y => x / y
  | .remainder, x, y => Number.remainder x y

/-- The whole result, where there is one and it fits a word. A remainder is taken only where
the quotient fits, too. -/
def words (op : Arithmetic) (m n : Int64) : Option Int64 :=
  let a := m.toInt
  let b := n.toInt
  match op with
  | .add => Number.word? (a + b)
  | .subtract => Number.word? (a - b)
  | .multiply => Number.word? (a * b)
  | .divide => if b = 0 ∨ a.tmod b ≠ 0 then none else Number.word? (a.tdiv b)
  | .remainder =>
    if b = 0 ∨ (Number.word? (a.tdiv b)).isNone then none else Number.word? (a.tmod b)

def decimals : Arithmetic → Number.Decimal → Number.Decimal → Option Number.Decimal
  | .add, a, b => a.add b
  | .subtract, a, b => a.sub b
  | .multiply, a, b => a.mul b
  | .divide, a, b => a.div b
  | .remainder, a, b => a.rem b

/-- A decimal result: whole where it is a whole number that fits, and else a float. -/
def ofDecimal (d : Number.Decimal) : Value :=
  match if d.isWhole then d.toWord? else none with
  | some n => .integer n
  | none => .float d.toFloat

/-- A float and a whole number, given as a float, meet as decimals, where both are decimals and
the result is one. -/
def mixed (op : Arithmetic) (x y : Float) : Value :=
  match (do op.decimals (← Number.Decimal.ofFloat x) (← Number.Decimal.ofFloat y)) with
  | some d => ofDecimal d
  | none => .float (op.floats x y)

def apply (op : Arithmetic) (a b : Value) : Value :=
  match a.operand, b.operand with
  | .whole m, .whole n =>
    match op.words m n with
    | some r => .integer r
    | none => .float (op.floats (Number.ofInt m.toInt) (Number.ofInt n.toInt))
  | .float x, .float y => .float (op.floats x y)
  | a, b => op.mixed a.toFloat b.toFloat

end Arithmetic

namespace Value

/-- Values that `+` joins as texts. -/
def isTextual : Value → Bool
  | .string _ | .array _ | .object _ | .function _ => true
  | _ => false

def add (a b : Value) : Value :=
  if a.isTextual || b.isTextual then .string (a.text ++ b.text) else Arithmetic.add.apply a b

/-- A power of words, where it fits one, for exponents below `2 ^ 32`. Of `0`, `1` and `-1` all
powers beyond the 64th repeat by parity, and of other numbers none of these fits. -/
def wordPower? (m n : Int64) : Option Int64 :=
  let e := n.toInt.toNat
  if n < 0 ∨ 2 ^ 32 ≤ e then none
  else Number.word? (m.toInt ^ (if e < 64 then e else 64 + e % 2))

def power (a b : Value) : Value :=
  let whole := match a.operand, b.operand with
    | .whole m, .whole n => wordPower? m n
    | _, _ => none
  match whole with
  | some r => .integer r
  | none => .float (a.number.pow b.number)

def negate (a : Value) : Value :=
  match a.operand with
  | .whole n =>
    match Number.word? (-n.toInt) with
    | some r => .integer r
    | none => .float (-(Number.ofInt n.toInt))
  | .float x => .float (-x)

def positive (a : Value) : Value :=
  match a.operand with
  | .whole n => .integer n
  | .float x => .float x

/-- The order of two values: texts by code points, whole numbers exactly, everything else by
number. Not-a-number has no place in it. -/
def order? (a b : Value) : Option Ordering :=
  match a, b with
  | .string s, .string t => some (compare s t)
  | .integer m, .integer n => some (compare m n)
  | a, b =>
    let x := a.number
    let y := b.number
    if x < y then some .lt
    else if x == y then some .eq
    else if y < x then some .gt
    else none

end Value

namespace Operator

def unaryFunction? : Operator → Option (Value → Value)
  | .not => some fun a => .boolean (!a.isTruthy)
  | .negate => some Value.negate
  | .positive => some Value.positive
  | _ => none

def binaryFunction? : Operator → Option (Value → Value → Value)
  | .power => some Value.power
  | .multiply => some Arithmetic.multiply.apply
  | .divide => some Arithmetic.divide.apply
  | .remainder => some Arithmetic.remainder.apply
  | .add => some Value.add
  | .subtract => some Arithmetic.subtract.apply
  | .lessThan => some fun a b => .boolean (a.order? b == some .lt)
  | .lessEqual => some fun a b => .boolean (a.order? b == some .lt || a.order? b == some .eq)
  | .greaterThan => some fun a b => .boolean (a.order? b == some .gt)
  | .greaterEqual => some fun a b => .boolean (a.order? b == some .gt || a.order? b == some .eq)
  | .equal => some fun a b => .boolean (a.looseEquals b)
  | .notEqual => some fun a b => .boolean (!a.looseEquals b)
  | .strictEqual => some fun a b => .boolean (a.strictEquals b)
  | .strictNotEqual => some fun a b => .boolean (!a.strictEquals b)
  | _ => none

/-- Whether the left operand settles the result, so that the right one is not evaluated. -/
def decides? : Operator → Option (Value → Bool)
  | .and => some fun a => !a.isTruthy
  | .or => some fun a => a.isTruthy
  | .coalesce => some fun a => !a.isNullish
  | _ => none

theorem unaryFunction?_isSome (op : Operator) :
    op.unaryFunction?.isSome = (op.form = .unary : Bool) := by
  cases op <;> rfl

theorem binaryFunction?_isSome (op : Operator) :
    op.binaryFunction?.isSome = (op.form = .binary : Bool) := by
  cases op <;> rfl

theorem decides?_isSome (op : Operator) :
    op.decides?.isSome = (op.form = .shortCircuit : Bool) := by
  cases op <;> rfl

end Operator

end TemplateBinding
