set_option autoImplicit false

namespace TemplateBinding

inductive Operator where
  | not | negate | positive
  | power | multiply | divide | remainder | add | subtract
  | lessThan | lessEqual | greaterThan | greaterEqual
  | equal | notEqual | strictEqual | strictNotEqual
  | and | or | coalesce
  | conditional
  deriving DecidableEq, Repr

inductive Associativity where
  | left
  | right
  deriving DecidableEq, Repr

inductive Form where
  /-- One operand, always evaluated. -/
  | unary
  /-- Two operands, both always evaluated. -/
  | binary
  /-- Two operands, the second evaluated only where the first does not decide. -/
  | shortCircuit
  /-- A condition and two branches, of which one is evaluated. -/
  | conditional
  deriving DecidableEq, Repr

namespace Operator

def all : List Operator :=
  [.not, .negate, .positive, .power, .multiply, .divide, .remainder, .add, .subtract, .lessThan,
    .lessEqual, .greaterThan, .greaterEqual, .equal, .notEqual, .strictEqual, .strictNotEqual,
    .and, .or, .coalesce, .conditional]

theorem mem_all (op : Operator) : op ∈ all := by cases op <;> decide

def symbol : Operator → List Char
  | .not => ['!']
  | .negate | .subtract => ['-']
  | .positive | .add => ['+']
  | .power => ['*', '*']
  | .multiply => ['*']
  | .divide => ['/']
  | .remainder => ['%']
  | .lessThan => ['<']
  | .lessEqual => ['<', '=']
  | .greaterThan => ['>']
  | .greaterEqual => ['>', '=']
  | .equal => ['=', '=']
  | .notEqual => ['!', '=']
  | .strictEqual => ['=', '=', '=']
  | .strictNotEqual => ['!', '=', '=']
  | .and => ['&', '&']
  | .or => ['|', '|']
  | .coalesce => ['?', '?']
  | .conditional => ['?', ':']

def precedence : Operator → Nat
  | .not | .negate | .positive => 14
  | .power => 13
  | .multiply | .divide | .remainder => 12
  | .add | .subtract => 11
  | .lessThan | .lessEqual | .greaterThan | .greaterEqual => 9
  | .equal | .notEqual | .strictEqual | .strictNotEqual => 8
  | .and => 4
  | .or | .coalesce => 3
  | .conditional => 2

def associativity : Operator → Associativity
  | .not | .negate | .positive | .power | .conditional => .right
  | _ => .left

def form : Operator → Form
  | .not | .negate | .positive => .unary
  | .and | .or | .coalesce => .shortCircuit
  | .conditional => .conditional
  | _ => .binary

def operands (op : Operator) : Nat :=
  match op.form with
  | .unary => 1
  | .binary | .shortCircuit => 2
  | .conditional => 3

/-- The name of an operator in listings and messages: its symbol, but for the two unary ones
that share theirs with a binary operator. -/
def name : Operator → List Char
  | .negate => ['n', 'e', 'g']
  | .positive => ['p', 'o', 's']
  | op => op.symbol

def binary? : List Char → Option Operator
  | ['*', '*'] => some .power
  | ['*'] => some .multiply
  | ['/'] => some .divide
  | ['%'] => some .remainder
  | ['+'] => some .add
  | ['-'] => some .subtract
  | ['<'] => some .lessThan
  | ['<', '='] => some .lessEqual
  | ['>'] => some .greaterThan
  | ['>', '='] => some .greaterEqual
  | ['=', '='] => some .equal
  | ['!', '='] => some .notEqual
  | ['=', '=', '='] => some .strictEqual
  | ['!', '=', '='] => some .strictNotEqual
  | ['&', '&'] => some .and
  | ['|', '|'] => some .or
  | ['?', '?'] => some .coalesce
  | _ => none

def unary? : List Char → Option Operator
  | ['!'] => some .not
  | ['-'] => some .negate
  | ['+'] => some .positive
  | _ => none

theorem binary?_symbol {op : Operator} (h : op.operands = 2) : binary? op.symbol = some op := by
  cases op <;> first | rfl | exact absurd h (by decide)

theorem unary?_symbol {op : Operator} (h : op.operands = 1) : unary? op.symbol = some op := by
  cases op <;> first | rfl | exact absurd h (by decide)

/-- Whether an operator that waits for its right operand takes it before `next` does. -/
def yieldsTo (op next : Operator) : Bool :=
  next.precedence < op.precedence ||
    (op.precedence = next.precedence && next.associativity = .left)

/-- All symbols that a text can hold, a longer one before those that begin it. -/
def symbols : List (List Char) :=
  [['=', '=', '='], ['!', '=', '='], ['*', '*'], ['<', '='], ['>', '='], ['=', '='], ['!', '='],
    ['&', '&'], ['|', '|'], ['?', '?'], ['+'], ['-'], ['*'], ['/'], ['%'], ['<'], ['>'], ['!']]

end Operator

end TemplateBinding
