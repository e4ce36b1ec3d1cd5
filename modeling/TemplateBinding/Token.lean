import TemplateBinding.Number.Written
import TemplateBinding.Operator
import TemplateBinding.Text.Quoted

set_option autoImplicit false

namespace TemplateBinding

inductive Lexical where
  | integer (n : Int64)
  | float (x : Float)
  | string (s : String)
  | boolean (b : Bool)
  | null
  | undefined
  /-- A dotted path, which starts in the aliases when it starts with `@`. -/
  | identifier (path : String)
  /-- A named member of the operand before it. -/
  | property (name : String)
  /-- The key of an object entry, before the entry's value. -/
  | key (name : String)
  | operator (op : Operator)
  /-- A member of one operand that the next one names. -/
  | index
  | call
  | array
  | object

/-- A lexical element with its arity. Operators have their number of operands, calls, arrays and
objects that of their arguments, items and entries, and the rest has none; but an identifier or
an empty array has `-1`, and an identifier that is called has `-2`. -/
structure Token where
  lexical : Lexical
  arity : Int

def referenceArity : Int := -1

def calleeArity : Int := -2

namespace Lexical

def chars : Lexical → List Char
  | .integer n => Number.whole n.toInt
  | .float x => Number.plain x
  | .string s => Text.quoted s.toList
  | .boolean true => ['t', 'r', 'u', 'e']
  | .boolean false => ['f', 'a', 'l', 's', 'e']
  | .null => ['n', 'u', 'l', 'l']
  | .undefined => ['u', 'n', 'd', 'e', 'f', 'i', 'n', 'e', 'd']
  | .identifier path => path.toList
  | .property name => '.' :: name.toList
  | .key name => name.toList ++ [':']
  | .operator op => op.name
  | .index => ['[', ']']
  | .call => ['c', 'a', 'l', 'l']
  | .array => ['a', 'r', 'r', 'a', 'y']
  | .object => ['o', 'b', 'j', 'e', 'c', 't']

def text (l : Lexical) : String := String.ofList l.chars

def defaultArity : Lexical → Int
  | .identifier _ => referenceArity
  | .operator op => op.operands
  | _ => 0

end Lexical

namespace Token

def of (l : Lexical) : Token := ⟨l, l.defaultArity⟩

def operator (op : Operator) : Token := .of (.operator op)

def text (t : Token) : String := String.ofList (t.lexical.chars ++ '/' :: Number.whole t.arity)

end Token

end TemplateBinding
