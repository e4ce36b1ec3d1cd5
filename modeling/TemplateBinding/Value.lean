import TemplateBinding.Entries

set_option autoImplicit false

namespace TemplateBinding

/-- A function that the host lends to expressions. `body` tells which of the host's procedures
it runs; two functions are the same when all three fields are. -/
structure HostFunction where
  name : String
  /-- How many arguments it takes, where it insists on that. -/
  arity : Option Nat
  body : Nat
  deriving DecidableEq, Repr

inductive Value where
  | undefined
  | null
  | boolean (b : Bool)
  | integer (n : Int64)
  | float (x : Float)
  | string (s : String)
  | array (items : List Value)
  -- A list of entries that carries the order of its keys cannot be nested here; that the keys
  -- ascend is `Value.KeysAscend`, which parsing, conversion and evaluation keep.
  | object (entries : List (String × Value))
  | function (f : HostFunction)
  deriving Inhabited

namespace Value

def isNullish : Value → Bool
  | .undefined | .null => true
  | _ => false

def isNumber : Value → Bool
  | .integer _ | .float _ => true
  | _ => false

/-- Values that are neither containers nor functions nor missing. -/
def isPrimitive : Value → Bool
  | .boolean _ | .integer _ | .float _ | .string _ => true
  | _ => false

/-- Conditions hold of everything but missing values, false, zeros, not-a-number and the empty
text. -/
def isTruthy : Value → Bool
  | .undefined | .null => false
  | .boolean b => b
  | .integer n => n != 0
  | .float x => x != 0 && !x.isNaN
  | .string s => s != ""
  | .array _ | .object _ | .function _ => true

def typeName : Value → String
  | .undefined => "undefined"
  | .null => "null"
  | .boolean _ => "boolean"
  | .integer _ | .float _ => "number"
  | .string _ => "string"
  | .array _ => "array"
  | .object _ => "object"
  | .function _ => "function"

end Value

end TemplateBinding
