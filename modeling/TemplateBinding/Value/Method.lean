import TemplateBinding.Number.Decimal
import TemplateBinding.Text.Case
import TemplateBinding.Value.Equality

set_option autoImplicit false

namespace TemplateBinding

/-- Why an evaluation fails. A missing value is no reason; all of these come of calls. -/
inductive EvalFault where
  | notCallable (callee : String) (found : String)
  | arityMismatch (name : String) (expected found : Nat)
  | unknownMethod (method : String) (typeName : String)
  | typeError (text : String)
  | host (name : String) (text : String)
  deriving DecidableEq, Repr

def EvalFault.message : EvalFault → String
  | .notCallable callee found => callee ++ " is not a function (found " ++ found ++ ")"
  | .arityMismatch name expected found =>
    name ++ " expects " ++ toString expected ++ " argument(s), got " ++ toString found
  | .unknownMethod method typeName => typeName ++ " has no method '" ++ method ++ "'"
  | .typeError text => "type error: " ++ text
  | .host name text => name ++ " failed: " ++ text

namespace Value

def expectArgs (method : String) (args : List Value) (least most : Nat) :
    Except EvalFault Unit :=
  if args.length < least then .error (.arityMismatch method least args.length)
  else if most < args.length then .error (.arityMismatch method most args.length)
  else .ok ()

def oneArg (method : String) (args : List Value) : Except EvalFault Value :=
  match args with
  | [arg] => .ok arg
  | args => .error (.arityMismatch method 1 args.length)

/-- The position that a number means in a sequence of the given length: counted from the end when
it is negative, and never outside of the sequence. It is computed in floats. -/
def relativePosition (length : Nat) (x : Float) : Nat :=
  if x.isNaN then 0
  else if x < 0 then Number.size (max (Number.ofInt length + Number.cut x) 0)
  else min (Number.size (Number.cut x)) length

def slicePosition (length : Nat) (arg : Option Value) (default : Nat) : Nat :=
  match arg with
  | none | some .undefined => default
  | some v => relativePosition length v.number

def sliceBounds (length : Nat) (args : List Value) : Nat × Nat :=
  let start := slicePosition length args[0]? 0
  (start, max start (slicePosition length args[1]? length))

def slice {α : Type} (items : List α) (args : List Value) : List α :=
  let (start, stop) := sliceBounds items.length args
  (items.take stop).drop start

def charAt (cs : List Char) (position : Float) : List Char :=
  if 0 ≤ position then
    match Number.truncate? position with
    | some t => cs[t.toNat]?.toList
    | none => []
  else []

/-- The parts of a text between separators; without a separator the text is one part, and an
empty one parts all characters. -/
def splitText (cs : List Char) (separator : Option Value) : List (List Char) :=
  match separator with
  | none | some .undefined => [cs]
  | some v => if v.chars.isEmpty then cs.map ([·]) else Text.split v.chars cs

def joinItems (items : List Value) (separator : Option Value) : List Char :=
  let separator := match separator with
    | none | some .undefined => [',']
    | some v => v.chars
  separator.intercalate (itemChars items)

/-- A finite number with so many decimals. The float is first brought to a decimal, which takes
at most 28 places, and rounded away from zero in a tie. -/
def toFixed (x : Float) (places : Nat) : List Char :=
  match if places ≤ 28 then Number.Decimal.ofFloatRetaining x else none with
  | some d => (d.roundPlaces places).withPlaces places
  | none => Number.fixed places x

def fixedMethod (x : Float) (args : List Value) : Except EvalFault Value := do
  expectArgs "toFixed" args 0 1
  let places := match args with
    | v :: _ => v.number
    | [] => 0
  if 0 ≤ places && places ≤ 100 then
    match Number.truncate? places, Number.truncate? x with
    | some places, some _ => return .string (String.ofList (toFixed x places.toNat))
    | _, _ => return .string (String.ofList (Number.text x))
  else
    throw (.typeError ("toFixed() digits argument must be between 0 and 100, got " ++
      String.ofList (Number.text places)))

def ofChars (cs : List Char) : Value := .string (String.ofList cs)

def ofPosition (position : Option Nat) : Value :=
  match position with
  | some i => .integer (Int64.ofNat i)
  | none => .integer (-1)

def stringMethod (s : String) (method : String) (args : List Value) : Except EvalFault Value :=
  let cs := s.toList
  match method with
  | "toUpperCase" => do expectArgs method args 0 0; return ofChars (Text.upper cs)
  | "toLowerCase" => do expectArgs method args 0 0; return ofChars (Text.lower cs)
  | "trim" => do expectArgs method args 0 0; return ofChars (Text.trim cs)
  | "includes" => do
    let needle ← oneArg method args
    return .boolean (Text.find needle.chars cs).isSome
  | "startsWith" => do
    let needle ← oneArg method args
    return .boolean (needle.chars.isPrefixOf cs)
  | "endsWith" => do
    let needle ← oneArg method args
    return .boolean (needle.chars.isSuffixOf cs)
  | "indexOf" => do
    let needle ← oneArg method args
    return ofPosition (Text.find needle.chars cs)
  | "charAt" => do
    expectArgs method args 0 1
    return ofChars (charAt cs (args.head?.elim 0 number))
  | "slice" => do expectArgs method args 0 2; return ofChars (slice cs args)
  | "split" => do
    expectArgs method args 0 1
    return .array ((splitText cs args.head?).map ofChars)
  | "toString" => do expectArgs method args 0 0; return .string s
  | _ => throw (.unknownMethod method "string")

def arrayMethod (items : List Value) (method : String) (args : List Value) :
    Except EvalFault Value :=
  match method with
  | "join" => do expectArgs method args 0 1; return ofChars (joinItems items args.head?)
  | "includes" => do
    let needle ← oneArg method args
    return .boolean (items.any (strictEquals · needle))
  | "indexOf" => do
    let needle ← oneArg method args
    return ofPosition (items.findIdx? (strictEquals · needle))
  | "slice" => do expectArgs method args 0 2; return .array (slice items args)
  | "toString" => do
    expectArgs method args 0 0
    return .string (text (.array items))
  | _ => throw (.unknownMethod method "array")

def callMethod (receiver : Value) (method : String) (args : List Value) :
    Except EvalFault Value :=
  match receiver with
  | .string s => stringMethod s method args
  | .array items => arrayMethod items method args
  | .integer _ | .float _ =>
    match method with
    | "toFixed" => fixedMethod receiver.number args
    | "toString" => do expectArgs method args 0 0; return .string receiver.text
    | _ => throw (.unknownMethod method "number")
  | .boolean _ =>
    match method with
    | "toString" => do expectArgs method args 0 0; return .string receiver.text
    | _ => throw (.unknownMethod method "boolean")
  | _ => throw (.notCallable method "undefined")

end Value

end TemplateBinding
