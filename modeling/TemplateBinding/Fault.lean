import TemplateBinding.Value.Method

set_option autoImplicit false

namespace TemplateBinding

inductive Bracket where
  | round
  | square
  | curly
  deriving DecidableEq, Repr

def Bracket.opener : Bracket → Char
  | .round => '('
  | .square => '['
  | .curly => '\x7b'

def Bracket.closer : Bracket → Char
  | .round => ')'
  | .square => ']'
  | .curly => '\x7d'

/-- Faults of characters and brackets. A position is a number of bytes before a place of the
source. -/
inductive LexicalFault where
  | unterminatedString (position : Nat)
  | invalidEscape (sequence : String) (position : Nat)
  | unexpectedCharacter (character : Char) (position : Nat)
  | invalidNumber (text : String) (position : Nat)
  /-- A dot that ends a path. -/
  | danglingPath (path : String) (position : Nat)
  /-- A dot after an operand, without a name behind it. -/
  | unnamedMember (position : Nat)
  | unnamedAlias (position : Nat)
  | mismatchedBracket (expected found : Bracket) (position : Nat)
  | unclosedBracket (bracket : Bracket) (position : Nat)
  | unexpectedCloser (found : Bracket) (position : Nat)
  deriving DecidableEq, Repr

inductive GrammarFault where
  | emptyExpression
  | unexpectedOperand (position : Nat)
  | expectedOperand (found : String) (position : Nat)
  | unexpectedToken (token : String) (position : Nat)
  | danglingColon (position : Nat)
  | missingColon (position : Nat)
  | unexpectedComma (position : Nat)
  | expectedObjectKey (position : Nat)
  | missingKeyColon (key : String) (position : Nat)
  deriving DecidableEq, Repr

inductive StreamFault where
  | emptyStream
  | invalidArity (token : String) (arity : Int)
  | missingOperands (token : String) (expected found : Nat)
  | leftoverOperands (count : Nat)
  | misplacedKey (key : String)
  | missingKey (entry : Nat)
  | invalidIdentifier (text : String)
  deriving DecidableEq, Repr

inductive LimitFault where
  | inputTooLong (length limit : Nat)
  | nestingTooDeep (limit position : Nat)
  | expressionTooDeep (limit : Nat)
  deriving DecidableEq, Repr

inductive ParseFault where
  | lexical (fault : LexicalFault)
  | grammar (fault : GrammarFault)
  | stream (fault : StreamFault)
  | limit (fault : LimitFault)
  deriving DecidableEq, Repr

def inQuotes (s : String) : String := "'" ++ s ++ "'"

def atPosition (position : Nat) : String := " at position " ++ toString position

def LexicalFault.message : LexicalFault → String
  | .unterminatedString position =>
    "unterminated string starting" ++ atPosition position
  | .invalidEscape sequence position =>
    "invalid escape sequence " ++ inQuotes sequence ++ atPosition position
  | .unexpectedCharacter character position =>
    "unexpected character " ++ inQuotes (String.singleton character) ++ atPosition position
  | .invalidNumber text position => "invalid number " ++ inQuotes text ++ atPosition position
  | .danglingPath path position =>
    "invalid identifier" ++ atPosition position ++ ": " ++ inQuotes (path ++ ".") ++
      " must be followed by a property name"
  | .unnamedMember position =>
    "invalid identifier" ++ atPosition position ++ ": '.' must be followed by a property name"
  | .unnamedAlias position =>
    "invalid identifier" ++ atPosition position ++ ": '@' must be followed by an alias name"
  | .mismatchedBracket expected found position =>
    "expected " ++ inQuotes (String.singleton expected.closer) ++ " but found " ++
      inQuotes (String.singleton found.closer) ++ atPosition position
  | .unclosedBracket bracket position =>
    inQuotes (String.singleton bracket.opener) ++ " opened" ++ atPosition position ++
      " is never closed"
  | .unexpectedCloser found position =>
    inQuotes (String.singleton found.closer) ++ atPosition position ++ " closes nothing"

def GrammarFault.message : GrammarFault → String
  | .emptyExpression => "empty expression"
  | .unexpectedOperand position =>
    "unexpected operand" ++ atPosition position ++ ", expected an operator"
  | .expectedOperand found position =>
    "expected an operand but found " ++ found ++ atPosition position
  | .unexpectedToken token position => "unexpected " ++ inQuotes token ++ atPosition position
  | .danglingColon position => "':'" ++ atPosition position ++ " has no matching '?'"
  | .missingColon position => "'?'" ++ atPosition position ++ " has no matching ':'"
  | .unexpectedComma position =>
    "','" ++ atPosition position ++ " is outside of a call, array or object"
  | .expectedObjectKey position => "expected an object key" ++ atPosition position
  | .missingKeyColon key position =>
    "expected ':' after object key " ++ inQuotes key ++ atPosition position

def StreamFault.message : StreamFault → String
  | .emptyStream => "token stream is empty"
  | .invalidArity token arity =>
    "token " ++ inQuotes token ++ " has invalid arity " ++ String.ofList (Number.whole arity)
  | .missingOperands token expected found =>
    inQuotes token ++ " needs " ++ toString expected ++ " operands but only " ++ toString found ++
      " are available"
  | .leftoverOperands count =>
    toString count ++ " operand(s) left over after the whole expression"
  | .misplacedKey key => "object key " ++ inQuotes key ++ " used outside of an object literal"
  | .missingKey entry => "object literal entry " ++ toString entry ++ " has no key"
  | .invalidIdentifier text => "invalid identifier " ++ inQuotes text

def LimitFault.message : LimitFault → String
  | .inputTooLong length limit =>
    "expression is " ++ toString length ++ " characters long, limit is " ++ toString limit
  | .nestingTooDeep limit position =>
    "brackets nested deeper than " ++ toString limit ++ " levels" ++ atPosition position
  | .expressionTooDeep limit => "expression tree deeper than " ++ toString limit ++ " levels"

def ParseFault.message : ParseFault → String
  | .lexical fault => "lex error: " ++ fault.message
  | .grammar fault => "syntax error: " ++ fault.message
  | .stream fault => "compile error: " ++ fault.message
  | .limit fault => "resource error: " ++ fault.message

end TemplateBinding
