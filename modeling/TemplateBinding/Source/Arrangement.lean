import TemplateBinding.Limits
import TemplateBinding.Source.Lexeme

set_option autoImplicit false

namespace TemplateBinding

inductive ScopeKind where
  | group
  | call
  | array
  | index
  | object
  deriving DecidableEq, Repr

def ScopeKind.bracket : ScopeKind → Bracket
  | .group | .call => .round
  | .array | .index => .square
  | .object => .curly

def ScopeKind.allowsComma : ScopeKind → Bool
  | .call | .array | .object => true
  | .group | .index => false

/-- An operator whose right operand is not complete. -/
inductive Waiting where
  | operator (op : Operator)
  /-- A question mark before its colon. -/
  | question (position : Nat)
  /-- A conditional behind its colon. -/
  | colon
  deriving DecidableEq, Repr

structure Scope where
  kind : ScopeKind
  position : Nat
  commas : Nat
  /-- In an object: a key comes next. -/
  keyDue : Bool
  /-- The operators that wait outside of the bracket, the latest first. -/
  outer : List Waiting

inductive Place where
  /-- An operand, or the end of a bracket that has just been opened. -/
  | opened
  | operand
  | operator
  deriving DecidableEq, Repr

structure Arrangement where
  /-- The tokens so far, the last one first. -/
  output : List Token := []
  /-- The operators that wait inside the innermost bracket, the latest first. -/
  waiting : List Waiting := []
  /-- The open brackets, the innermost first. -/
  scopes : List Scope := []
  place : Place := .operand

namespace Arrangement

def keyDue (a : Arrangement) : Bool :=
  match a.scopes with
  | [] => false
  | scope :: _ => scope.kind = .object && scope.keyDue

def expected (a : Arrangement) : Expected :=
  if a.keyDue then .key else if a.place = .operator then .operator else .operand

def emitAll : List Waiting → List Token → Except GrammarFault (List Token)
  | [], output => .ok output
  | .operator op :: ws, output => emitAll ws (.operator op :: output)
  | .colon :: ws, output => emitAll ws (.operator .conditional :: output)
  | .question position :: _, _ => .error (.missingColon position)

def emitWhile (p : Operator → Bool) : List Waiting → List Token → List Waiting × List Token
  | .operator op :: ws, output =>
    if p op then emitWhile p ws (.operator op :: output) else (.operator op :: ws, output)
  | ws, output => (ws, output)

/-- Emits what waits above the innermost question mark, which meets its colon. -/
def emitToQuestion (position : Nat) : List Waiting → List Token →
    Except GrammarFault (List Waiting × List Token)
  | [], _ => .error (.danglingColon position)
  | .operator op :: ws, output => emitToQuestion position ws (.operator op :: output)
  | .colon :: ws, output => emitToQuestion position ws (.operator .conditional :: output)
  | .question _ :: ws, output => .ok (.colon :: ws, output)

def markCallee : List Token → List Token
  | ⟨.identifier path, arity⟩ :: output =>
    (if arity = referenceArity then ⟨.identifier path, calleeArity⟩ else ⟨.identifier path, arity⟩)
      :: output
  | output => output

def operand (a : Arrangement) (token : Token) (position : Nat) : Except ParseFault Arrangement :=
  if a.place = .operator then .error (.grammar (.unexpectedOperand position))
  else .ok { a with output := token :: a.output, place := .operator }

def openScope (a : Arrangement) (limits : Limits) (kind : ScopeKind) (position : Nat) :
    Except ParseFault Arrangement :=
  if limits.maxDepth ≤ a.scopes.length then
    .error (.limit (.nestingTooDeep limits.maxDepth position))
  else .ok {
    output := if kind = .call then markCallee a.output else a.output
    waiting := []
    scopes := ⟨kind, position, 0, kind = .object, a.waiting⟩ :: a.scopes
    place := .opened }

def opening (a : Arrangement) (limits : Limits) (bracket : Bracket) (position : Nat) :
    Except ParseFault Arrangement :=
  match bracket, a.place with
  | .round, .operator => a.openScope limits .call position
  | .round, _ => a.openScope limits .group position
  | .square, .operator => a.openScope limits .index position
  | .square, _ => a.openScope limits .array position
  | .curly, .operator => .error (.grammar (.unexpectedToken "\x7b" position))
  | .curly, _ => a.openScope limits .object position

/-- The token that a bracket of so many elements comes to; a group needs none. -/
def closingToken? (kind : ScopeKind) (elements : Nat) : Option Token :=
  match kind with
  | .group => none
  | .index => some (.of .index)
  | .call => some ⟨.call, elements⟩
  | .array => some ⟨.array, if elements = 0 then referenceArity else elements⟩
  | .object => some ⟨.object, elements⟩

def expectedOperand (found : String) (position : Nat) : ParseFault :=
  .grammar (.expectedOperand found position)

def closing (a : Arrangement) (bracket : Bracket) (position : Nat) :
    Except ParseFault Arrangement := do
  let found := inQuotes (String.singleton bracket.closer)
  if a.place = .operand then throw (expectedOperand found position)
  let output ← (emitAll a.waiting a.output).mapError .grammar
  match a.scopes with
  | [] => throw (.lexical (.unexpectedCloser bracket position))
  | scope :: scopes =>
    if scope.kind.bracket ≠ bracket then
      throw (.lexical (.mismatchedBracket scope.kind.bracket bracket position))
    if a.place = .opened ∧ (scope.kind = .group ∨ scope.kind = .index) then
      throw (expectedOperand found position)
    let elements := if a.place = .opened then 0 else scope.commas + 1
    return {
      output := (closingToken? scope.kind elements).toList ++ output
      waiting := scope.outer
      scopes := scopes
      place := .operator }

def comma (a : Arrangement) (position : Nat) : Except ParseFault Arrangement := do
  if a.place ≠ .operator then throw (expectedOperand "','" position)
  let output ← (emitAll a.waiting a.output).mapError .grammar
  match a.scopes with
  | [] => throw (.grammar (.unexpectedComma position))
  | scope :: scopes =>
    if !scope.kind.allowsComma then throw (.grammar (.unexpectedComma position))
    let scope := { scope with commas := scope.commas + 1, keyDue := scope.kind = .object }
    return { output, waiting := [], scopes := scope :: scopes, place := .operand }

def question (a : Arrangement) (position : Nat) : Except ParseFault Arrangement :=
  if a.place ≠ .operator then .error (expectedOperand "'?'" position)
  else
    let (waiting, output) := emitWhile (fun _ => true) a.waiting a.output
    .ok { a with output, waiting := .question position :: waiting, place := .operand }

def colon (a : Arrangement) (position : Nat) : Except ParseFault Arrangement := do
  if a.place ≠ .operator then throw (expectedOperand "':'" position)
  let (waiting, output) ← (emitToQuestion position a.waiting a.output).mapError .grammar
  return { a with output, waiting, place := .operand }

/-- An operator with one operand waits for it; one with two operands first lets go those that
bind at least as tightly. -/
def symbol (a : Arrangement) (symbol : List Char) (position : Nat) :
    Except ParseFault Arrangement :=
  if a.place = .operator then
    match Operator.binary? symbol with
    | none => .error (.grammar (.unexpectedToken (String.ofList symbol) position))
    | some op =>
      let (waiting, output) := emitWhile (·.yieldsTo op) a.waiting a.output
      .ok { a with output, waiting := .operator op :: waiting, place := .operand }
  else
    match Operator.unary? symbol with
    | none => .error (expectedOperand (inQuotes (String.ofList symbol)) position)
    | some op => .ok { a with waiting := .operator op :: a.waiting, place := .operand }

def key (a : Arrangement) (name : String) : Arrangement :=
  { a with
    output := .of (.key name) :: a.output
    scopes := match a.scopes with
      | [] => []
      | scope :: scopes => { scope with keyDue := false } :: scopes
    place := .operand }

def members (a : Arrangement) (names : List String) : Arrangement :=
  { a with output := (names.map fun name => Token.of (.property name)).reverse ++ a.output }

def accept (a : Arrangement) (limits : Limits) (lexeme : Lexeme) (position : Nat) :
    Except ParseFault Arrangement :=
  match lexeme with
  | .operand token => a.operand token position
  | .members names => .ok (a.members names)
  | .key name => .ok (a.key name)
  | .opening bracket => a.opening limits bracket position
  | .closing bracket => a.closing bracket position
  | .comma => a.comma position
  | .colon => a.colon position
  | .question => a.question position
  | .symbol cs => a.symbol cs position

def finish (a : Arrangement) (position : Nat) : Except ParseFault (List Token) :=
  if a.place = .operand then
    if a.output.isEmpty && a.waiting.isEmpty && a.scopes.isEmpty then
      .error (.grammar .emptyExpression)
    else .error (expectedOperand "end of input" position)
  else
    match a.scopes with
    | scope :: _ => .error (.lexical (.unclosedBracket scope.kind.bracket scope.position))
    | [] => ((emitAll a.waiting a.output).mapError .grammar).map List.reverse

def run (limits : Limits) (a : Arrangement) (c : Cursor) : Except ParseFault (List Token) :=
  match _h : Lexeme.read? a.expected c.skipBlanks with
  | .error fault => .error fault
  | .ok none => a.finish c.skipBlanks.offset
  | .ok (some (lexeme, next)) =>
    match a.accept limits lexeme c.skipBlanks.offset with
    | .error fault => .error fault
    | .ok b => run limits b next
termination_by c.rest.length
decreasing_by
  obtain ⟨s, hs, hl⟩ := Lexeme.leads_of_read? (by assumption)
  obtain ⟨t, ht⟩ := Cursor.leads_skipBlanks c
  have := hl.length_lt hs
  have := ht.length_le
  omega

end Arrangement

def arrange (limits : Limits) (source : String) : Except ParseFault (List Token) :=
  Arrangement.run limits {} (Cursor.start source)

def tokenize (limits : Limits) (source : String) : Except ParseFault (List Token) :=
  if limits.maxLength < source.length then
    .error (.limit (.inputTooLong source.length limits.maxLength))
  else arrange limits source

end TemplateBinding
