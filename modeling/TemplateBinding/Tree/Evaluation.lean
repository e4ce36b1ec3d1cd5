import TemplateBinding.Tree
import TemplateBinding.Value.Member
import TemplateBinding.Value.Method
import TemplateBinding.Value.Operation

/-!
What a tree yields in a context. Missing members are `undefined` and not faults; operands are
evaluated from left to right, and those that an operator does not need are not evaluated. The
calls of host functions are listed beside the outcome, in the order in which they are made.
-/

set_option autoImplicit false

namespace TemplateBinding

structure HostCall where
  function : HostFunction
  args : List Value

abbrev Host := HostFunction → List Value → Except EvalFault Value

/-- The outcome of an evaluation, and the host calls made on the way, the first one first. -/
structure Run (α : Type) where
  outcome : Except EvalFault α
  calls : List HostCall

namespace Run

variable {α β : Type}

protected def pure (a : α) : Run α := ⟨.ok a, []⟩

protected def bind (r : Run α) (f : α → Run β) : Run β :=
  match r.outcome with
  | .error fault => ⟨.error fault, r.calls⟩
  | .ok a => ⟨(f a).outcome, r.calls ++ (f a).calls⟩

instance : Monad Run where
  pure := Run.pure
  bind := Run.bind

def fail (fault : EvalFault) : Run α := ⟨.error fault, []⟩

def lift (outcome : Except EvalFault α) : Run α := ⟨outcome, []⟩

@[simp] theorem outcome_pure (a : α) : (pure a : Run α).outcome = .ok a := rfl

@[simp] theorem calls_pure (a : α) : (pure a : Run α).calls = [] := rfl

instance : LawfulMonad Run := LawfulMonad.mk' Run
  (fun r => by
    show Run.bind r Run.pure = r
    cases r with
    | mk outcome calls => cases outcome <;> simp [Run.bind, Run.pure])
  (fun a f => by
    show Run.bind (Run.pure a) f = f a
    simp [Run.bind, Run.pure])
  (fun r f g => by
    show Run.bind (Run.bind r f) g = Run.bind r fun a => Run.bind (f a) g
    cases r with
    | mk outcome calls =>
      cases outcome with
      | error fault => rfl
      | ok a =>
        simp only [Run.bind]
        cases (f a).outcome <;> simp)

end Run

/-- What an evaluation can see: the context of plain paths, the aliases, and the host. -/
structure Environment where
  host : Host
  context : Value
  aliases : Entries Value

namespace Environment

def start (env : Environment) : Root → Value
  | .context => env.context
  | .alias name => (Entries.get? env.aliases name).getD .undefined

def resolve (env : Environment) (root : Root) (segments : List String) : Value :=
  (env.start root).walk segments

def call (env : Environment) (f : HostFunction) (args : List Value) : Run Value :=
  match f.arity with
  | some arity =>
    if arity = args.length then ⟨env.host f args, [⟨f, args⟩]⟩
    else Run.fail (.arityMismatch f.name arity args.length)
  | none => ⟨env.host f args, [⟨f, args⟩]⟩

/-- Calls a member of a receiver: a function that it holds, or else a method. -/
def callMember (env : Environment) (receiver : Value) (name : String) (args : List Value) :
    Run Value :=
  match receiver.get? name with
  | some (.function f) => env.call f args
  | some found => Run.fail (.notCallable name found.typeName)
  | none => Run.lift (receiver.callMethod name args)

end Environment

namespace Tree

def describe : Tree → String
  | .path (.alias name) segments => ".".intercalate (("@" ++ name) :: segments)
  | .path .context segments => ".".intercalate segments
  | .literal v => v.text
  | _ => "expression"

def misplaced (op : Operator) (position : String) : EvalFault :=
  .typeError ("'" ++ String.ofList op.name ++ "' is not a " ++ position ++ " operator")

mutual

def eval (env : Environment) : Tree → Run Value
  | .literal v => pure v
  | .path root segments => pure (env.resolve root segments)
  | .index holder key => do
    let v ← eval env holder
    let k ← eval env key
    return (v.get? k.propertyKey).getD .undefined
  | .unary op operand =>
    match op.unaryFunction? with
    | some f => do return f (← eval env operand)
    | none => Run.fail (misplaced op "prefix")
  | .binary op left right =>
    match op.binaryFunction?, op.decides? with
    | some f, _ => do
      let v ← eval env left
      let w ← eval env right
      return f v w
    | none, some decides => do
      let v ← eval env left
      if decides v then return v else eval env right
    | none, none => Run.fail (misplaced op "binary")
  | .conditional condition yes no => do
    if (← eval env condition).isTruthy then eval env yes else eval env no
  | .call callee args =>
    match callee with
    | .path root (name :: names) =>
      let segments := name :: names
      let receiver := env.resolve root segments.dropLast
      if receiver.isNullish then return .undefined
      else do
        let vs ← evalItems env args
        env.callMember receiver (segments.getLastD name) vs
    | .index holder key => do
      let receiver ← eval env holder
      let k ← eval env key
      if receiver.isNullish then return .undefined
      else do
        let vs ← evalItems env args
        env.callMember receiver k.propertyKey vs
    | callee => do
      let target ← eval env callee
      let vs ← evalItems env args
      match target with
      | .function f => env.call f vs
      | found => Run.fail (.notCallable callee.describe found.typeName)
  | .array items => do return .array (← evalItems env items)
  | .object entries => do return .object (← evalEntries env [] entries)

def evalItems (env : Environment) : List Tree → Run (List Value)
  | [] => pure []
  | tree :: trees => do
    let v ← eval env tree
    let vs ← evalItems env trees
    return v :: vs

def evalEntries (env : Environment) (before : Entries Value) :
    List (String × Tree) → Run (List (String × Value))
  | [] => pure before
  | (key, tree) :: entries => do
    let v ← eval env tree
    evalEntries env (Entries.insert before key v) entries

end

end Tree

end TemplateBinding
