import TemplateBinding.Tree.Evaluation

set_option autoImplicit false

namespace TemplateBinding

namespace Run

variable {α : Type}

def all : List (Run α) → Run (List α)
  | [] => pure []
  | r :: rs => do
    let a ← r
    let as ← all rs
    return a :: as

def allEntries (before : Entries α) : List (String × Run α) → Run (Entries α)
  | [] => pure before
  | (key, r) :: rs => do
    let a ← r
    allEntries (Entries.insert before key a) rs

end Run

namespace Tree

@[induction_eliminator]
theorem ind {motive : Tree → Prop}
    (literal : ∀ v, motive (.literal v))
    (path : ∀ root segments, motive (.path root segments))
    (index : ∀ holder key, motive holder → motive key → motive (.index holder key))
    (unary : ∀ op operand, motive operand → motive (.unary op operand))
    (binary : ∀ op left right, motive left → motive right → motive (.binary op left right))
    (conditional : ∀ condition yes no, motive condition → motive yes → motive no →
      motive (.conditional condition yes no))
    (call : ∀ callee args, motive callee → (∀ arg ∈ args, motive arg) →
      motive (.call callee args))
    (array : ∀ items, (∀ item ∈ items, motive item) → motive (.array items))
    (object : ∀ entries, (∀ e ∈ entries, motive e.2) → motive (.object entries))
    (t : Tree) : motive t :=
  Tree.rec (motive_1 := motive) (motive_2 := fun ts => ∀ t ∈ ts, motive t)
    (motive_3 := fun es => ∀ e ∈ es, motive e.2) (motive_4 := fun e => motive e.2)
    literal path index unary binary conditional call array object
    (fun _ h => nomatch h)
    (fun _ _ head tail => List.forall_mem_cons.2 ⟨head, tail⟩)
    (fun _ h => nomatch h)
    (fun _ _ head tail => List.forall_mem_cons.2 ⟨head, tail⟩)
    (fun _ _ h => h) t

theorem evalItems_eq (env : Environment) (trees : List Tree) :
    evalItems env trees = Run.all (trees.map (eval env)) := by
  induction trees with
  | nil => rfl
  | cons tree trees ih =>
    calc evalItems env (tree :: trees)
      _ = (do
          let v ← eval env tree
          let vs ← evalItems env trees
          return v :: vs) := rfl
      _ = Run.all ((tree :: trees).map (eval env)) := by
          rw [ih]
          rfl

theorem evalEntries_eq (env : Environment) (before : Entries Value)
    (entries : List (String × Tree)) :
    evalEntries env before entries =
      Run.allEntries before (entries.map fun e => (e.1, eval env e.2)) := by
  induction entries generalizing before with
  | nil => rfl
  | cons e entries ih =>
    calc evalEntries env before (e :: entries)
      _ = (do
          let v ← eval env e.2
          evalEntries env (Entries.insert before e.1 v) entries) := rfl
      _ = Run.allEntries before ((e :: entries).map fun e => (e.1, eval env e.2)) := by
          simp only [ih]
          rfl

/-- What a call of a tree comes to, when `args` evaluates the arguments. -/
def callWith (env : Environment) (args : Run (List Value)) : Tree → Run Value
  | .path root (name :: names) =>
    if (env.resolve root (name :: names).dropLast).isNullish then pure .undefined
    else do
      let vs ← args
      env.callMember (env.resolve root (name :: names).dropLast)
        ((name :: names).getLastD name) vs
  | .index holder key => do
    let receiver ← eval env holder
    let k ← eval env key
    if receiver.isNullish then return .undefined
    else do
      let vs ← args
      env.callMember receiver k.propertyKey vs
  | callee => do
    let target ← eval env callee
    let vs ← args
    match target with
    | .function f => env.call f vs
    | found => Run.fail (.notCallable callee.describe found.typeName)

def isMember : Tree → Bool
  | .path _ (_ :: _) => true
  | .index _ _ => true
  | _ => false

theorem callWith_of_isMember {env : Environment} {callee : Tree} (h : callee.isMember = false)
    (args : Run (List Value)) :
    callWith env args callee = (do
      let target ← eval env callee
      let vs ← args
      match target with
      | .function f => env.call f vs
      | found => Run.fail (.notCallable callee.describe found.typeName)) := by
  cases callee with
  | path root segments =>
    cases segments with
    | nil => rfl
    | cons name names => cases h
  | index holder key => cases h
  | _ => rfl

theorem eval_call (env : Environment) (callee : Tree) (args : List Tree) :
    eval env (.call callee args) = callWith env (evalItems env args) callee := by
  cases callee with
  | path root segments => cases segments <;> rfl
  | _ => rfl

theorem eval_index (env : Environment) (holder key : Tree) :
    eval env (.index holder key) = (do
      let v ← eval env holder
      let k ← eval env key
      return (v.get? k.propertyKey).getD .undefined) := rfl

theorem eval_unary (env : Environment) (op : Operator) (operand : Tree) :
    eval env (.unary op operand) =
      match op.unaryFunction? with
      | some f => do return f (← eval env operand)
      | none => Run.fail (misplaced op "prefix") := rfl

theorem eval_binary (env : Environment) (op : Operator) (left right : Tree) :
    eval env (.binary op left right) =
      match op.binaryFunction?, op.decides? with
      | some f, _ => do
        let v ← eval env left
        let w ← eval env right
        return f v w
      | none, some decides => do
        let v ← eval env left
        if decides v then return v else eval env right
      | none, none => Run.fail (misplaced op "binary") := rfl

theorem eval_conditional (env : Environment) (condition yes no : Tree) :
    eval env (.conditional condition yes no) = (do
      if (← eval env condition).isTruthy then eval env yes else eval env no) := rfl

theorem eval_array (env : Environment) (items : List Tree) :
    eval env (.array items) = (do return .array (← evalItems env items)) := rfl

theorem eval_object (env : Environment) (entries : List (String × Tree)) :
    eval env (.object entries) = (do return .object (← evalEntries env [] entries)) := rfl

end Tree

namespace Environment

theorem call_congr {env env' : Environment} (h : env.host = env'.host) (f : HostFunction)
    (args : List Value) : env.call f args = env'.call f args := by
  simp only [call, h]

theorem callMember_congr {env env' : Environment} (h : env.host = env'.host) (receiver : Value)
    (name : String) (args : List Value) :
    env.callMember receiver name args = env'.callMember receiver name args := by
  simp only [callMember, call_congr h]

end Environment

namespace Tree

/-- Two trees come to the same, each in its environment, also where they are called. -/
def Same (env env' : Environment) (t t' : Tree) : Prop :=
  eval env t = eval env' t' ∧ ∀ args, callWith env args t = callWith env' args t'

namespace Same

variable {env env' : Environment}

theorem of_eval {t t' : Tree} (hh : env.host = env'.host) (ht : t.isMember = false)
    (ht' : t'.isMember = false) (hd : t.describe = t'.describe)
    (h : eval env t = eval env' t') : Same env env' t t' := by
  refine ⟨h, fun args => ?_⟩
  rw [callWith_of_isMember ht, callWith_of_isMember ht', h, hd]
  simp only [Environment.call_congr hh]

theorem literal (hh : env.host = env'.host) (v : Value) :
    Same env env' (.literal v) (.literal v) :=
  of_eval hh rfl rfl rfl rfl

theorem index {holder holder' key key' : Tree} (hh : env.host = env'.host)
    (h : eval env holder = eval env' holder') (hk : eval env key = eval env' key') :
    Same env env' (.index holder key) (.index holder' key') := by
  refine ⟨?_, fun args => ?_⟩
  · rw [eval_index, eval_index, h, hk]
  · simp only [callWith, h, hk, Environment.callMember_congr hh]

theorem unary {op : Operator} {t t' : Tree} (hh : env.host = env'.host)
    (h : eval env t = eval env' t') : Same env env' (.unary op t) (.unary op t') := by
  refine of_eval hh rfl rfl rfl ?_
  rw [eval_unary, eval_unary, h]

theorem binary {op : Operator} {t t' u u' : Tree} (hh : env.host = env'.host)
    (h : eval env t = eval env' t') (hu : eval env u = eval env' u') :
    Same env env' (.binary op t u) (.binary op t' u') := by
  refine of_eval hh rfl rfl rfl ?_
  rw [eval_binary, eval_binary, h, hu]

theorem conditional {t t' u u' v v' : Tree} (hh : env.host = env'.host)
    (h : eval env t = eval env' t') (hu : eval env u = eval env' u')
    (hv : eval env v = eval env' v') :
    Same env env' (.conditional t u v) (.conditional t' u' v') := by
  refine of_eval hh rfl rfl rfl ?_
  rw [eval_conditional, eval_conditional, h, hu, hv]

theorem call {callee callee' : Tree} {args args' : List Tree} (hh : env.host = env'.host)
    (h : ∀ vs, callWith env vs callee = callWith env' vs callee')
    (ha : args.map (eval env) = args'.map (eval env')) :
    Same env env' (.call callee args) (.call callee' args') := by
  refine of_eval hh rfl rfl rfl ?_
  rw [eval_call, eval_call, evalItems_eq, evalItems_eq, ha, h]

theorem array {items items' : List Tree} (hh : env.host = env'.host)
    (h : items.map (eval env) = items'.map (eval env')) :
    Same env env' (.array items) (.array items') := by
  refine of_eval hh rfl rfl rfl ?_
  rw [eval_array, eval_array, evalItems_eq, evalItems_eq, h]

theorem object {entries entries' : List (String × Tree)} (hh : env.host = env'.host)
    (h : entries.map (fun e => (e.1, eval env e.2)) =
      entries'.map (fun e => (e.1, eval env' e.2))) :
    Same env env' (.object entries) (.object entries') := by
  refine of_eval hh rfl rfl rfl ?_
  rw [eval_object, eval_object, evalEntries_eq, evalEntries_eq, h]

end Same

end Tree

end TemplateBinding
