import TemplateBinding.Proofs.Merging

set_option autoImplicit false

namespace TemplateBinding

def Value.member (v : Value) (name : String) : Value := (v.get? name).getD .undefined

theorem Value.walk_eq_foldl (v : Value) (names : List String) :
    v.walk names = names.foldl Value.member v := by
  induction names generalizing v with
  | nil => rfl
  | cons name names ih =>
    rw [List.foldl_cons, ← ih, walk, member]
    cases v.get? name with
    | none => exact (walk_undefined names).symm
    | some w => rfl

/-- What an operator makes of operands that have all been evaluated. The operators that evaluate
some of their operands only select one of them. -/
def Operator.combine? (op : Operator) : List Value → Option Value
  | [v] => op.unaryFunction?.map fun f => f v
  | [v, w] =>
    match op.binaryFunction?, op.decides? with
    | some f, _ => some (f v w)
    | none, some decides => some (if decides v then v else w)
    | none, none => none
  | [condition, yes, no] =>
    if op = .conditional then some (if condition.isTruthy then yes else no) else none
  | _ => none

namespace Eager

inductive Item where
  | value (v : Value)
  | key (name : String)

def popValues : Nat → List Value → List Item → Option (List Value × List Item)
  | 0, popped, stack => some (popped, stack)
  | n + 1, popped, .value v :: stack => popValues n (v :: popped) stack
  | _, _, _ => none

def popEntries : Nat → List (String × Value) → List Item →
    Option (List (String × Value) × List Item)
  | 0, popped, stack => some (popped, stack)
  | n + 1, popped, .value v :: .key name :: stack => popEntries n ((name, v) :: popped) stack
  | _, _, _ => none

def step (env : Environment) (stack : List Item) (token : Token) : Option (List Item) :=
  match token.lexical with
  | .identifier text => do
    let (root, segments) ← (splitIdentifier text).toOption
    return .value (segments.foldl Value.member (env.start root)) :: stack
  | .key name => return .key name :: stack
  | .property name =>
    match stack with
    | .value holder :: stack => some (.value (holder.member name) :: stack)
    | _ => none
  | .index =>
    match stack with
    | .value key :: .value holder :: stack =>
      some (.value (holder.member key.propertyKey) :: stack)
    | _ => none
  | .array => do
    let (items, stack) ← popValues token.arity.toNat [] stack
    return .value (.array items) :: stack
  | .object => do
    let (entries, stack) ← popEntries token.arity.toNat [] stack
    return .value (.object (Entries.ofList entries)) :: stack
  | .operator op => do
    let (operands, stack) ← popValues op.operands [] stack
    return .value (← op.combine? operands) :: stack
  | .call => none
  | l => return .value (← l.value?) :: stack

def run (env : Environment) (stack : List Item) : List Token → Option (List Item)
  | [] => some stack
  | token :: tokens => (step env stack token).bind fun stack => run env stack tokens

def value? (env : Environment) (tokens : List Token) : Option Value :=
  match run env [] tokens with
  | some [.value v] => some v
  | _ => none

variable {env : Environment}

theorem run_cons (stack : List Item) (token : Token) (tokens : List Token) :
    run env stack (token :: tokens) =
      (step env stack token).bind fun stack => run env stack tokens := rfl

theorem run_append (stack : List Item) (xs ys : List Token) :
    run env stack (xs ++ ys) = (run env stack xs).bind fun stack => run env stack ys := by
  induction xs generalizing stack with
  | nil => rfl
  | cons x xs ih =>
    simp only [List.cons_append, run_cons]
    cases step env stack x with
    | none => rfl
    | some stack => exact ih stack

theorem run_singleton (stack : List Item) (token : Token) :
    run env stack [token] = step env stack token := by
  rw [run_cons]
  cases step env stack token <;> rfl

theorem popValues_map (vs popped : List Value) (stack : List Item) :
    popValues vs.length popped (vs.map .value ++ stack) = some (vs.reverse ++ popped, stack) := by
  induction vs generalizing popped with
  | nil => rfl
  | cons v vs ih =>
    rw [List.reverse_cons, List.append_assoc]
    exact ih (v :: popped)

def entryItems (entries : List (String × Value)) : List Item :=
  entries.flatMap fun e => [.value e.2, .key e.1]

theorem popEntries_entryItems (es popped : List (String × Value)) (stack : List Item) :
    popEntries es.length popped (entryItems es ++ stack) = some (es.reverse ++ popped, stack) := by
  induction es generalizing popped with
  | nil => rfl
  | cons e es ih =>
    rw [List.reverse_cons, List.append_assoc]
    exact ih (e :: popped)

theorem exists_unary {op : Operator} (h : op.operands = 1) {t : Tree} {v : Value}
    (ht : t.eval env = pure v) :
    ∃ w, op.combine? [v] = some w ∧ (Tree.unary op t).eval env = pure w := by
  obtain ⟨f, hf⟩ : ∃ f, op.unaryFunction? = some f := by
    cases op <;> first | exact ⟨_, rfl⟩ | exact absurd h (by decide)
  refine ⟨f v, by rw [Operator.combine?, hf]; rfl, ?_⟩
  rw [Tree.eval_unary, hf]
  simp only [ht, pure_bind]

theorem exists_binary {op : Operator} (h : op.operands = 2) {t u : Tree} {v w : Value}
    (ht : t.eval env = pure v) (hu : u.eval env = pure w) :
    ∃ x, op.combine? [v, w] = some x ∧ (Tree.binary op t u).eval env = pure x := by
  obtain ⟨f, hf⟩ | ⟨hf, decides, hd⟩ : (∃ f, op.binaryFunction? = some f) ∨
      op.binaryFunction? = none ∧ ∃ decides, op.decides? = some decides := by
    cases op <;>
      first | exact .inl ⟨_, rfl⟩ | exact .inr ⟨rfl, _, rfl⟩ | exact absurd h (by decide)
  · refine ⟨f v w, by rw [Operator.combine?, hf], ?_⟩
    rw [Tree.eval_binary, hf]
    simp only [ht, hu, pure_bind]
  · refine ⟨if decides v then v else w, by rw [Operator.combine?, hf, hd], ?_⟩
    rw [Tree.eval_binary, hf, hd]
    simp only [ht, hu, pure_bind]
    split <;> rfl

/-- The tokens of a construct put one value on the stack, and its plain tree yields that value,
without a fault and without host calls. -/
def Yields (env : Environment) (c : Construct) : Prop :=
  ∃ v, c.plain.eval env = pure v ∧
    ∀ stack, run env stack c.listing = some (.value v :: stack)

theorem exists_items {cs : List Construct} (h : ∀ c ∈ cs, Yields env c) :
    ∃ vs : List Value, vs.length = cs.length ∧
      Tree.evalItems env (Construct.itemPlains cs) = pure vs ∧
        ∀ stack, run env stack (Construct.itemListing cs) =
          some (vs.reverse.map .value ++ stack) := by
  induction cs with
  | nil => exact ⟨[], rfl, rfl, fun _ => rfl⟩
  | cons c cs ih =>
    obtain ⟨⟨v, hv, hc⟩, hcs⟩ := List.forall_mem_cons.1 h
    obtain ⟨vs, hl, hvs, hr⟩ := ih hcs
    refine ⟨v :: vs, congrArg (· + 1) hl, ?_, fun stack => ?_⟩
    · simp only [Construct.itemPlains, Tree.evalItems, hv, hvs, pure_bind]
    · rw [Construct.itemListing, run_append, hc, Option.bind_some, hr]
      simp

theorem exists_entries {entries : List (String × Construct)}
    (h : ∀ e ∈ entries, Yields env e.2) :
    ∃ es : List (String × Value), es.length = entries.length ∧
      (∀ before, Tree.evalEntries env before (Construct.entryPlains entries) =
        pure (es.foldl (fun map e => Entries.insert map e.1 e.2) before)) ∧
        ∀ stack, run env stack (Construct.entryListing entries) =
          some (entryItems es.reverse ++ stack) := by
  induction entries with
  | nil => exact ⟨[], rfl, fun _ => rfl, fun _ => rfl⟩
  | cons e entries ih =>
    obtain ⟨name, c⟩ := e
    obtain ⟨⟨v, hv, hc⟩, hes⟩ := List.forall_mem_cons.1 h
    obtain ⟨es, hl, hvs, hr⟩ := ih hes
    refine ⟨(name, v) :: es, congrArg (· + 1) hl, fun before => ?_, fun stack => ?_⟩
    · simp only [Construct.entryPlains, Tree.evalEntries, hv, hvs, pure_bind, List.foldl_cons]
    · have hk : step env stack ⟨.key name, 0⟩ = some (.key name :: stack) := rfl
      rw [Construct.entryListing, run_cons, hk, Option.bind_some, run_append, hc, Option.bind_some, hr]
      simp [entryItems]

theorem step_operator {op : Operator} {vs : List Value} {v : Value}
    (h : op.combine? vs = some v) (hl : op.operands = vs.length) (stack : List Item) :
    step env (vs.reverse.map .value ++ stack) (.operator op) = some (.value v :: stack) := by
  have hp := popValues_map vs.reverse [] stack
  rw [List.length_reverse, ← hl, List.reverse_reverse, List.append_nil] at hp
  have hs : step env (vs.reverse.map .value ++ stack) (.operator op) =
      (popValues op.operands [] (vs.reverse.map .value ++ stack)).bind fun r =>
        (op.combine? r.1).bind fun w => some (.value w :: r.2) := rfl
  rw [hs, hp, Option.bind_some, h, Option.bind_some]

theorem step_array (vs : List Value) (stack : List Item) :
    step env (vs.reverse.map .value ++ stack)
        ⟨.array, if vs.length = 0 then referenceArity else vs.length⟩ =
      some (.value (.array vs) :: stack) := by
  have hp := popValues_map vs.reverse [] stack
  rw [List.length_reverse, List.reverse_reverse, List.append_nil] at hp
  have hs (arity : Int) : step env (vs.reverse.map .value ++ stack) ⟨.array, arity⟩ =
      (popValues arity.toNat [] (vs.reverse.map .value ++ stack)).bind fun r =>
        some (.value (.array r.1) :: r.2) := rfl
  rw [hs, Construct.toNat_arrayArity, hp, Option.bind_some]

theorem step_object (es : List (String × Value)) (stack : List Item) :
    step env (entryItems es.reverse ++ stack) ⟨.object, es.length⟩ =
      some (.value (.object (Entries.ofList es)) :: stack) := by
  have hp := popEntries_entryItems es.reverse [] stack
  rw [List.length_reverse, List.reverse_reverse, List.append_nil] at hp
  have hs : step env (entryItems es.reverse ++ stack) ⟨.object, es.length⟩ =
      (popEntries es.length [] (entryItems es.reverse ++ stack)).bind fun r =>
        some (.value (.object (Entries.ofList r.1)) :: r.2) := rfl
  rw [hs, hp, Option.bind_some]

theorem yields_literal (l : Lexical) (v : Value) (h : l.value? = some v) :
    Yields env (.literal l v h) := by
  refine ⟨v, rfl, fun stack => ?_⟩
  rw [Construct.listing, run_singleton]
  cases l <;> cases h <;> rfl

theorem yields_identifier (text : String) (root : Root) (segments : List String)
    (h : splitIdentifier text = .ok (root, segments)) (called : Bool) :
    Yields env (.identifier text root segments h called) := by
  refine ⟨env.resolve root segments, rfl, fun stack => ?_⟩
  rw [Construct.listing, run_singleton]
  simp only [step, h, Environment.resolve, Value.walk_eq_foldl]
  rfl

theorem yields_property {holder : Construct} (h : Yields env holder) (name : String) :
    Yields env (.property holder name) := by
  obtain ⟨v, hv, hr⟩ := h
  refine ⟨v.member name, ?_, fun stack => ?_⟩
  · have hname : (Tree.literal (.string name)).eval env = pure (.string name) := rfl
    change (Tree.index holder.plain (.literal (.string name))).eval env = _
    simp only [Tree.eval_index, hv, hname, pure_bind]
    rfl
  · rw [Construct.listing, run_append, hr, Option.bind_some, run_singleton]
    rfl

theorem yields_index {holder key : Construct} (hh : Yields env holder) (hk : Yields env key) :
    Yields env (.index holder key) := by
  obtain ⟨v, hv, hr⟩ := hh
  obtain ⟨k, hkey, hrk⟩ := hk
  refine ⟨v.member k.propertyKey, ?_, fun stack => ?_⟩
  · change (Tree.index holder.plain key.plain).eval env = _
    simp only [Tree.eval_index, hv, hkey, pure_bind]
    rfl
  · rw [Construct.listing, run_append, run_append, hr, Option.bind_some, hrk, Option.bind_some,
      run_singleton]
    rfl

theorem yields_array {items : List Construct} (h : ∀ c ∈ items, Yields env c) :
    Yields env (.array items) := by
  obtain ⟨vs, hl, hvs, hr⟩ := exists_items h
  refine ⟨.array vs, ?_, fun stack => ?_⟩
  · change (Tree.array (Construct.itemPlains items)).eval env = _
    simp only [Tree.eval_array, hvs, pure_bind]
  · rw [Construct.listing, run_append, hr, Option.bind_some, run_singleton, ← hl, step_array]

theorem yields_object {entries : List (String × Construct)} (h : ∀ e ∈ entries, Yields env e.2) :
    Yields env (.object entries) := by
  obtain ⟨es, hl, hes, hr⟩ := exists_entries h
  refine ⟨.object (Entries.ofList es), ?_, fun stack => ?_⟩
  · change (Tree.object (Construct.entryPlains entries)).eval env = _
    simp only [Tree.eval_object, hes, pure_bind]
    rfl
  · rw [Construct.listing, run_append, hr, Option.bind_some, run_singleton, ← hl, step_object]

theorem yields_unary {op : Operator} (hop : op.operands = 1) {operand : Construct}
    (h : Yields env operand) : Yields env (.unary op hop operand) := by
  obtain ⟨v, hv, hr⟩ := h
  obtain ⟨w, hw, he⟩ := exists_unary hop hv
  refine ⟨w, he, fun stack => ?_⟩
  rw [Construct.listing, run_append, hr, Option.bind_some, run_singleton]
  exact step_operator hw hop stack

theorem yields_binary {op : Operator} (hop : op.operands = 2) {left right : Construct}
    (hl : Yields env left) (hr : Yields env right) : Yields env (.binary op hop left right) := by
  obtain ⟨v, hv, hrv⟩ := hl
  obtain ⟨w, hw, hrw⟩ := hr
  obtain ⟨x, hx, he⟩ := exists_binary hop hv hw
  refine ⟨x, he, fun stack => ?_⟩
  rw [Construct.listing, run_append, run_append, hrv, Option.bind_some, hrw, Option.bind_some,
    run_singleton]
  exact step_operator hx hop stack

theorem yields_conditional {condition yes no : Construct} (hc : Yields env condition)
    (hy : Yields env yes) (hn : Yields env no) : Yields env (.conditional condition yes no) := by
  obtain ⟨v, hv, hrv⟩ := hc
  obtain ⟨w, hw, hrw⟩ := hy
  obtain ⟨x, hx, hrx⟩ := hn
  refine ⟨if v.isTruthy then w else x, ?_, fun stack => ?_⟩
  · change (Tree.conditional condition.plain yes.plain no.plain).eval env = _
    simp only [Tree.eval_conditional, hv, pure_bind]
    split <;> assumption
  · rw [Construct.listing, run_append, run_append, run_append, hrv, Option.bind_some, hrw,
      Option.bind_some, hrx, Option.bind_some, run_singleton]
    exact step_operator (show Operator.combine? .conditional [v, w, x] = _ from rfl) rfl stack

def CallFree (tokens : List Token) : Prop := ∀ token ∈ tokens, token.lexical ≠ .call

theorem CallFree.mono {tokens part : List Token} (h : CallFree tokens) (hp : part <:+: tokens) :
    CallFree part := fun t ht => h t (hp.mem ht)

/-- A construct without calls yields what its tokens put on the stack. -/
theorem yields (c : Construct) (h : CallFree c.listing) : Yields env c := by
  induction c with
  | literal l v hl => exact yields_literal l v hl
  | identifier text root segments hp called => exact yields_identifier text root segments hp called
  | property holder name ih =>
    exact yields_property (ih (h.mono (List.prefix_append _ _).isInfix)) name
  | index holder key ihh ihk =>
    obtain ⟨hparts, -⟩ := List.forall_mem_append.1 h
    obtain ⟨hh, hk⟩ := List.forall_mem_append.1 hparts
    exact yields_index (ihh hh) (ihk hk)
  | call callee args => exact absurd rfl (h ⟨.call, args.length⟩ (by simp [Construct.listing]))
  | array items ih =>
    obtain ⟨hparts, -⟩ := List.forall_mem_append.1 h
    exact yields_array fun c hc => ih c hc (CallFree.mono hparts (Construct.infix_itemListing hc))
  | object entries ih =>
    obtain ⟨hparts, -⟩ := List.forall_mem_append.1 h
    exact yields_object fun e he => ih e he (CallFree.mono hparts (Construct.infix_entryListing he))
  | unary op hop operand ih =>
    exact yields_unary hop (ih (h.mono (List.prefix_append _ _).isInfix))
  | binary op hop left right ihl ihr =>
    obtain ⟨hparts, -⟩ := List.forall_mem_append.1 h
    obtain ⟨hleft, hright⟩ := List.forall_mem_append.1 hparts
    exact yields_binary hop (ihl hleft) (ihr hright)
  | conditional condition yes no ihc ihy ihn =>
    obtain ⟨hparts, -⟩ := List.forall_mem_append.1 h
    obtain ⟨hparts, hno⟩ := List.forall_mem_append.1 hparts
    obtain ⟨hcondition, hyes⟩ := List.forall_mem_append.1 hparts
    exact yields_conditional (ihc hcondition) (ihy hyes) (ihn hno)

end Eager

/-- Without calls, evaluation neither fails nor calls the host, and its value is what the tokens
leave on a stack of values when each is taken up in turn. Of entries with one key the last
counts. -/
theorem evaluate_eq_eager {limits : Limits} {source : String} {tokens : List Token}
    {e : Expression} (h : Expression.compile limits source tokens = .ok e)
    (hc : ∀ token ∈ tokens, token.lexical ≠ .call) (env : Environment) :
    (∃ v, Eager.value? env tokens = some v ∧ e.evaluate env = ⟨.ok v, []⟩) ∧
      ∀ (entries : List (String × Value)) (key : String), (Entries.ofList entries).get? key =
        (entries.reverse.find? (·.1 = key)).map (·.2) := by
  obtain ⟨c, rfl, -, hroot⟩ := Expression.exists_construct_of_compile h
  obtain ⟨v, hv, hr⟩ := Eager.yields c hc
  refine ⟨⟨v, by rw [Eager.value?, hr], ?_⟩, Entries.get?_ofList⟩
  rw [Expression.evaluate, hroot]
  exact (c.same_plain env).1.trans hv

theorem evaluate_eq_eager_object : ∃ e,
    Expression.compile {} "" [⟨.key "k", 0⟩, ⟨.identifier "a", -1⟩, ⟨.string "b", 0⟩, ⟨.index, 0⟩,
      ⟨.key "k", 0⟩, ⟨.boolean true, 0⟩, ⟨.identifier "@c.d", -1⟩, ⟨.operator .and, 2⟩,
      ⟨.object, 2⟩] = .ok e ∧
    ∀ env, ∃ v, Eager.value? env [⟨.key "k", 0⟩, ⟨.identifier "a", -1⟩, ⟨.string "b", 0⟩,
      ⟨.index, 0⟩, ⟨.key "k", 0⟩, ⟨.boolean true, 0⟩, ⟨.identifier "@c.d", -1⟩,
      ⟨.operator .and, 2⟩, ⟨.object, 2⟩] = some v ∧ e.evaluate env = ⟨.ok v, []⟩ := by
  obtain ⟨e, h⟩ := exists_eq_ok (x := Expression.compile {} "" [⟨.key "k", 0⟩,
    ⟨.identifier "a", -1⟩, ⟨.string "b", 0⟩, ⟨.index, 0⟩, ⟨.key "k", 0⟩, ⟨.boolean true, 0⟩,
    ⟨.identifier "@c.d", -1⟩, ⟨.operator .and, 2⟩, ⟨.object, 2⟩]) (by decide +kernel)
  exact ⟨e, h, fun env => (evaluate_eq_eager h (by simp) env).1⟩

end TemplateBinding
