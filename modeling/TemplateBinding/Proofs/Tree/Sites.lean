import TemplateBinding.Proofs.Tree.Calls

set_option autoImplicit false

namespace TemplateBinding

structure SitedCall where
  site : Nat
  call : HostCall

structure SitedRun (α : Type) where
  outcome : Except EvalFault α
  calls : List SitedCall

namespace SitedRun

variable {α : Type}

def sites (r : SitedRun α) : List Nat := r.calls.map SitedCall.site

def hostCalls (r : SitedRun α) : List HostCall := r.calls.map SitedCall.call

def run (r : SitedRun α) : Run α := ⟨r.outcome, r.hostCalls⟩

end SitedRun

/-- An evaluation that may depend on the host calls before it. -/
def Sited (α : Type) : Type := List HostCall → SitedRun α

namespace Sited

variable {α β : Type}

protected def pure (a : α) : Sited α := fun _ => ⟨.ok a, []⟩

protected def bind (m : Sited α) (f : α → Sited β) : Sited β := fun before =>
  match (m before).outcome with
  | .error fault => ⟨.error fault, (m before).calls⟩
  | .ok a =>
    let next := f a (before ++ (m before).hostCalls)
    ⟨next.outcome, (m before).calls ++ next.calls⟩

instance : Monad Sited where
  pure := Sited.pure
  bind := Sited.bind

def fail (fault : EvalFault) : Sited α := fun _ => ⟨.error fault, []⟩

def located (site : Nat) (r : List HostCall → Run α) : Sited α := fun before =>
  ⟨(r before).outcome, (r before).calls.map (SitedCall.mk site)⟩

/-- Without the sites, and whatever was called before, it is the run. -/
def Runs (m : Sited α) (r : Run α) : Prop := ∀ before, (m before).run = r

namespace Runs

variable {m : Sited α} {r : Run α}

theorem pure (a : α) : Runs (pure a : Sited α) (pure a) := fun _ => rfl

theorem fail (fault : EvalFault) : Runs (Sited.fail fault : Sited α) (.fail fault) := fun _ => rfl

theorem located (site : Nat) (r : Run α) : Runs (Sited.located site fun _ => r) r := by
  intro before
  simp [Sited.located, SitedRun.run, SitedRun.hostCalls, Function.comp_def]

theorem bind {f : α → Sited β} {g : α → Run β} (h : Runs m r) (hf : ∀ a, Runs (f a) (g a)) :
    Runs (m >>= f) (r >>= g) := by
  intro before
  have hm : (m before).run = r := h before
  subst hm
  show (Sited.bind m f before).run = Run.bind (m before).run g
  unfold Sited.bind Run.bind SitedRun.run
  dsimp only
  cases (m before).outcome with
  | error fault => rfl
  | ok a =>
    have hnext : (f a (before ++ (m before).hostCalls)).run = g a := hf a _
    simp [← hnext, SitedRun.run, SitedRun.hostCalls]

end Runs

/-- The calls are made at some of the sites, in their order. -/
def Follows (sites : List Nat) (m : Sited α) : Prop := ∀ before, (m before).sites.Sublist sites

namespace Follows

variable {sites sites' : List Nat} {m : Sited α}

theorem pure (a : α) : Follows [] (pure a : Sited α) := fun _ => .slnil

theorem fail (fault : EvalFault) : Follows [] (Sited.fail fault : Sited α) := fun _ => .slnil

theorem mono (h : Follows sites m) (hs : sites.Sublist sites') : Follows sites' m :=
  fun before => (h before).trans hs

theorem bind {f : α → Sited β} (h : Follows sites m) (hf : ∀ a, Follows sites' (f a)) :
    Follows (sites ++ sites') (m >>= f) := by
  intro before
  have hm := h before
  show (Sited.bind m f before).sites.Sublist (sites ++ sites')
  unfold Sited.bind
  split
  · exact hm.trans (List.sublist_append_left sites sites')
  · next a ha =>
    have hnext := hf a (before ++ (m before).hostCalls)
    simpa only [SitedRun.sites, List.map_append] using hm.append hnext

theorem map (h : Follows sites m) (f : α → β) : Follows sites (do return f (← m)) := by
  have hbind := h.bind fun a => Follows.pure (f a)
  rwa [List.append_nil] at hbind

theorem located {site : Nat} {r : List HostCall → Run α}
    (h : ∀ before, (r before).calls.length ≤ 1) : Follows [site] (Sited.located site r) := by
  intro before
  have hlength := h before
  unfold Sited.located SitedRun.sites
  generalize (r before).calls = calls at hlength
  match calls with
  | [] => exact List.nil_sublist _
  | [call] => exact List.Sublist.refl _
  | _ :: _ :: _ => simp at hlength

end Follows

end Sited

namespace Environment

theorem length_calls_call (env : Environment) (f : HostFunction) (args : List Value) :
    (env.call f args).calls.length ≤ 1 := by
  unfold call
  split
  · split
    · exact Nat.le_refl 1
    · exact Nat.zero_le 1
  · exact Nat.le_refl 1

theorem length_calls_callMember (env : Environment) (receiver : Value) (name : String)
    (args : List Value) : (env.callMember receiver name args).calls.length ≤ 1 := by
  unfold callMember
  split
  · exact env.length_calls_call _ _
  · exact Nat.zero_le 1
  · exact Nat.zero_le 1

end Environment

/-- What an evaluation can see, where the answers of the host may depend on the calls before. -/
structure Setting where
  host : List HostCall → Host
  context : Value
  aliases : Entries Value

namespace Setting

def after (s : Setting) (before : List HostCall) : Environment :=
  ⟨s.host before, s.context, s.aliases⟩

def resolve (s : Setting) (root : Root) (segments : List String) : Value :=
  (s.after []).resolve root segments

end Setting

def Environment.setting (env : Environment) : Setting :=
  ⟨fun _ => env.host, env.context, env.aliases⟩

inductive SitedTree where
  | literal (v : Value)
  | path (root : Root) (segments : List String)
  | index (object key : SitedTree)
  | unary (op : Operator) (operand : SitedTree)
  | binary (op : Operator) (left right : SitedTree)
  | conditional (condition yes no : SitedTree)
  | call (site : Nat) (callee : SitedTree) (args : List SitedTree)
  | array (items : List SitedTree)
  | object (entries : List (String × SitedTree))

namespace SitedTree

@[induction_eliminator]
theorem ind {motive : SitedTree → Prop}
    (literal : ∀ v, motive (.literal v))
    (path : ∀ root segments, motive (.path root segments))
    (index : ∀ holder key, motive holder → motive key → motive (.index holder key))
    (unary : ∀ op operand, motive operand → motive (.unary op operand))
    (binary : ∀ op left right, motive left → motive right → motive (.binary op left right))
    (conditional : ∀ condition yes no, motive condition → motive yes → motive no →
      motive (.conditional condition yes no))
    (call : ∀ site callee args, motive callee → (∀ arg ∈ args, motive arg) →
      motive (.call site callee args))
    (array : ∀ items, (∀ item ∈ items, motive item) → motive (.array items))
    (object : ∀ entries, (∀ e ∈ entries, motive e.2) → motive (.object entries))
    (t : SitedTree) : motive t :=
  SitedTree.rec (motive_1 := motive) (motive_2 := fun ts => ∀ t ∈ ts, motive t)
    (motive_3 := fun es => ∀ e ∈ es, motive e.2) (motive_4 := fun e => motive e.2)
    literal path index unary binary conditional call array object
    (fun _ h => nomatch h)
    (fun _ _ head tail => List.forall_mem_cons.2 ⟨head, tail⟩)
    (fun _ h => nomatch h)
    (fun _ _ head tail => List.forall_mem_cons.2 ⟨head, tail⟩)
    (fun _ _ h => h) t

mutual

def tree : SitedTree → Tree
  | .literal v => .literal v
  | .path root segments => .path root segments
  | .index holder key => .index (tree holder) (tree key)
  | .unary op operand => .unary op (tree operand)
  | .binary op left right => .binary op (tree left) (tree right)
  | .conditional condition yes no => .conditional (tree condition) (tree yes) (tree no)
  | .call _ callee args => .call (tree callee) (itemTrees args)
  | .array items => .array (itemTrees items)
  | .object entries => .object (entryTrees entries)

def itemTrees : List SitedTree → List Tree
  | [] => []
  | t :: ts => tree t :: itemTrees ts

def entryTrees : List (String × SitedTree) → List (String × Tree)
  | [] => []
  | (key, t) :: entries => (key, tree t) :: entryTrees entries

end

mutual

def sites : SitedTree → List Nat
  | .literal _ | .path _ _ => []
  | .index holder key => sites holder ++ sites key
  | .unary _ operand => sites operand
  | .binary _ left right => sites left ++ sites right
  | .conditional condition yes no => sites condition ++ sites yes ++ sites no
  | .call site callee args => sites callee ++ itemSites args ++ [site]
  | .array items => itemSites items
  | .object entries => entrySites entries

def itemSites : List SitedTree → List Nat
  | [] => []
  | t :: ts => sites t ++ itemSites ts

def entrySites : List (String × SitedTree) → List Nat
  | [] => []
  | (_, t) :: entries => sites t ++ entrySites entries

end

mutual

def eval (s : Setting) : SitedTree → Sited Value
  | .literal v => pure v
  | .path root segments => pure (s.resolve root segments)
  | .index holder key => do
    let v ← eval s holder
    let k ← eval s key
    return (v.get? k.propertyKey).getD .undefined
  | .unary op operand =>
    match op.unaryFunction? with
    | some f => do return f (← eval s operand)
    | none => .fail (Tree.misplaced op "prefix")
  | .binary op left right =>
    match op.binaryFunction?, op.decides? with
    | some f, _ => do
      let v ← eval s left
      let w ← eval s right
      return f v w
    | none, some decides => do
      let v ← eval s left
      if decides v then return v else eval s right
    | none, none => .fail (Tree.misplaced op "binary")
  | .conditional condition yes no => do
    if (← eval s condition).isTruthy then eval s yes else eval s no
  | .call site callee args =>
    match callee with
    | .path root (name :: names) =>
      if (s.resolve root (name :: names).dropLast).isNullish then return .undefined
      else do
        let vs ← evalItems s args
        .located site fun before => (s.after before).callMember
          (s.resolve root (name :: names).dropLast) ((name :: names).getLastD name) vs
    | .index holder key => do
      let receiver ← eval s holder
      let k ← eval s key
      if receiver.isNullish then return .undefined
      else do
        let vs ← evalItems s args
        .located site fun before => (s.after before).callMember receiver k.propertyKey vs
    | callee => do
      let target ← eval s callee
      let vs ← evalItems s args
      match target with
      | .function f => .located site fun before => (s.after before).call f vs
      | found => .fail (.notCallable callee.tree.describe found.typeName)
  | .array items => do return .array (← evalItems s items)
  | .object entries => do return .object (← evalEntries s [] entries)

def evalItems (s : Setting) : List SitedTree → Sited (List Value)
  | [] => pure []
  | t :: ts => do
    let v ← eval s t
    let vs ← evalItems s ts
    return v :: vs

def evalEntries (s : Setting) (before : Entries Value) :
    List (String × SitedTree) → Sited (List (String × Value))
  | [] => pure before
  | (key, t) :: entries => do
    let v ← eval s t
    evalEntries s (Entries.insert before key v) entries

end

variable {s : Setting}

def callWith (s : Setting) (site : Nat) (args : Sited (List Value)) :
    SitedTree → Sited Value
  | .path root (name :: names) =>
    if (s.resolve root (name :: names).dropLast).isNullish then pure .undefined
    else do
      let vs ← args
      .located site fun before => (s.after before).callMember
        (s.resolve root (name :: names).dropLast) ((name :: names).getLastD name) vs
  | .index holder key => do
    let receiver ← eval s holder
    let k ← eval s key
    if receiver.isNullish then return .undefined
    else do
      let vs ← args
      .located site fun before => (s.after before).callMember receiver k.propertyKey vs
  | callee => do
    let target ← eval s callee
    let vs ← args
    match target with
    | .function f => .located site fun before => (s.after before).call f vs
    | found => .fail (.notCallable callee.tree.describe found.typeName)

theorem callWith_of_isMember {callee : SitedTree} (h : callee.tree.isMember = false) (site : Nat)
    (args : Sited (List Value)) :
    callWith s site args callee = (do
      let target ← eval s callee
      let vs ← args
      match target with
      | .function f => .located site fun before => (s.after before).call f vs
      | found => .fail (.notCallable callee.tree.describe found.typeName)) := by
  cases callee with
  | path root segments =>
    cases segments with
    | nil => rfl
    | cons name names => cases h
  | index holder key => cases h
  | _ => rfl

theorem eval_call (s : Setting) (site : Nat) (callee : SitedTree) (args : List SitedTree) :
    eval s (.call site callee args) = callWith s site (evalItems s args) callee := by
  cases callee with
  | path root segments => cases segments <;> rfl
  | _ => rfl

section runs

variable {env : Environment}

def Evaluates (env : Environment) (t : SitedTree) : Prop :=
  (t.eval env.setting).Runs (t.tree.eval env) ∧
    ∀ {site args r}, args.Runs r →
      (callWith env.setting site args t).Runs (Tree.callWith env r t.tree)

theorem Evaluates.of_eval {t : SitedTree} (ht : t.tree.isMember = false)
    (h : (t.eval env.setting).Runs (t.tree.eval env)) : Evaluates env t := by
  refine ⟨h, fun {site args r} ha => ?_⟩
  rw [callWith_of_isMember ht, Tree.callWith_of_isMember ht]
  refine h.bind fun target => ha.bind fun vs => ?_
  cases target with
  | function f => exact .located site (env.call f vs)
  | _ => exact .fail _

theorem runs_evalItems {ts : List SitedTree} (h : ∀ t ∈ ts, Evaluates env t) :
    (evalItems env.setting ts).Runs (Tree.evalItems env (itemTrees ts)) := by
  induction ts with
  | nil => exact .pure []
  | cons t ts ih =>
    obtain ⟨⟨ht, -⟩, hts⟩ := List.forall_mem_cons.1 h
    exact ht.bind fun v => (ih hts).bind fun vs => .pure (v :: vs)

theorem runs_evalEntries {entries : List (String × SitedTree)}
    (h : ∀ e ∈ entries, Evaluates env e.2) (before : Entries Value) :
    (evalEntries env.setting before entries).Runs
      (Tree.evalEntries env before (entryTrees entries)) := by
  induction entries generalizing before with
  | nil => exact .pure before
  | cons e entries ih =>
    obtain ⟨⟨he, -⟩, hes⟩ := List.forall_mem_cons.1 h
    exact he.bind fun v => ih hes (Entries.insert before e.1 v)

theorem evaluates (env : Environment) (t : SitedTree) : Evaluates env t := by
  induction t with
  | literal v => exact .of_eval rfl (.pure v)
  | path root segments =>
    cases segments with
    | nil => exact .of_eval rfl (.pure _)
    | cons name names =>
      refine ⟨.pure _, fun {site args r} ha => ?_⟩
      have hresolve (segments : List String) :
          env.setting.resolve root segments = env.resolve root segments := rfl
      simp only [callWith, tree, Tree.callWith]
      by_cases hn : (env.resolve root (name :: names).dropLast).isNullish = true
      · rw [if_pos (by rwa [hresolve]), if_pos hn]
        exact .pure Value.undefined
      · rw [if_neg (by rwa [hresolve]), if_neg hn]
        exact ha.bind fun vs => .located site (env.callMember _ _ vs)
  | index holder key ihh ihk =>
    refine ⟨ihh.1.bind fun v => ihk.1.bind fun k => .pure _, fun {site args r} ha => ?_⟩
    refine ihh.1.bind fun receiver => ihk.1.bind fun k => ?_
    split
    · exact .pure Value.undefined
    · exact ha.bind fun vs => .located site (env.callMember receiver _ vs)
  | unary op operand ih =>
    refine .of_eval rfl ?_
    simp only [eval, tree, Tree.eval_unary]
    cases op.unaryFunction? with
    | none => exact .fail _
    | some f => exact ih.1.bind fun v => .pure (f v)
  | binary op left right ihl ihr =>
    refine .of_eval rfl ?_
    simp only [eval, tree, Tree.eval_binary]
    cases op.binaryFunction? with
    | some f => exact ihl.1.bind fun v => ihr.1.bind fun w => .pure (f v w)
    | none =>
      cases op.decides? with
      | none => exact .fail _
      | some decides =>
        refine ihl.1.bind fun v => ?_
        split
        · exact .pure v
        · exact ihr.1
  | conditional condition yes no ihc ihy ihn =>
    refine .of_eval rfl (ihc.1.bind fun v => ?_)
    split
    · exact ihy.1
    · exact ihn.1
  | call site callee args ihc iha =>
    refine .of_eval rfl ?_
    rw [eval_call, tree, Tree.eval_call]
    exact ihc.2 (runs_evalItems iha)
  | array items ih => exact .of_eval rfl ((runs_evalItems ih).bind fun vs => .pure (Value.array vs))
  | object entries ih =>
    exact .of_eval rfl ((runs_evalEntries ih []).bind fun entries => .pure (Value.object entries))

theorem run_eval (env : Environment) (t : SitedTree) :
    (t.eval env.setting []).run = t.tree.eval env :=
  (evaluates env t).1 []

end runs

def Ordered (s : Setting) (t : SitedTree) : Prop :=
  (t.eval s).Follows t.sites ∧
    ∀ {site args argSites}, args.Follows argSites →
      (callWith s site args t).Follows (t.sites ++ argSites ++ [site])

theorem Ordered.of_eval {t : SitedTree} (ht : t.tree.isMember = false)
    (h : (t.eval s).Follows t.sites) : Ordered s t := by
  refine ⟨h, fun {site args argSites} ha => ?_⟩
  rw [callWith_of_isMember ht, List.append_assoc]
  refine h.bind fun target => ha.bind fun vs => ?_
  cases target with
  | function f => exact .located fun before => (s.after before).length_calls_call f vs
  | _ => exact (Sited.Follows.fail _).mono (List.nil_sublist _)

theorem follows_evalItems {ts : List SitedTree} (h : ∀ t ∈ ts, Ordered s t) :
    (evalItems s ts).Follows (itemSites ts) := by
  induction ts with
  | nil => exact .pure []
  | cons t ts ih =>
    obtain ⟨⟨ht, -⟩, hts⟩ := List.forall_mem_cons.1 h
    exact ht.bind fun v => (ih hts).map (v :: ·)

theorem follows_evalEntries {entries : List (String × SitedTree)}
    (h : ∀ e ∈ entries, Ordered s e.2) (before : Entries Value) :
    (evalEntries s before entries).Follows (entrySites entries) := by
  induction entries generalizing before with
  | nil => exact .pure before
  | cons e entries ih =>
    obtain ⟨⟨he, -⟩, hes⟩ := List.forall_mem_cons.1 h
    exact he.bind fun v => ih hes (Entries.insert before e.1 v)

theorem ordered (s : Setting) (t : SitedTree) : Ordered s t := by
  induction t with
  | literal v => exact .of_eval rfl (.pure v)
  | path root segments =>
    cases segments with
    | nil => exact .of_eval rfl (.pure _)
    | cons name names =>
      refine ⟨.pure _, fun {site args argSites} ha => ?_⟩
      simp only [callWith]
      split
      · exact (Sited.Follows.pure _).mono (List.nil_sublist _)
      · exact ha.bind fun vs => .located fun before =>
          (s.after before).length_calls_callMember _ _ vs
  | index holder key ihh ihk =>
    refine ⟨ihh.1.bind fun v => ihk.1.map _, fun {site args argSites} ha => ?_⟩
    simp only [callWith, sites, List.append_assoc]
    refine ihh.1.bind fun receiver => ihk.1.bind fun k => ?_
    split
    · exact (Sited.Follows.pure _).mono (List.nil_sublist _)
    · exact ha.bind fun vs => .located fun before =>
        (s.after before).length_calls_callMember _ _ vs
  | unary op operand ih =>
    refine .of_eval rfl ?_
    simp only [eval, sites]
    cases op.unaryFunction? with
    | none => exact (Sited.Follows.fail _).mono (List.nil_sublist _)
    | some f => exact ih.1.map f
  | binary op left right ihl ihr =>
    refine .of_eval rfl ?_
    simp only [eval, sites]
    cases op.binaryFunction? with
    | some f => exact ihl.1.bind fun v => ihr.1.map (f v)
    | none =>
      cases op.decides? with
      | none => exact (Sited.Follows.fail _).mono (List.nil_sublist _)
      | some decides =>
        refine ihl.1.bind fun v => ?_
        split
        · exact (Sited.Follows.pure v).mono (List.nil_sublist _)
        · exact ihr.1
  | conditional condition yes no ihc ihy ihn =>
    refine .of_eval rfl ?_
    simp only [eval, sites, List.append_assoc]
    refine ihc.1.bind fun v => ?_
    split
    · exact ihy.1.mono (List.sublist_append_left _ _)
    · exact ihn.1.mono (List.sublist_append_right _ _)
  | call site callee args ihc iha =>
    refine .of_eval rfl ?_
    rw [eval_call, sites]
    exact ihc.2 (follows_evalItems iha)
  | array items ih => exact .of_eval rfl ((follows_evalItems ih).map _)
  | object entries ih => exact .of_eval rfl ((follows_evalEntries ih []).map _)

/-- The calls that an evaluation makes are some of those of the tree, in their order. -/
theorem sublist_sites (s : Setting) (t : SitedTree) : (t.eval s []).sites.Sublist t.sites :=
  (ordered s t).1 []

end SitedTree

end TemplateBinding
