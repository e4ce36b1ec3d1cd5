import TemplateBinding.Proofs.Postfix.Acceptance
import TemplateBinding.Proofs.Postfix.Arity
import TemplateBinding.Proofs.Tree.Calls

set_option autoImplicit false

namespace TemplateBinding

namespace Plain

inductive Part where
  | key (name : String)
  | tree (t : Tree)

def treesOf : List Part → Except StreamFault (List Tree)
  | [] => .ok []
  | .key name :: _ => .error (.misplacedKey name)
  | .tree t :: parts => do return t :: (← treesOf parts)

def entriesOf (entry : Nat) : List Part → Except StreamFault (List (String × Tree))
  | [] => .ok []
  | .key name :: .tree t :: parts => do return (name, t) :: (← entriesOf (entry + 1) parts)
  | .key _ :: .key name :: _ => .error (.misplacedKey name)
  | _ :: _ => .error (.missingKey entry)

def pop (stack : List Part) (token : Token) (n : Nat) :
    Except ParseFault (List Part × List Part) :=
  if stack.length < n then
    .error (.stream (.missingOperands token.lexical.text n stack.length))
  else .ok ((stack.take n).reverse, stack.drop n)

def popTrees (stack : List Part) (token : Token) (n : Nat) :
    Except ParseFault (List Tree × List Part) := do
  let (parts, stack) ← pop stack token n
  return (← (treesOf parts).mapError .stream, stack)

def step (stack : List Part) (token : Token) : Except ParseFault (List Part) :=
  match token.lexical with
  | .identifier text => do
    if token.arity ≠ referenceArity ∧ token.arity ≠ calleeArity then
      throw (Builder.invalidArity token)
    let (root, segments) ← (splitIdentifier text).mapError .stream
    return .tree (.path root segments) :: stack
  | .key name => do
    Builder.expectArity token 0
    return .key name :: stack
  | .property name => do
    Builder.expectArity token 0
    match ← popTrees stack token 1 with
    | ([holder], stack) => return .tree (.index holder (.literal (.string name))) :: stack
    | _ => throw (Builder.invalidArity token)
  | .index => do
    Builder.expectArity token 0
    match ← popTrees stack token 2 with
    | ([holder, key], stack) => return .tree (.index holder key) :: stack
    | _ => throw (Builder.invalidArity token)
  | .call => do
    let n ← Builder.count token
    match ← popTrees stack token (n + 1) with
    | (callee :: args, stack) => return .tree (.call callee args) :: stack
    | _ => throw (Builder.invalidArity token)
  | .array => do
    let n ← if token.arity = referenceArity then .ok 0
      else if 0 < token.arity then .ok token.arity.toNat
      else .error (Builder.invalidArity token)
    let (items, stack) ← popTrees stack token n
    return .tree (.array items) :: stack
  | .object => do
    let n ← Builder.count token
    let (parts, stack) ← pop stack token (2 * n)
    let entries ← (entriesOf 0 parts).mapError .stream
    return .tree (.object entries) :: stack
  | .operator op => do
    Builder.expectArity token op.operands
    match ← popTrees stack token op.operands with
    | ([t], stack) => return .tree (.unary op t) :: stack
    | ([t, u], stack) => return .tree (.binary op t u) :: stack
    | ([t, u, v], stack) => return .tree (.conditional t u v) :: stack
    | _ => throw (Builder.invalidArity token)
  | l => do
    Builder.expectArity token 0
    match l.value? with
    | some v => return .tree (.literal v) :: stack
    | none => throw (Builder.invalidArity token)

def run (stack : List Part) : List Token → Except ParseFault (List Part)
  | [] => .ok stack
  | token :: tokens => do
    let stack ← step stack token
    run stack tokens

def build (tokens : List Token) : Except ParseFault Tree := do
  match ← run [] tokens with
  | [] => throw (.stream .emptyStream)
  | [.tree t] => return t
  | [.key name] => throw (.stream (.misplacedKey name))
  | _ :: parts => throw (.stream (.leftoverOperands parts.length))

end Plain

namespace Construct

mutual

/-- The tree of a construct in which each member is indexed. -/
def plain : Construct → Tree
  | .literal _ value _ => .literal value
  | .identifier _ root segments _ _ => .path root segments
  | .property holder name => .index (plain holder) (.literal (.string name))
  | .index holder key => .index (plain holder) (plain key)
  | .call callee args => .call (plain callee) (itemPlains args)
  | .array items => .array (itemPlains items)
  | .object entries => .object (entryPlains entries)
  | .unary op _ operand => .unary op (plain operand)
  | .binary op _ left right => .binary op (plain left) (plain right)
  | .conditional condition yes no => .conditional (plain condition) (plain yes) (plain no)

def itemPlains : List Construct → List Tree
  | [] => []
  | c :: cs => plain c :: itemPlains cs

def entryPlains : List (String × Construct) → List (String × Tree)
  | [] => []
  | (name, c) :: entries => (name, plain c) :: entryPlains entries

end

end Construct

namespace Plain

variable {stack : List Part} {rest : List Token}

theorem treesOf_map (ts : List Tree) : treesOf (ts.map .tree) = .ok ts := by
  induction ts with
  | nil => rfl
  | cons t ts ih => simp only [List.map_cons, treesOf, ih, bind, Except.bind, pure, Except.pure]

theorem popTrees_append (ts : List Tree) (stack : List Part) (token : Token) :
    popTrees ((ts.map .tree).reverse ++ stack) token ts.length = .ok (ts, stack) := by
  have hp : pop ((ts.map .tree).reverse ++ stack) token ts.length = .ok (ts.map .tree, stack) := by
    simp [pop]
  simp only [popTrees, hp, bind, Except.bind, treesOf_map, mapError_ok]
  rfl

def Leaves (c : Construct) : Prop :=
  ∀ (stack : List Part) (rest : List Token),
    run stack (c.listing ++ rest) = run (.tree c.plain :: stack) rest

theorem run_itemListing {cs : List Construct} (h : ∀ c ∈ cs, Leaves c) (stack : List Part)
    (rest : List Token) :
    run stack (Construct.itemListing cs ++ rest) =
      run (((Construct.itemPlains cs).map .tree).reverse ++ stack) rest := by
  induction cs generalizing stack with
  | nil => rfl
  | cons c cs ih =>
    obtain ⟨hc, hcs⟩ := List.forall_mem_cons.1 h
    rw [Construct.itemListing, List.append_assoc, hc, ih hcs, Construct.itemPlains,
      List.map_cons, List.reverse_cons, List.append_assoc]
    rfl

def partsOf (entries : List (String × Tree)) : List Part :=
  entries.flatMap fun e => [.key e.1, .tree e.2]

theorem entriesOf_partsOf (n : Nat) (entries : List (String × Tree)) :
    entriesOf n (partsOf entries) = .ok entries := by
  induction entries generalizing n with
  | nil => rfl
  | cons e entries ih =>
    have h := ih (n + 1)
    simp only [partsOf] at h
    simp only [partsOf, List.flatMap_cons, List.cons_append, List.nil_append, entriesOf, h, bind,
      Except.bind, pure, Except.pure]

theorem run_entryListing {entries : List (String × Construct)} (h : ∀ e ∈ entries, Leaves e.2)
    (stack : List Part) (rest : List Token) :
    run stack (Construct.entryListing entries ++ rest) =
      run ((partsOf (Construct.entryPlains entries)).reverse ++ stack) rest := by
  induction entries generalizing stack with
  | nil => rfl
  | cons e entries ih =>
    obtain ⟨name, c⟩ := e
    obtain ⟨hc, hes⟩ := List.forall_mem_cons.1 h
    have hkey : step stack ⟨.key name, 0⟩ = .ok (.key name :: stack) := rfl
    rw [Construct.entryListing, List.cons_append, List.append_assoc, run]
    simp only [hkey, bind, Except.bind]
    rw [hc, ih hes, Construct.entryPlains]
    simp [partsOf]

theorem run_cons {token : Token} {stack stack' : List Part} (h : step stack token = .ok stack')
    (rest : List Token) : run stack (token :: rest) = run stack' rest := by
  simp only [run, h, bind, Except.bind]

theorem length_itemPlains (cs : List Construct) : (Construct.itemPlains cs).length = cs.length := by
  induction cs with
  | nil => rfl
  | cons c cs ih => simp [Construct.itemPlains, ih]

theorem length_partsOf_entryPlains (entries : List (String × Construct)) :
    (partsOf (Construct.entryPlains entries)).length = 2 * entries.length := by
  induction entries with
  | nil => rfl
  | cons e entries ih =>
    simp [partsOf, Construct.entryPlains] at ih ⊢
    omega

theorem leaves_literal (l : Lexical) (v : Value) (h : l.value? = some v) :
    Leaves (.literal l v h) := by
  intro stack rest
  refine run_cons ?_ rest
  cases l <;> cases h <;> rfl

theorem leaves_identifier (text : String) (root : Root) (segments : List String)
    (h : splitIdentifier text = .ok (root, segments)) (called : Bool) :
    Leaves (.identifier text root segments h called) := by
  intro stack rest
  refine run_cons ?_ rest
  cases called <;>
    simp [step, h, Construct.identifierArity, referenceArity, calleeArity, bind, Except.bind,
      mapError_ok] <;> rfl

theorem leaves_property {holder : Construct} (name : String) (h : Leaves holder) :
    Leaves (.property holder name) := by
  intro stack rest
  have hp := popTrees_append [holder.plain] stack ⟨.property name, 0⟩
  have hs : step (.tree holder.plain :: stack) ⟨.property name, 0⟩ =
      .ok (.tree (.index holder.plain (.literal (.string name))) :: stack) := by
    simp only [List.map_cons, List.map_nil, List.reverse_singleton, List.singleton_append,
      List.length_singleton] at hp
    simp only [step, Builder.expectArity, if_true, bind, Except.bind, hp]
    rfl
  rw [Construct.listing, List.append_assoc, h]
  exact run_cons hs rest

theorem leaves_index {holder key : Construct} (hh : Leaves holder) (hk : Leaves key) :
    Leaves (.index holder key) := by
  intro stack rest
  have hp := popTrees_append [holder.plain, key.plain] stack ⟨.index, 0⟩
  have hs : step (.tree key.plain :: .tree holder.plain :: stack) ⟨.index, 0⟩ =
      .ok (.tree (.index holder.plain key.plain) :: stack) := by
    simp only [List.map_cons, List.map_nil, List.reverse_cons, List.reverse_nil, List.nil_append,
      List.cons_append, List.length_cons, List.length_nil] at hp
    simp only [step, Builder.expectArity, if_true, bind, Except.bind, hp]
    rfl
  rw [Construct.listing, List.append_assoc, List.append_assoc, hh, hk]
  exact run_cons hs rest

theorem leaves_call {callee : Construct} {args : List Construct} (hc : Leaves callee)
    (ha : ∀ arg ∈ args, Leaves arg) : Leaves (.call callee args) := by
  intro stack rest
  have hp := popTrees_append (callee.plain :: Construct.itemPlains args) stack
    ⟨.call, args.length⟩
  rw [List.length_cons, length_itemPlains] at hp
  have hn : Builder.count ⟨.call, args.length⟩ = .ok args.length := by simp [Builder.count]
  have hs : step (((Construct.itemPlains (callee :: args)).map .tree).reverse ++ stack)
      ⟨.call, args.length⟩ =
        .ok (.tree (.call callee.plain (Construct.itemPlains args)) :: stack) := by
    simp only [step, hn, bind, Except.bind, Construct.itemPlains, hp]
    rfl
  have hl := run_itemListing (List.forall_mem_cons.2 ⟨hc, ha⟩) stack
    ([⟨.call, args.length⟩] ++ rest)
  have he : (Construct.call callee args).listing =
      Construct.itemListing (callee :: args) ++ [⟨.call, args.length⟩] := rfl
  rw [he, List.append_assoc, hl]
  exact run_cons hs rest

theorem leaves_array {items : List Construct} (h : ∀ item ∈ items, Leaves item) :
    Leaves (.array items) := by
  intro stack rest
  have hp := popTrees_append (Construct.itemPlains items) stack
    ⟨.array, if items.length = 0 then referenceArity else items.length⟩
  rw [length_itemPlains] at hp
  have hs : step (((Construct.itemPlains items).map .tree).reverse ++ stack)
      ⟨.array, if items.length = 0 then referenceArity else items.length⟩ =
        .ok (.tree (.array (Construct.itemPlains items)) :: stack) := by
    by_cases hz : items.length = 0
    · simp only [hz, if_true] at hp ⊢
      simp only [step, if_true, bind, Except.bind, hp]
      rfl
    · have hr : (items.length : Int) ≠ referenceArity := by simp [referenceArity]
      simp only [hz, if_false] at hp ⊢
      simp only [step, hr, if_false, Int.natCast_pos, Nat.pos_of_ne_zero hz, if_true, bind,
        Except.bind, Int.toNat_natCast, hp]
      rfl
  rw [Construct.listing, List.append_assoc, run_itemListing h]
  exact run_cons hs rest

theorem leaves_object {entries : List (String × Construct)} (h : ∀ e ∈ entries, Leaves e.2) :
    Leaves (.object entries) := by
  intro stack rest
  have hn : Builder.count ⟨.object, entries.length⟩ = .ok entries.length := by
    simp [Builder.count]
  have hp : pop ((partsOf (Construct.entryPlains entries)).reverse ++ stack)
      ⟨.object, entries.length⟩ (2 * entries.length) =
        .ok (partsOf (Construct.entryPlains entries), stack) := by
    rw [← length_partsOf_entryPlains]
    simp [pop]
  have hs : step ((partsOf (Construct.entryPlains entries)).reverse ++ stack)
      ⟨.object, entries.length⟩ = .ok (.tree (.object (Construct.entryPlains entries)) :: stack) := by
    simp only [step, hn, bind, Except.bind, hp, entriesOf_partsOf, mapError_ok]
    rfl
  rw [Construct.listing, List.append_assoc, run_entryListing h]
  exact run_cons hs rest

theorem step_operator {op : Operator} (ts : List Tree) (stack : List Part) :
    op.operands = ts.length → step ((ts.map .tree).reverse ++ stack) (.operator op) =
      match ts with
      | [t] => .ok (.tree (.unary op t) :: stack)
      | [t, u] => .ok (.tree (.binary op t u) :: stack)
      | [t, u, v] => .ok (.tree (.conditional t u v) :: stack)
      | _ => .error (Builder.invalidArity (.operator op)) := by
  intro h
  have hp := popTrees_append ts stack (.operator op)
  have he : Builder.expectArity (.operator op) op.operands = .ok () := by
    simp [Builder.expectArity, Token.operator, Token.of, Lexical.defaultArity]
  rw [← h] at hp
  simp only [Token.operator, Token.of] at hp he ⊢
  simp only [step, he, bind, Except.bind, hp]
  rcases ts with _ | ⟨t, _ | ⟨u, _ | ⟨v, _ | ⟨w, ts⟩⟩⟩⟩ <;> rfl

theorem leaves (c : Construct) : Leaves c := by
  induction c with
  | literal l v h => exact leaves_literal l v h
  | identifier text root segments h called => exact leaves_identifier text root segments h called
  | property holder name ih => exact leaves_property name ih
  | index holder key ihh ihk => exact leaves_index ihh ihk
  | call callee args ihc iha => exact leaves_call ihc iha
  | array items ih => exact leaves_array ih
  | object entries ih => exact leaves_object ih
  | unary op h operand ih =>
    intro stack rest
    rw [Construct.listing, List.append_assoc, ih]
    exact run_cons (step_operator [operand.plain] stack h) rest
  | binary op h left right ihl ihr =>
    intro stack rest
    rw [Construct.listing, List.append_assoc, List.append_assoc, ihl, ihr]
    exact run_cons (step_operator [left.plain, right.plain] stack h) rest
  | conditional condition yes no ihc ihy ihn =>
    intro stack rest
    simp only [Construct.listing, List.append_assoc]
    rw [ihc, ihy, ihn]
    exact run_cons (step_operator [condition.plain, yes.plain, no.plain] stack rfl) rest

theorem build_listing (c : Construct) : build c.listing = .ok c.plain := by
  have h := leaves c [] []
  rw [List.append_nil] at h
  rw [build, h]
  rfl

end Plain

namespace Tree

variable {env : Environment}

theorem resolve_snoc (env : Environment) (root : Root) (segments : List String) (name : String) :
    env.resolve root (segments ++ [name]) =
      ((env.resolve root segments).get? name).getD .undefined := by
  simp only [Environment.resolve, Value.walk_append, Value.walk]
  cases ((env.start root).walk segments).get? name <;> rfl

theorem callWith_snoc (env : Environment) (args : Run (List Value)) (root : Root)
    (segments : List String) (name : String) :
    callWith env args (.path root (segments ++ [name])) =
      if (env.resolve root segments).isNullish then pure .undefined
      else args >>= fun vs => env.callMember (env.resolve root segments) name vs := by
  cases segments with
  | nil => rfl
  | cons first segments =>
    have hd : (first :: (segments ++ [name])).dropLast = first :: segments := by
      rw [← List.cons_append, List.dropLast_concat]
    have hl : (first :: (segments ++ [name])).getLastD first = name := by
      rw [← List.cons_append, List.getLastD_concat]
    simp only [List.cons_append, callWith, hd, hl]

theorem propertyKey_of_literalName? {v : Value} {name : String}
    (h : (Tree.literal v).literalName? = some name) : v.propertyKey = name := by
  cases v with
  | string s => exact Option.some.inj h
  | integer n =>
    simp only [literalName?] at h
    split at h
    · exact Option.some.inj h
    · cases h
  | _ => cases h

/-- A member that has been merged into a path is the plain member. -/
theorem same_member {grows : Bool} {holder holder' key key' : Tree}
    (hh : eval env holder = eval env holder') (hk : eval env key = eval env key') :
    Same env env (member grows holder key) (.index holder' key') := by
  obtain ⟨root, segments, name, -, rfl, hname, hm⟩ | hm := member_cases grows holder key
  · obtain ⟨v, rfl⟩ := eq_literal_of_literalName? hname
    have hkey := propertyKey_of_literalName? hname
    rw [hm]
    refine ⟨?_, fun args => ?_⟩
    · simp only [eval, ← hh, ← hk, pure_bind, hkey, resolve_snoc]
    · rw [callWith_snoc]
      simp only [callWith, ← hh, ← hk, eval, pure_bind, hkey]
  · rw [hm]
    exact Same.index rfl hh hk

end Tree

namespace Construct

variable {env : Environment}

theorem map_eval_itemTrees {cs : List Construct}
    (h : ∀ c ∈ cs, Tree.Same env env c.tree c.plain) :
    (itemTrees cs).map (Tree.eval env) = (itemPlains cs).map (Tree.eval env) := by
  induction cs with
  | nil => rfl
  | cons c cs ih =>
    obtain ⟨hc, hcs⟩ := List.forall_mem_cons.1 h
    simp only [itemTrees, itemPlains, List.map_cons, hc.1, ih hcs]

theorem map_eval_entryTrees {entries : List (String × Construct)}
    (h : ∀ e ∈ entries, Tree.Same env env e.2.tree e.2.plain) :
    (entryTrees entries).map (fun e => (e.1, Tree.eval env e.2)) =
      (entryPlains entries).map (fun e => (e.1, Tree.eval env e.2)) := by
  induction entries with
  | nil => rfl
  | cons e entries ih =>
    obtain ⟨he, hes⟩ := List.forall_mem_cons.1 h
    simp only [entryTrees, entryPlains, List.map_cons, he.1, ih hes]

/-- The tree of a construct and its plain tree come to the same, also where they are called. -/
theorem same_plain (env : Environment) (c : Construct) : Tree.Same env env c.tree c.plain := by
  induction c with
  | literal l v h => exact Tree.Same.literal rfl v
  | identifier text root segments h called => exact ⟨rfl, fun _ => rfl⟩
  | property holder name ih => exact Tree.same_member ih.1 rfl
  | index holder key ihh ihk => exact Tree.same_member ihh.1 ihk.1
  | call callee args ihc iha => exact Tree.Same.call rfl ihc.2 (map_eval_itemTrees iha)
  | array items ih => exact Tree.Same.array rfl (map_eval_itemTrees ih)
  | object entries ih => exact Tree.Same.object rfl (map_eval_entryTrees ih)
  | unary op h operand ih => exact Tree.Same.unary rfl ih.1
  | binary op h left right ihl ihr => exact Tree.Same.binary rfl ihl.1 ihr.1
  | conditional condition yes no ihc ihy ihn =>
    exact Tree.Same.conditional rfl ihc.1 ihy.1 ihn.1

end Construct

/-- A stream that compiles also compiles plainly, and the plain tree yields the same outcome with
the same host calls in every environment. -/
theorem evaluate_eq_plain {limits : Limits} {source : String} {tokens : List Token}
    {e : Expression} (h : Expression.compile limits source tokens = .ok e) :
    ∃ t, Plain.build tokens = .ok t ∧ ∀ env, e.evaluate env = t.eval env := by
  obtain ⟨⟨root, reads⟩, hb, he⟩ := bind_eq_ok_iff.1 h
  cases he
  obtain ⟨c, rfl⟩ := exists_construct_of_build hb
  refine ⟨c.plain, Plain.build_listing c, fun env => ?_⟩
  rw [build_listing] at hb
  split at hb
  · cases hb
    exact (c.same_plain env).1
  · cases hb

theorem evaluate_eq_plain_callee : ∃ e t,
    Expression.compile {} "" [⟨.identifier "a", -1⟩, ⟨.string "b", 0⟩, ⟨.index, 0⟩,
      ⟨.integer 1, 0⟩, ⟨.call, 1⟩] = .ok e ∧
    Plain.build [⟨.identifier "a", -1⟩, ⟨.string "b", 0⟩, ⟨.index, 0⟩, ⟨.integer 1, 0⟩,
      ⟨.call, 1⟩] = .ok t ∧
    ∀ env, e.evaluate env = t.eval env := by
  obtain ⟨e, h⟩ := exists_eq_ok (x := Expression.compile {} "" [⟨.identifier "a", -1⟩,
    ⟨.string "b", 0⟩, ⟨.index, 0⟩, ⟨.integer 1, 0⟩, ⟨.call, 1⟩]) (by decide +kernel)
  obtain ⟨t, ht, hsame⟩ := evaluate_eq_plain h
  exact ⟨e, t, h, ht, hsame⟩

end TemplateBinding
