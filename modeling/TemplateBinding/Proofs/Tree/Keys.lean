import TemplateBinding.Proofs.Merging
import TemplateBinding.Proofs.Value.Keys
import TemplateBinding.Proofs.Watch.Order
import TemplateBinding.Report

set_option autoImplicit false

namespace TemplateBinding

theorem Arithmetic.isContainer_apply (op : Arithmetic) (a b : Value) :
    (op.apply a b).isContainer = false := by
  have hmixed (x y : Float) : (op.mixed x y).isContainer = false := by
    unfold mixed
    split
    · unfold ofDecimal
      split <;> rfl
    · rfl
  unfold apply
  split
  · split <;> rfl
  · rfl
  · exact hmixed _ _

namespace Value

variable {v receiver : Value} {items args : List Value} {s method : String}

theorem isContainer_power (a b : Value) : (power a b).isContainer = false := by
  unfold power
  dsimp only
  split <;> rfl

theorem isContainer_add (a b : Value) : (add a b).isContainer = false := by
  unfold add
  split
  · rfl
  · exact Arithmetic.isContainer_apply _ a b

theorem isContainer_negate (a : Value) : (negate a).isContainer = false := by
  unfold negate
  split
  · split <;> rfl
  · rfl

theorem isContainer_positive (a : Value) : (positive a).isContainer = false := by
  unfold positive
  split <;> rfl

theorem isContainer_ofPosition (position : Option Nat) :
    (ofPosition position).isContainer = false := by
  unfold ofPosition
  split <;> rfl

theorem keysAscend_of_bind {α : Type} {x : Except EvalFault α} {f : α → Value}
    (h : (do let a ← x; return f a) = .ok v) (hf : ∀ a, (f a).KeysAscend) : v.KeysAscend := by
  obtain ⟨a, -, h⟩ := bind_eq_ok_iff.1 h
  obtain rfl := Except.ok.inj h
  exact hf a

theorem KeysAscend.fixedMethod {x : Float} (h : Value.fixedMethod x args = .ok v) :
    v.KeysAscend := by
  obtain ⟨-, -, h⟩ := bind_eq_ok_iff.1 h
  dsimp only at h
  split at h
  all_goals
    split at h
    · split at h
      all_goals
        obtain rfl := Except.ok.inj h
        exact keysAscend_of_isContainer rfl
    · cases h

theorem KeysAscend.stringMethod (h : Value.stringMethod s method args = .ok v) :
    v.KeysAscend := by
  unfold Value.stringMethod at h
  dsimp only at h
  split at h
  case h_7 =>
    exact keysAscend_of_bind h fun _ => keysAscend_of_isContainer (isContainer_ofPosition _)
  case h_10 =>
    exact keysAscend_of_bind h fun _ => keysAscend_array_iff.2 <|
      List.forall_mem_map.2 fun _ _ => keysAscend_of_isContainer rfl
  case h_12 => cases h
  all_goals exact keysAscend_of_bind h fun _ => keysAscend_of_isContainer rfl

theorem KeysAscend.arrayMethod (hitems : ∀ item ∈ items, item.KeysAscend)
    (h : Value.arrayMethod items method args = .ok v) : v.KeysAscend := by
  unfold Value.arrayMethod at h
  split at h
  case h_3 =>
    exact keysAscend_of_bind h fun _ => keysAscend_of_isContainer (isContainer_ofPosition _)
  case h_4 =>
    exact keysAscend_of_bind h fun _ => keysAscend_array_iff.2 fun item hitem =>
      hitems item (List.mem_of_mem_take (List.mem_of_mem_drop hitem))
  case h_6 => cases h
  all_goals exact keysAscend_of_bind h fun _ => keysAscend_of_isContainer rfl

theorem KeysAscend.callMethod (hreceiver : receiver.KeysAscend)
    (h : receiver.callMethod method args = .ok v) : v.KeysAscend := by
  unfold Value.callMethod at h
  split at h
  · exact .stringMethod h
  · exact .arrayMethod (keysAscend_array_iff.1 hreceiver) h
  · split at h
    · exact .fixedMethod h
    · exact keysAscend_of_bind h fun _ => keysAscend_of_isContainer rfl
    · cases h
  · split at h
    · exact .fixedMethod h
    · exact keysAscend_of_bind h fun _ => keysAscend_of_isContainer rfl
    · cases h
  · split at h
    · exact keysAscend_of_bind h fun _ => keysAscend_of_isContainer rfl
    · cases h
  · cases h

end Value

namespace Operator

variable {op : Operator}

theorem isContainer_of_unaryFunction? {f : Value → Value} (h : op.unaryFunction? = some f)
    (a : Value) : (f a).isContainer = false := by
  cases op with
  | not =>
    obtain rfl := Option.some.inj h
    rfl
  | negate =>
    obtain rfl := Option.some.inj h
    exact Value.isContainer_negate a
  | positive =>
    obtain rfl := Option.some.inj h
    exact Value.isContainer_positive a
  | _ => cases h

theorem isContainer_of_binaryFunction? {f : Value → Value → Value}
    (h : op.binaryFunction? = some f) (a b : Value) : (f a b).isContainer = false := by
  cases op with
  | power =>
    obtain rfl := Option.some.inj h
    exact Value.isContainer_power a b
  | add =>
    obtain rfl := Option.some.inj h
    exact Value.isContainer_add a b
  | multiply | divide | remainder | subtract =>
    obtain rfl := Option.some.inj h
    exact Arithmetic.isContainer_apply _ a b
  | lessThan | lessEqual | greaterThan | greaterEqual | equal | notEqual | strictEqual
  | strictNotEqual =>
    obtain rfl := Option.some.inj h
    rfl
  | _ => cases h

end Operator

/-- The run fails, or `P` holds of what it yields. -/
def Run.Yields {α : Type} (P : α → Prop) (r : Run α) : Prop := ∀ a, r.outcome = .ok a → P a

namespace Run.Yields

variable {α β : Type} {P : α → Prop} {Q : β → Prop} {r : Run α}

theorem pure {a : α} (h : P a) : Yields P (pure a : Run α) := by
  rintro _ ⟨⟩
  exact h

theorem fail (fault : EvalFault) : Yields P (Run.fail fault : Run α) := nofun

theorem bind {f : α → Run β} (h : Yields P r) (hf : ∀ a, P a → Yields Q (f a)) :
    Yields Q (r >>= f) := by
  intro b hb
  change (Run.bind r f).outcome = .ok b at hb
  unfold Run.bind at hb
  split at hb
  · cases hb
  · next a ha => exact hf a (h a ha) b hb

end Run.Yields

/-- Nothing that an evaluation can see has keys out of order, and no answer of the host has that
it gives to arguments in order. -/
structure Environment.KeysAscend (env : Environment) : Prop where
  context : env.context.KeysAscend
  aliases : ∀ e ∈ env.aliases, e.2.KeysAscend
  host : ∀ f args v, (∀ arg ∈ args, arg.KeysAscend) → env.host f args = .ok v → v.KeysAscend

namespace Environment.KeysAscend

variable {env : Environment} {receiver : Value} {args : List Value}

theorem resolve (henv : env.KeysAscend) (root : Root) (segments : List String) :
    (env.resolve root segments).KeysAscend := by
  refine Value.KeysAscend.walk ?_ segments
  match root with
  | .context => exact henv.context
  | .alias name => exact .getD fun v hv => henv.aliases _ (Entries.mem_of_get? hv)

theorem call (henv : env.KeysAscend) (f : HostFunction) (hargs : ∀ arg ∈ args, arg.KeysAscend) :
    (env.call f args).Yields Value.KeysAscend := by
  unfold Environment.call
  split
  · split
    · exact fun v hv => henv.host f args v hargs hv
    · exact .fail _
  · exact fun v hv => henv.host f args v hargs hv

theorem callMember (henv : env.KeysAscend) (hreceiver : receiver.KeysAscend) (name : String)
    (hargs : ∀ arg ∈ args, arg.KeysAscend) :
    (env.callMember receiver name args).Yields Value.KeysAscend := by
  unfold Environment.callMember
  split
  · exact henv.call _ hargs
  · exact .fail _
  · exact fun v hv => hreceiver.callMethod hv

end Environment.KeysAscend

namespace Tree

open Run (Yields)

/-- What the tree yields has ascending keys, and so has what a call of it yields. -/
def Ascends (env : Environment) (t : Tree) : Prop :=
  (eval env t).Yields Value.KeysAscend ∧
    ∀ args : Run (List Value), args.Yields (∀ arg ∈ ·, arg.KeysAscend) →
      (callWith env args t).Yields Value.KeysAscend

namespace Ascends

variable {env : Environment}

theorem of_eval (henv : env.KeysAscend) {t : Tree} (ht : t.isMember = false)
    (h : (eval env t).Yields Value.KeysAscend) : Ascends env t := by
  refine ⟨h, fun args hargs => ?_⟩
  rw [callWith_of_isMember ht]
  refine h.bind fun target _ => hargs.bind fun vs hvs => ?_
  split
  · exact henv.call _ hvs
  · exact .fail _

theorem path (henv : env.KeysAscend) (root : Root) (segments : List String) :
    Ascends env (.path root segments) := by
  have heval : (eval env (.path root segments)).Yields Value.KeysAscend :=
    .pure (henv.resolve root segments)
  cases segments with
  | nil => exact of_eval henv rfl heval
  | cons name names =>
    refine ⟨heval, fun args hargs => ?_⟩
    rw [callWith]
    split
    · exact .pure Value.keysAscend_undefined
    · exact hargs.bind fun vs hvs => henv.callMember (henv.resolve _ _) _ hvs

theorem index (henv : env.KeysAscend) {holder key : Tree} (hholder : Ascends env holder)
    (hkey : Ascends env key) : Ascends env (.index holder key) := by
  constructor
  · exact hholder.1.bind fun v hv => hkey.1.bind fun k _ => .pure (.getD fun w hw => hv.get? hw)
  · intro args hargs
    refine hholder.1.bind fun receiver hreceiver => hkey.1.bind fun k _ => ?_
    split
    · exact .pure Value.keysAscend_undefined
    · exact hargs.bind fun vs hvs => henv.callMember hreceiver _ hvs

theorem unary (henv : env.KeysAscend) (op : Operator) {t : Tree} (ht : Ascends env t) :
    Ascends env (.unary op t) := by
  refine of_eval henv rfl ?_
  rw [eval_unary]
  split
  · next f hf =>
    exact ht.1.bind fun v _ =>
      .pure (Value.keysAscend_of_isContainer (op.isContainer_of_unaryFunction? hf v))
  · exact .fail _

theorem binary (henv : env.KeysAscend) (op : Operator) {left right : Tree}
    (hleft : Ascends env left) (hright : Ascends env right) :
    Ascends env (.binary op left right) := by
  refine of_eval henv rfl ?_
  rw [eval_binary]
  split
  · next f _ hf =>
    exact hleft.1.bind fun v _ => hright.1.bind fun w _ =>
      .pure (Value.keysAscend_of_isContainer (op.isContainer_of_binaryFunction? hf v w))
  · refine hleft.1.bind fun v hv => ?_
    split
    · exact .pure hv
    · exact hright.1
  · exact .fail _

theorem conditional (henv : env.KeysAscend) {condition yes no : Tree}
    (hcondition : Ascends env condition) (hyes : Ascends env yes) (hno : Ascends env no) :
    Ascends env (.conditional condition yes no) := by
  refine of_eval henv rfl (hcondition.1.bind fun v _ => ?_)
  split
  · exact hyes.1
  · exact hno.1

theorem evalItems {items : List Tree} (h : ∀ item ∈ items, Ascends env item) :
    (Tree.evalItems env items).Yields (∀ v ∈ ·, v.KeysAscend) := by
  induction items with
  | nil => exact .pure nofun
  | cons item items ih =>
    obtain ⟨hitem, hitems⟩ := List.forall_mem_cons.1 h
    exact hitem.1.bind fun v hv => (ih hitems).bind fun vs hvs =>
      .pure (List.forall_mem_cons.2 ⟨hv, hvs⟩)

theorem evalEntries {entries : List (String × Tree)} (h : ∀ e ∈ entries, Ascends env e.2)
    {before : List (String × Value)} (hbefore : (Value.object before).KeysAscend) :
    (Tree.evalEntries env before entries).Yields fun es => (Value.object es).KeysAscend := by
  induction entries generalizing before with
  | nil => exact .pure hbefore
  | cons e entries ih =>
    obtain ⟨hentry, hentries⟩ := List.forall_mem_cons.1 h
    exact hentry.1.bind fun v hv => ih hentries (hbefore.insert e.1 hv)

theorem array (henv : env.KeysAscend) {items : List Tree} (h : ∀ item ∈ items, Ascends env item) :
    Ascends env (.array items) :=
  of_eval henv rfl ((evalItems h).bind fun _ hvs => .pure (Value.keysAscend_array_iff.2 hvs))

theorem object (henv : env.KeysAscend) {entries : List (String × Tree)}
    (h : ∀ e ∈ entries, Ascends env e.2) : Ascends env (.object entries) :=
  of_eval henv rfl <| (evalEntries h
    (Value.keysAscend_object_iff.2 ⟨List.Pairwise.nil, nofun⟩)).bind fun _ hes => .pure hes

theorem call (henv : env.KeysAscend) {callee : Tree} {args : List Tree}
    (hcallee : Ascends env callee) (hargs : ∀ arg ∈ args, Ascends env arg) :
    Ascends env (.call callee args) := by
  refine of_eval henv rfl ?_
  rw [eval_call]
  exact hcallee.2 _ (evalItems hargs)

end Ascends

end Tree

theorem Lexical.isContainer_of_value? {l : Lexical} {v : Value} (h : l.value? = some v) :
    v.isContainer = false := by
  cases l <;> cases h <;> rfl

namespace Construct

theorem itemPlains_eq_map (cs : List Construct) : itemPlains cs = cs.map plain :=
  Value.eq_map rfl (fun _ _ => rfl) cs

theorem entryPlains_eq_map (entries : List (String × Construct)) :
    entryPlains entries = entries.map fun e => (e.1, e.2.plain) :=
  Value.eq_map rfl (fun _ _ => rfl) entries

theorem ascends_plain {env : Environment} (henv : env.KeysAscend) (c : Construct) :
    c.plain.Ascends env := by
  have hliteral {v : Value} (hv : v.isContainer = false) : (Tree.literal v).Ascends env :=
    .of_eval henv rfl (.pure (Value.keysAscend_of_isContainer hv))
  induction c with
  | literal l v h => exact hliteral (Lexical.isContainer_of_value? h)
  | identifier text root segments h called => exact .path henv root segments
  | property holder name ih => exact .index henv ih (hliteral rfl)
  | index holder key ihh ihk => exact .index henv ihh ihk
  | call callee args ihc iha =>
    rw [plain, itemPlains_eq_map]
    exact .call henv ihc (List.forall_mem_map.2 iha)
  | array items ih =>
    rw [plain, itemPlains_eq_map]
    exact .array henv (List.forall_mem_map.2 ih)
  | object entries ih =>
    rw [plain, entryPlains_eq_map]
    exact .object henv (List.forall_mem_map.2 ih)
  | unary op h operand ih => exact .unary henv op ih
  | binary op h left right ihl ihr => exact .binary henv op ihl ihr
  | conditional condition yes no ihc ihy ihn => exact .conditional henv ihc ihy ihn

end Construct

/-- Objects keep their keys in ascending order throughout: an expression yields no others, if the
context, the aliases and the host's answers hold no others. -/
theorem Expression.keysAscend_evaluate {limits : Limits} {source : String} {e : Expression}
    (h : Expression.parse limits source = .ok e) {env : Environment} (henv : env.KeysAscend) :
    (e.evaluate env).Yields Value.KeysAscend := by
  obtain ⟨c, -, -, hroot, -⟩ := exists_construct_of_parse h
  rw [evaluate, hroot, (c.same_plain env).1]
  exact (c.ascends_plain henv).1

theorem keysAscend_readDocument {text : String} {v : Value} (h : readDocument text = .ok v) :
    v.KeysAscend := by
  unfold readDocument at h
  split at h
  · next j hj =>
    obtain rfl := Except.ok.inj h
    exact .ofJson (Json.keysAscend_of_parse? hj)
  · cases h

theorem keysAscend_readAliases {text : String} {aliases : Entries Value}
    (h : readAliases text = .ok aliases) : (Value.object aliases).KeysAscend := by
  obtain ⟨v, hv, h⟩ := bind_eq_ok_iff.1 h
  cases v with
  | object entries =>
    obtain rfl := Except.ok.inj h
    exact keysAscend_readDocument hv
  | _ => cases h

theorem keysAscend_of_documents {context : Value} {aliases : Entries Value} (hc : context.KeysAscend)
    (ha : (Value.object aliases).KeysAscend) :
    Environment.KeysAscend ⟨Host.none, context, aliases⟩ where
  context := hc
  aliases := (Value.keysAscend_object_iff.1 ha).2
  host _ _ _ _ h := by
    obtain rfl := Except.ok.inj h
    exact Value.keysAscend_undefined

theorem Check.keysAscend_run {c : Check} {r : Report} {j : Json} (h : c.run = .ok r)
    (hj : r.output = some j) : j.KeysAscend := by
  obtain ⟨e, he, h⟩ := bind_eq_ok_iff.1 h
  split at h
  · obtain rfl := Except.ok.inj h
    cases hj
  · obtain ⟨context, hcontext, h⟩ := bind_eq_ok_iff.1 h
    obtain ⟨aliases, haliases, h⟩ := bind_eq_ok_iff.1 h
    obtain ⟨v, hv, h⟩ := bind_eq_ok_iff.1 h
    obtain rfl := Except.ok.inj h
    obtain rfl := Option.some.inj hj
    have hcontext : context.KeysAscend := by
      cases hinput : c.input with
      | none =>
        rw [hinput] at hcontext
        obtain rfl := Except.ok.inj hcontext
        exact Value.keysAscend_undefined
      | some text =>
        rw [hinput] at hcontext
        exact keysAscend_readDocument hcontext
    have haliases : (Value.object aliases).KeysAscend := by
      cases htext : c.aliases with
      | none =>
        rw [htext] at haliases
        obtain rfl := Except.ok.inj haliases
        exact Value.keysAscend_object_iff.2 ⟨List.Pairwise.nil, nofun⟩
      | some text =>
        rw [htext] at haliases
        exact keysAscend_readAliases haliases
    have henv := keysAscend_of_documents hcontext haliases
    have hv := Lexeme.mapError_eq_ok_iff.1 hv
    exact (Expression.keysAscend_evaluate (Lexeme.mapError_eq_ok_iff.1 he) henv v hv).toJson

end TemplateBinding
