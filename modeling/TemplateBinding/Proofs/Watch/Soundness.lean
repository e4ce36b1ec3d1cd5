import TemplateBinding.Proofs.Tree.Calls
import TemplateBinding.Proofs.Watch.Naming

set_option autoImplicit false

namespace TemplateBinding

/-- What is watched of a path is the same in both environments. -/
def PathUse.Agrees (env env' : Environment) (u : PathUse) : Prop :=
  env.resolve u.root u.watched = env'.resolve u.root u.watched

namespace Tree

variable {env env' : Environment}

theorem callMember_object (env : Environment) (entries : Entries Value) (name : String)
    (args : List Value) :
    env.callMember (.object entries) name args =
      match (Entries.get? entries name).getD .undefined with
      | .function f => env.call f args
      | found => Run.fail (.notCallable name found.typeName) := by
  simp only [Environment.callMember, Value.get?]
  cases Entries.get? entries name with
  | none => rfl
  | some v => cases v <;> rfl

theorem resolve_singleton_object {entries : Entries Value} (h : env.context = .object entries)
    (name : String) :
    env.resolve .context [name] = (Entries.get? entries name).getD .undefined := by
  simp only [Environment.resolve, Environment.start, h, Value.walk, Value.get?]
  cases Entries.get? entries name <;> rfl

theorem callWith_singleton {entries : Entries Value} (h : env.context = .object entries)
    (name : String) (args : Run (List Value)) :
    callWith env args (.path .context [name]) = args >>= fun vs =>
      match env.resolve .context [name] with
      | .function f => env.call f vs
      | found => Run.fail (.notCallable name found.typeName) := by
  have hr : env.resolve .context [] = .object entries := h
  rw [resolve_singleton_object h]
  simp only [callWith, List.dropLast_singleton, hr, Value.isNullish, callMember_object]
  rfl

theorem callWith_path_congr {root : Root} {segments : List String} (hh : env.host = env'.host)
    (hc : ∃ entries, env.context = .object entries)
    (hc' : ∃ entries, env'.context = .object entries)
    (hu : PathUse.Agrees env env' ⟨root, segments, true⟩) (args : Run (List Value)) :
    callWith env args (.path root segments) = callWith env' args (.path root segments) := by
  cases segments with
  | nil =>
    have hr : env.resolve root [] = env'.resolve root [] := by
      cases root <;> simpa [PathUse.Agrees, PathUse.watched, Root.names] using hu
    simp only [callWith, eval, hr, Environment.call_congr hh]
  | cons name names =>
    by_cases hl : 1 < (root.names ++ name :: names).length
    · have hr : env.resolve root (name :: names).dropLast =
          env'.resolve root (name :: names).dropLast := by
        simpa only [PathUse.Agrees, PathUse.watched, hl, decide_true, Bool.true_and, if_true]
          using hu
      simp only [callWith, hr, Environment.callMember_congr hh]
    · -- all that is left of the path is the name of a member of the context
      obtain ⟨rfl, rfl⟩ : root = .context ∧ names = [] := by
        cases root <;> cases names <;> simp_all [Root.names]
      obtain ⟨entries, he⟩ := hc
      obtain ⟨entries', he'⟩ := hc'
      have hr : env.resolve .context [name] = env'.resolve .context [name] := by
        simpa [PathUse.Agrees, PathUse.watched, Root.names] using hu
      simp only [callWith_singleton he, callWith_singleton he', hr, Environment.call_congr hh]

theorem mem_uses_true {t : Tree} {u : PathUse} (hn : t.isPath = false) :
    u ∈ t.uses true ↔ u ∈ t.uses false := by
  cases t with
  | path => cases hn
  | _ => rfl

theorem same_of_agrees {t : Tree} (hh : env.host = env'.host)
    (hc : ∃ entries, env.context = .object entries)
    (hc' : ∃ entries, env'.context = .object entries) :
    ((∀ u ∈ t.uses false, u.Agrees env env') → eval env t = eval env' t) ∧
      ((∀ u ∈ t.uses true, u.Agrees env env') →
        ∀ args, callWith env args t = callWith env' args t) := by
  have hsame {t : Tree} (hn : t.isPath = false)
      (hs : (∀ u ∈ t.uses false, u.Agrees env env') → Same env env' t t) :
      ((∀ u ∈ t.uses false, u.Agrees env env') → eval env t = eval env' t) ∧
        ((∀ u ∈ t.uses true, u.Agrees env env') →
          ∀ args, callWith env args t = callWith env' args t) :=
    ⟨fun h => (hs h).1, fun h => (hs fun u hu => h u ((mem_uses_true hn).2 hu)).2⟩
  induction t with
  | literal v => exact hsame rfl fun _ => Same.literal hh v
  | path root segments =>
    refine ⟨fun h => ?_, fun h => callWith_path_congr hh hc hc' (h _ List.mem_cons_self)⟩
    have hu := h ⟨root, segments, false⟩ List.mem_cons_self
    exact congrArg pure hu
  | index holder key ihh ihk =>
    refine hsame rfl fun h => ?_
    obtain ⟨hholder, hkey⟩ := List.forall_mem_append.1 h
    exact Same.index hh (ihh.1 hholder) (ihk.1 hkey)
  | unary op operand ih => exact hsame rfl fun h => Same.unary hh (ih.1 h)
  | binary op left right ihl ihr =>
    refine hsame rfl fun h => ?_
    obtain ⟨hleft, hright⟩ := List.forall_mem_append.1 h
    exact Same.binary hh (ihl.1 hleft) (ihr.1 hright)
  | conditional condition yes no ihc ihy ihn =>
    refine hsame rfl fun h => ?_
    obtain ⟨h, hno⟩ := List.forall_mem_append.1 h
    obtain ⟨hcondition, hyes⟩ := List.forall_mem_append.1 h
    exact Same.conditional hh (ihc.1 hcondition) (ihy.1 hyes) (ihn.1 hno)
  | call callee args ihc iha =>
    refine hsame rfl fun h => ?_
    obtain ⟨hcallee, hargs⟩ := List.forall_mem_append.1 h
    exact Same.call hh (ihc.2 hcallee) (List.map_congr_left fun t ht =>
      (iha t ht).1 fun u hu => hargs u (mem_itemUses ht hu))
  | array items ih =>
    exact hsame rfl fun h => Same.array hh (List.map_congr_left fun t ht =>
      (ih t ht).1 fun u hu => h u (mem_itemUses ht hu))
  | object entries ih =>
    exact hsame rfl fun h => Same.object hh (List.map_congr_left fun e he => by
      rw [(ih e he).1 fun u hu => h u (mem_entryUses he hu)])

theorem eval_eq_of_agrees {t : Tree} (hh : env.host = env'.host)
    (hc : ∃ entries, env.context = .object entries)
    (hc' : ∃ entries, env'.context = .object entries)
    (h : ∀ u ∈ t.uses false, u.Agrees env env') : eval env t = eval env' t :=
  (same_of_agrees hh hc hc').1 h

end Tree

def walkAliases (aliases : Entries Value) (path : List String) : Value :=
  match path with
  | [] => .undefined
  | name :: names => ((Entries.get? aliases name).getD .undefined).walk names

/-- Where the watched paths lead to the same values, the outcome is the same, and so are the
host calls. -/
theorem evaluate_eq_of_watched {limits : Limits} {source : String} {e : Expression}
    (hp : Expression.parse limits source = .ok e)
    (hk : ∀ tokens, tokenize limits source = .ok tokens → PlainKeys tokens)
    (host : Host) {entries entries' aliases aliases' : Entries Value}
    (hi : ∀ path ∈ e.identifiers, (Value.object entries).walk (Text.names path) =
      (Value.object entries').walk (Text.names path))
    (ha : ∀ path ∈ e.aliases, walkAliases aliases (Text.names path) =
      walkAliases aliases' (Text.names path)) :
    e.evaluate ⟨host, .object entries, aliases⟩ =
      e.evaluate ⟨host, .object entries', aliases'⟩ := by
  refine Tree.eval_eq_of_agrees rfl ⟨entries, rfl⟩ ⟨entries', rfl⟩ fun u hu => ?_
  obtain ⟨c, hc, ht, hroot, -, -⟩ := Expression.exists_construct_of_parse hp
  have hplain : u.Plain := Construct.plain_uses hc (hk _ ht) u (hroot ▸ hu)
  cases hr : u.root with
  | context =>
    have hw := hi _ (Expression.text_mem_identifiers hp hu hr)
    rw [hplain.names_text, hr] at hw
    rw [PathUse.Agrees, hr]
    exact hw
  | «alias» name =>
    have hw := ha _ (Expression.text_mem_aliases hp hu (by rw [hr]; nofun))
    rw [hplain.names_text, hr] at hw
    rw [PathUse.Agrees, hr]
    exact hw

/-- A call does not see what the watched paths do not reach. -/
theorem evaluate_eq_of_watched_call : ∃ e, Expression.parse {} "a['b'](@k)" = .ok e ∧
    e.evaluate ⟨fun _ args => .ok (.array args),
        .object [("a", .object [("b", .function ⟨"f", none, 0⟩)])], [("k", .integer 3)]⟩ =
      e.evaluate ⟨fun _ args => .ok (.array args),
        .object [("a", .object [("b", .function ⟨"f", none, 0⟩)]), ("z", .null)],
        [("j", .null), ("k", .integer 3)]⟩ := by
  obtain ⟨e, h⟩ := exists_eq_ok (x := Expression.parse {} "a['b'](@k)") (by decide +kernel)
  have hi : (Expression.parse {} "a['b'](@k)").toOption.map (·.identifiers) = some ["a"] := by
    decide +kernel
  have ha : (Expression.parse {} "a['b'](@k)").toOption.map (·.aliases) = some ["k"] := by
    decide +kernel
  rw [h] at hi ha
  have hi : e.identifiers = ["a"] := Option.some.inj hi
  have ha : e.aliases = ["k"] := Option.some.inj ha
  refine ⟨e, h, evaluate_eq_of_watched h ?_ _ ?_ ?_⟩
  · intro tokens ht
    have hall : (tokenize {} "a['b'](@k)").toOption.all (List.all · Token.isPlain) = true := by
      decide +kernel
    rw [ht] at hall
    exact plainKeys_of_all hall
  · rw [hi]
    refine List.forall_mem_singleton.2 ?_
    rw [show Text.names "a" = ["a"] by decide +kernel]
    rfl
  · rw [ha]
    refine List.forall_mem_singleton.2 ?_
    rw [show Text.names "k" = ["k"] by decide +kernel]
    rfl

end TemplateBinding
