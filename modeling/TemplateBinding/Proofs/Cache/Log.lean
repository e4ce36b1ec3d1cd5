import TemplateBinding.Cache
import TemplateBinding.Proofs.Outcome

set_option autoImplicit false

namespace TemplateBinding

theorem Expression.source_of_parse {limits : Limits} {source : String} {e : Expression}
    (h : parse limits source = .ok e) : e.source = source ∧ e.oneTime = false := by
  obtain ⟨tokens, -, hcompile⟩ := bind_eq_ok_iff.1 h
  obtain ⟨built, -, hbuilt⟩ := bind_eq_ok_iff.1 hcompile
  cases hbuilt
  exact ⟨rfl, rfl⟩

namespace Cache

inductive Operation where
  | parse (source : String)
  | get (source : String)
  | contains (source : String)
  /-- Without a source, everything is cleared. -/
  | clear (source : Option String)
  | put (x : Instance)

inductive Answer where
  | parsed (outcome : Except ParseFault Instance)
  | found (entry : Option Instance)
  | contained (answer : Bool)
  | cleared
  | stored (entry : Instance)

def perform (c : Cache) : Operation → Answer × Cache
  | .parse source => (.parsed (c.parse source).1, (c.parse source).2)
  | .get source => (.found (c.get? source), c)
  | .contains source => (.contained (c.contains source), c)
  | .clear source => (.cleared, c.clear source)
  | .put x => (.stored (c.put x).1, (c.put x).2)

structure Event where
  operation : Operation
  answer : Answer

def run (limits : Limits) : List Operation → Cache
  | [] => { limits }
  | op :: ops => ((run limits ops).perform op).2

def log (limits : Limits) : List Operation → List Event
  | [] => []
  | op :: ops => ⟨op, ((run limits ops).perform op).1⟩ :: log limits ops

def Operation.covers (source : String) : Operation → Bool
  | .clear none => true
  | .clear (some s) => s = source
  | _ => false

def Operation.source? : Operation → Option String
  | .parse source | .get source | .contains source => some source
  | .clear source => source
  | .put x => some x.expression.source

/-- The answer of a successful `parse` of the source, or of a `put` of one of its expressions. -/
def Event.stored? (source : String) : Event → Option Instance
  | ⟨.parse s, .parsed (.ok x)⟩ => if s = source then some x else none
  | ⟨.put y, .stored x⟩ => if y.expression.source = source then some x else none
  | _ => none

def Event.instance? (source : String) : Event → Option Instance
  | ⟨.get s, .found entry⟩ => if s = source then entry else none
  | e => e.stored? source

/-- The instance of the source that was the first to be stored since it was last cleared. -/
def firstStored (source : String) : List Event → Option Instance
  | [] => none
  | e :: events =>
    if e.operation.covers source then none else (firstStored source events).or (e.stored? source)

variable {c c' : Cache} {op : Operation} {answer : Answer} {source : String} {x : Instance}

def adding (c : Cache) (x : Instance) : Cache :=
  { c with issued := x.serial + 1, entries := Entries.insert c.entries x.expression.source x }

theorem get?_adding_self (c : Cache) (x : Instance) :
    (c.adding x).get? x.expression.source = some x :=
  Entries.get?_insert_self _ _ _

theorem get?_adding_of_ne (c : Cache) (h : source ≠ x.expression.source) :
    (c.adding x).get? source = c.get? source :=
  Entries.get?_insert_of_ne _ _ h

theorem put_of_some {y : Instance} (h : c.get? x.expression.source = some y) :
    c.put x = (y, c) := by
  unfold put
  rw [h]

theorem put_of_none (h : c.get? x.expression.source = none) :
    c.put x = (⟨c.issued, x.tree, x.expression⟩, c.adding ⟨c.issued, x.tree, x.expression⟩) := by
  unfold put
  rw [h]
  rfl

theorem parse_of_some (h : c.get? source = some x) : c.parse source = (.ok x, c) := by
  unfold parse
  rw [h]

theorem parse_of_error {fault : ParseFault} (h : c.get? source = none)
    (he : Expression.parse c.limits source = .error fault) :
    c.parse source = (.error fault, c) := by
  unfold parse
  rw [h, he]

theorem parse_of_ok {e : Expression} (h : c.get? source = none)
    (he : Expression.parse c.limits source = .ok e) :
    c.parse source = (.ok ⟨c.issued + 1, c.issued, e⟩, c.adding ⟨c.issued + 1, c.issued, e⟩) := by
  obtain ⟨rfl, -⟩ := Expression.source_of_parse he
  have hissued : (c.issue e).2.get? (c.issue e).1.expression.source = none := h
  unfold parse
  rw [h, he]
  simp only [put_of_none hissued]
  rfl

/-- All that an operation can do. -/
inductive Step (c : Cache) : Operation → Answer → Cache → Prop
  | hit {source : String} {x : Instance} : c.get? source = some x →
      Step c (.parse source) (.parsed (.ok x)) c
  | failed {source : String} {fault : ParseFault} : c.get? source = none →
      Expression.parse c.limits source = .error fault →
        Step c (.parse source) (.parsed (.error fault)) c
  | missed {x : Instance} : c.get? x.expression.source = none →
      Expression.parse c.limits x.expression.source = .ok x.expression → c.issued ≤ x.serial →
        Step c (.parse x.expression.source) (.parsed (.ok x)) (c.adding x)
  | got {source : String} : Step c (.get source) (.found (c.get? source)) c
  | asked {source : String} : Step c (.contains source) (.contained (c.contains source)) c
  | cleared {source : Option String} : Step c (.clear source) .cleared (c.clear source)
  | kept {x y : Instance} : c.get? x.expression.source = some y → Step c (.put x) (.stored y) c
  | put {x y : Instance} : c.get? y.expression.source = none → y.expression = x.expression →
      c.issued ≤ y.serial → Step c (.put x) (.stored y) (c.adding y)

theorem perform_step (c : Cache) (op : Operation) :
    Step c op (c.perform op).1 (c.perform op).2 := by
  cases op with
  | parse source =>
    cases hget : c.get? source with
    | some x =>
      simp only [perform, parse_of_some hget]
      exact .hit hget
    | none =>
      cases he : Expression.parse c.limits source with
      | error fault =>
        simp only [perform, parse_of_error hget he]
        exact .failed hget he
      | ok e =>
        simp only [perform, parse_of_ok hget he]
        obtain ⟨rfl, -⟩ := Expression.source_of_parse he
        exact .missed (x := ⟨c.issued + 1, c.issued, e⟩) hget he (Nat.le_succ c.issued)
  | get source => exact .got
  | contains source => exact .asked
  | clear source => exact .cleared
  | put x =>
    cases hget : c.get? x.expression.source with
    | some y =>
      simp only [perform, put_of_some hget]
      exact .kept hget
    | none =>
      simp only [perform, put_of_none hget]
      exact .put (y := ⟨c.issued, x.tree, x.expression⟩) hget rfl (Nat.le_refl c.issued)

theorem get?_clear (c : Cache) (cleared : Option String) (source : String) :
    (c.clear cleared).get? source =
      if (Operation.clear cleared).covers source then none else c.get? source := by
  cases cleared with
  | none => rfl
  | some s =>
    by_cases hs : s = source
    · subst hs
      simp [clear, get?, Operation.covers]
    · simp [clear, get?, Operation.covers, hs, Entries.get?_erase_of_ne _ (Ne.symm hs)]

theorem get?_adding (c : Cache) (x : Instance) (source : String)
    (h : c.get? x.expression.source = none) :
    (c.adding x).get? source =
      (c.get? source).or (if x.expression.source = source then some x else none) := by
  by_cases hs : x.expression.source = source
  · rw [← hs, get?_adding_self, h, if_pos rfl]
    rfl
  · rw [get?_adding_of_ne c (Ne.symm hs), if_neg hs, Option.or_none]

/-- What is held for a source stays until the source is cleared; where nothing is held, what is
stored will be. -/
theorem Step.get?_eq (h : Step c op answer c') (source : String) :
    c'.get? source = if op.covers source then none
      else (c.get? source).or (Event.stored? source ⟨op, answer⟩) := by
  have keeps {s : String} {x : Instance} (hget : c.get? s = some x) :
      (c.get? source).or (if s = source then some x else none) = c.get? source := by
    by_cases hs : s = source
    · rw [← hs, hget]
      rfl
    · rw [if_neg hs, Option.or_none]
  cases h with
  | hit hget => exact (keeps hget).symm
  | failed => exact Option.or_none.symm
  | missed hget he hserial => exact get?_adding c _ source hget
  | got => exact Option.or_none.symm
  | asked => exact Option.or_none.symm
  | cleared =>
    rw [get?_clear]
    split
    · rfl
    · exact Option.or_none.symm
  | kept hget => exact (keeps hget).symm
  | put hget hx hserial =>
    rw [get?_adding c _ source hget]
    simp only [Operation.covers, Event.stored?, hx]
    rfl

/-- What is answered for a source is held for it then. -/
theorem Step.get?_of_instance? (h : Step c op answer c')
    (hx : Event.instance? source ⟨op, answer⟩ = some x) : c'.get? source = some x := by
  cases h with
  | hit hget =>
    obtain ⟨rfl, ⟨⟩⟩ := Option.ite_none_right_eq_some.1 hx
    exact hget
  | failed => cases hx
  | missed hget he hserial =>
    obtain ⟨rfl, ⟨⟩⟩ := Option.ite_none_right_eq_some.1 hx
    exact get?_adding_self c x
  | got =>
    obtain ⟨rfl, h⟩ := Option.ite_none_right_eq_some.1 hx
    exact h
  | asked => cases hx
  | cleared => cases hx
  | kept hget =>
    obtain ⟨rfl, ⟨⟩⟩ := Option.ite_none_right_eq_some.1 hx
    exact hget
  | put hget hexpression hserial =>
    obtain ⟨rfl, ⟨⟩⟩ := Option.ite_none_right_eq_some.1 hx
    rw [← hexpression]
    exact get?_adding_self c x

theorem Step.get?_of_ne (h : Step c op answer c') (hs : op.source? ≠ some source)
    (hall : op.source? ≠ none) : c'.get? source = c.get? source := by
  cases h with
  | missed hget he hserial => exact get?_adding_of_ne c fun heq => hs (congrArg some heq.symm)
  | put hget hexpression hserial =>
    refine get?_adding_of_ne c fun heq => hs ?_
    rw [heq, hexpression]
    rfl
  | @cleared cleared =>
    have hcovers : (Operation.clear cleared).covers source = false := by
      cases cleared with
      | none => exact absurd rfl hall
      | some s => exact decide_eq_false fun heq => hs (congrArg some heq)
    rw [get?_clear, if_neg (by rw [hcovers]; exact Bool.false_ne_true)]
  | _ => rfl

variable {limits : Limits} {ops : List Operation}

/-- The cache holds for each source what the log says. -/
theorem get?_run (limits : Limits) (ops : List Operation) (source : String) :
    (run limits ops).get? source = firstStored source (log limits ops) := by
  induction ops with
  | nil => rfl
  | cons op ops ih =>
    have hstep := perform_step (run limits ops) op
    rw [run, hstep.get?_eq, ih]
    rfl

theorem run_induction {P : Cache → Prop} (hfresh : P { limits })
    (hstep : ∀ op ∈ ops, ∀ {c c' answer}, Step c op answer c' → P c → P c') :
    P (run limits ops) := by
  induction ops with
  | nil => exact hfresh
  | cons op ops ih =>
    obtain ⟨hop, hops⟩ := List.forall_mem_cons.1 hstep
    exact hop (perform_step _ op) (ih hops)

theorem limits_run (limits : Limits) (ops : List Operation) : (run limits ops).limits = limits := by
  refine run_induction (P := fun c => c.limits = limits) rfl fun op _ {c c' answer} h hc => ?_
  cases h with
  | @cleared source => cases source <;> exact hc
  | _ => exact hc

structure Indexed (c : Cache) : Prop where
  nodup : (c.entries.map Prod.fst).Nodup
  sources : ∀ entry ∈ c.entries, entry.2.expression.source = entry.1

theorem Indexed.adding (h : c.Indexed) (hx : c.get? x.expression.source = none) :
    (c.adding x).Indexed := by
  have hperm : (c.adding x).entries.Perm ((x.expression.source, x) :: c.entries) :=
    Entries.insert_perm_of_none x hx
  have hnew : x.expression.source ∉ c.entries.map Prod.fst := by
    rw [← Entries.get?_isSome_iff]
    simpa [get?] using hx
  refine ⟨?_, fun entry hm => ?_⟩
  · rw [(hperm.map Prod.fst).nodup_iff]
    exact List.nodup_cons.2 ⟨hnew, h.nodup⟩
  · rcases List.mem_cons.1 (hperm.mem_iff.1 hm) with rfl | hm
    · rfl
    · exact h.sources entry hm

theorem indexed_run (limits : Limits) (ops : List Operation) : (run limits ops).Indexed := by
  refine run_induction ⟨.nil, nofun⟩ fun op _ {c c' answer} h hc => ?_
  cases h with
  | missed hget he hserial => exact hc.adding hget
  | put hget hexpression hserial => exact hc.adding hget
  | @cleared source =>
    cases source with
    | none => exact ⟨.nil, nofun⟩
    | some s =>
      have hsublist : (Entries.erase c.entries s).Sublist c.entries := List.filter_sublist
      exact ⟨hc.nodup.sublist (hsublist.map Prod.fst),
        fun entry hm => hc.sources entry (hsublist.subset hm)⟩
  | _ => exact hc

end Cache

end TemplateBinding
