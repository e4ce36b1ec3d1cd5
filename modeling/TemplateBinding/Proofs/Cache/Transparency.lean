import TemplateBinding.Proofs.Cache.Log

set_option autoImplicit false

namespace TemplateBinding.Cache

/-- The source was stored, and has not been cleared since; the latest event comes first. -/
def Live (source : String) (events : List Event) : Prop :=
  ∃ later e earlier, events = later ++ e :: earlier ∧ (e.stored? source).isSome = true ∧
    ∀ e' ∈ later, e'.operation.covers source = false

variable {source : String} {e : Event} {events : List Event}

theorem covers_of_stored? (h : (e.stored? source).isSome = true) :
    e.operation.covers source = false := by
  obtain ⟨op, answer⟩ := e
  cases op with
  | clear s => cases h
  | _ => rfl

theorem live_cons_iff : Live source (e :: events) ↔
    (e.stored? source).isSome = true ∨
      (e.operation.covers source = false ∧ Live source events) := by
  constructor
  · rintro ⟨later, e', earlier, heq, hstored, hlater⟩
    cases later with
    | nil =>
      cases heq
      exact .inl hstored
    | cons e'' later =>
      cases heq
      obtain ⟨he, hlater⟩ := List.forall_mem_cons.1 hlater
      exact .inr ⟨he, later, e', earlier, rfl, hstored, hlater⟩
  · rintro (hstored | ⟨he, later, e', earlier, rfl, hstored, hlater⟩)
    · exact ⟨[], e, events, rfl, hstored, nofun⟩
    · exact ⟨e :: later, e', earlier, rfl, hstored, List.forall_mem_cons.2 ⟨he, hlater⟩⟩

theorem isSome_firstStored_iff :
    (firstStored source events).isSome = true ↔ Live source events := by
  induction events with
  | nil =>
    refine ⟨nofun, ?_⟩
    rintro ⟨later, e, earlier, heq, -⟩
    cases later <;> cases heq
  | cons e events ih =>
    rw [live_cons_iff, ← ih, firstStored]
    cases hc : e.operation.covers source with
    | true =>
      have hstored : (e.stored? source).isSome = false := by
        cases hs : (e.stored? source).isSome with
        | false => rfl
        | true => exact hc.symm.trans (covers_of_stored? hs)
      simp [hstored]
    | false => simp [or_comm]

variable {limits : Limits} {ops : List Operation}

/-- What is held for a source is what parsing it yields. -/
def Faithful (limits : Limits) (c : Cache) : Prop :=
  ∀ source x, c.get? source = some x → Expression.parse limits source = .ok x.expression

theorem Faithful.adding {c : Cache} {x : Instance} (h : Faithful limits c)
    (hx : Expression.parse limits x.expression.source = .ok x.expression) :
    Faithful limits (c.adding x) := by
  intro source y hy
  by_cases hs : source = x.expression.source
  · rw [hs, get?_adding_self] at hy
    cases hy
    rw [hs, hx]
  · rw [get?_adding_of_ne c hs] at hy
    exact h source y hy

theorem faithful_run
    (hput : ∀ x, .put x ∈ ops → ∃ source, Expression.parse limits source = .ok x.expression) :
    Faithful limits (run limits ops) := by
  have hboth : (run limits ops).limits = limits ∧ Faithful limits (run limits ops) := by
    refine run_induction (P := fun c => c.limits = limits ∧ Faithful limits c) ⟨rfl, nofun⟩
      fun op hop {c c' answer} h hc => ?_
    obtain ⟨hlimits, hfaithful⟩ := hc
    cases h with
    | missed hget he hserial =>
      rw [hlimits] at he
      exact ⟨hlimits, hfaithful.adding he⟩
    | put hget hexpression hserial =>
      obtain ⟨source, hparse⟩ := hput _ hop
      obtain ⟨rfl, -⟩ := Expression.source_of_parse hparse
      rw [← hexpression] at hparse
      exact ⟨hlimits, hfaithful.adding hparse⟩
    | @cleared cleared =>
      refine ⟨by cases cleared <;> exact hlimits, fun source x hx => ?_⟩
      rw [get?_clear] at hx
      split at hx
      · cases hx
      · exact hfaithful source x hx
    | _ => exact ⟨hlimits, hfaithful⟩
  exact hboth.2

/-- After any operations on a fresh cache, where only parsed expressions were put into it: parsing
through the cache yields what parsing yields, a failure leaves the cache as it is, and what is held
are the sources that were stored and have not been cleared since. -/
theorem run_transparent
    (hput : ∀ x, .put x ∈ ops → ∃ source, Expression.parse limits source = .ok x.expression) :
    (∀ source fault, Expression.parse limits source = .error fault →
      (run limits ops).parse source = (.error fault, run limits ops)) ∧
    (∀ source e, Expression.parse limits source = .ok e →
      e.source = source ∧ e.oneTime = false ∧
        ∃ x, ((run limits ops).parse source).1 = .ok x ∧ x.expression = e) ∧
    (∀ source, ((run limits ops).get? source).isSome = true ↔ Live source (log limits ops)) ∧
    (∀ source, (run limits ops).contains source = true ↔ Live source (log limits ops)) ∧
    ∃ sources : List String, sources.Nodup ∧
      (∀ source, source ∈ sources ↔ Live source (log limits ops)) ∧
        (run limits ops).size = sources.length := by
  have hfaithful := faithful_run hput
  have hlimits := limits_run limits ops
  have hlive (source : String) :
      ((run limits ops).get? source).isSome = true ↔ Live source (log limits ops) := by
    rw [get?_run, isSome_firstStored_iff]
  refine ⟨fun source fault he => ?_, fun source e he => ?_, hlive, hlive, ?_⟩
  · cases hget : (run limits ops).get? source with
    | some x =>
      rw [hfaithful source x hget] at he
      cases he
    | none => exact parse_of_error hget (by rwa [hlimits])
  · obtain ⟨hsource, honce⟩ := Expression.source_of_parse he
    refine ⟨hsource, honce, ?_⟩
    cases hget : (run limits ops).get? source with
    | some x =>
      rw [hfaithful source x hget] at he
      exact ⟨x, by rw [parse_of_some hget], Except.ok.inj he⟩
    | none =>
      rw [← hlimits] at he
      exact ⟨_, by rw [parse_of_ok hget he], rfl⟩
  · refine ⟨(run limits ops).entries.map Prod.fst, (indexed_run limits ops).nodup, ?_, ?_⟩
    · intro source
      rw [← Entries.get?_isSome_iff]
      exact hlive source
    · rw [List.length_map]
      rfl

theorem run_transparent_clear : ∃ x, Expression.parse {} "b" = .ok x.expression ∧
    (run {} [.clear (some "a"), .put x, .parse "a"]).contains "b" = true ∧
    (run {} [.clear (some "a"), .put x, .parse "a"]).contains "a" = false := by
  obtain ⟨e, he⟩ := exists_eq_ok (x := Expression.parse {} "b") (by decide +kernel)
  obtain ⟨hsource, -⟩ := Expression.source_of_parse he
  let x : Instance := ⟨0, 0, e⟩
  let ops : List Operation := [.clear (some "a"), .put x, .parse "a"]
  have hput : ∀ y, .put y ∈ ops → ∃ source, Expression.parse {} source = .ok y.expression := by
    intro y hy
    have hyx : y = x := by simpa [ops] using hy
    exact ⟨"b", by rw [hyx, he]⟩
  obtain ⟨-, -, -, hlive, -⟩ := run_transparent hput
  refine ⟨x, he, (hlive "b").2 ?_, Bool.eq_false_iff.2 fun h => ?_⟩
  · refine ⟨[⟨.clear (some "a"), .cleared⟩], ⟨.put x, .stored ((run {} [.parse "a"]).put x).1⟩,
      log {} [.parse "a"], rfl, ?_, ?_⟩
    · simp [Event.stored?, x, hsource]
    · simp [Operation.covers]
  · have ha := isSome_firstStored_iff.2 ((hlive "a").1 h)
    simp [ops, log, firstStored, Operation.covers] at ha

end TemplateBinding.Cache
