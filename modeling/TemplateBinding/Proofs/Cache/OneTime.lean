import TemplateBinding.Proofs.Cache.Log

set_option autoImplicit false

namespace TemplateBinding.Cache

variable {source : String}

/-- A flagged expression was put in while nothing was held for the source, which has not been
cleared since; the latest event comes first. -/
def FlaggedFirst (source : String) (events : List Event) : Prop :=
  ∃ later y answer earlier, events = later ++ ⟨.put y, answer⟩ :: earlier ∧
    y.expression.source = source ∧ y.expression.oneTime = true ∧
      firstStored source earlier = none ∧ ∀ e ∈ later, e.operation.covers source = false

theorem flaggedFirst_cons_iff {e : Event} {events : List Event} :
    FlaggedFirst source (e :: events) ↔
      (∃ y, e.operation = .put y ∧ y.expression.source = source ∧ y.expression.oneTime = true ∧
        firstStored source events = none) ∨
      (e.operation.covers source = false ∧ FlaggedFirst source events) := by
  constructor
  · rintro ⟨later, y, answer, earlier, heq, hsource, hflag, hfirst, hlater⟩
    cases later with
    | nil =>
      cases heq
      exact .inl ⟨y, rfl, hsource, hflag, hfirst⟩
    | cons e' later =>
      cases heq
      obtain ⟨he, hlater⟩ := List.forall_mem_cons.1 hlater
      exact .inr ⟨he, later, y, answer, earlier, rfl, hsource, hflag, hfirst, hlater⟩
  · rintro (⟨y, hop, hsource, hflag, hfirst⟩ |
      ⟨he, later, y, answer, earlier, rfl, hsource, hflag, hfirst, hlater⟩)
    · obtain ⟨op, answer⟩ := e
      obtain rfl : op = .put y := hop
      exact ⟨[], y, answer, events, rfl, hsource, hflag, hfirst, nofun⟩
    · exact ⟨e :: later, y, answer, earlier, rfl, hsource, hflag, hfirst,
        List.forall_mem_cons.2 ⟨he, hlater⟩⟩

/-- Where nothing was held, an operation leaves a flagged expression just when it puts one in. -/
theorem Step.flagged_iff_of_none {c c' : Cache} {op : Operation} {answer : Answer}
    (h : Step c op answer c') (hget : c.get? source = none) :
    (∃ x, c'.get? source = some x ∧ x.expression.oneTime = true) ↔
      ∃ y, op = .put y ∧ y.expression.source = source ∧ y.expression.oneTime = true := by
  have hnone {d : Cache} (hd : d.get? source = none) :
      ¬∃ x, d.get? source = some x ∧ x.expression.oneTime = true := by
    rintro ⟨x, hx, -⟩
    rw [hd] at hx
    cases hx
  cases h with
  | hit | failed | got | asked => exact ⟨fun hx => absurd hx (hnone hget), nofun⟩
  | cleared =>
    refine ⟨fun hx => absurd hx (hnone ?_), nofun⟩
    rw [get?_clear, hget, ite_self]
  | @missed x hx hparse _ =>
    obtain ⟨-, hflag⟩ := Expression.source_of_parse hparse
    refine ⟨fun ⟨y, hy, hyflag⟩ => ?_, nofun⟩
    rw [get?_adding c x source hx, hget, Option.none_or] at hy
    obtain ⟨-, ⟨⟩⟩ := Option.ite_none_right_eq_some.1 hy
    rw [hflag] at hyflag
    cases hyflag
  | @kept x y hx =>
    refine ⟨fun hy => absurd hy (hnone hget), ?_⟩
    rintro ⟨_, ⟨⟩, rfl, -⟩
    rw [hget] at hx
    cases hx
  | @put x y hy hexpression _ =>
    rw [get?_adding c y source hy, hget, Option.none_or, hexpression]
    constructor
    · rintro ⟨z, hz, hflag⟩
      obtain ⟨hsource, ⟨⟩⟩ := Option.ite_none_right_eq_some.1 hz
      rw [hexpression] at hflag
      exact ⟨x, rfl, hsource, hflag⟩
    · rintro ⟨_, ⟨⟩, hsource, hflag⟩
      exact ⟨y, if_pos hsource, by rwa [hexpression]⟩

/-- What is held for a source is flagged just when it was put in with the flag. -/
theorem held_flagged_iff (limits : Limits) (ops : List Operation) (source : String) :
    (∃ x, (run limits ops).get? source = some x ∧ x.expression.oneTime = true) ↔
      FlaggedFirst source (log limits ops) := by
  induction ops with
  | nil =>
    constructor
    · rintro ⟨_, ⟨⟩, -⟩
    · rintro ⟨later, _, _, _, heq, -⟩
      cases later <;> cases heq
  | cons op ops ih =>
    have hstep := perform_step (run limits ops) op
    rw [log, flaggedFirst_cons_iff, ← ih, ← get?_run]
    cases hget : (run limits ops).get? source with
    | none =>
      rw [run, hstep.flagged_iff_of_none hget]
      simp
    | some x =>
      rw [run, hstep.get?_eq, hget]
      cases op.covers source <;> simp

/-- Parsing through a cache, after any operations on a fresh one, yields a flagged expression just
where a flagged one was put in while nothing was held for its source, which has not been cleared
since. So parsing never sets the flag, and an expression that is held keeps it as it is. -/
theorem parse_oneTime_iff (limits : Limits) (ops : List Operation) (source : String) :
    (∃ x, ((run limits ops).parse source).1 = .ok x ∧ x.expression.oneTime = true) ↔
      FlaggedFirst source (log limits ops) := by
  rw [← held_flagged_iff]
  cases hget : (run limits ops).get? source with
  | some x =>
    rw [parse_of_some hget]
    simp
  | none =>
    refine ⟨fun ⟨x, hx, hflag⟩ => ?_, fun ⟨x, hx, _⟩ => nomatch hx⟩
    cases he : Expression.parse (run limits ops).limits source with
    | error fault =>
      rw [parse_of_error hget he] at hx
      cases hx
    | ok e =>
      rw [parse_of_ok hget he] at hx
      cases hx
      obtain ⟨-, hunflagged⟩ := Expression.source_of_parse he
      rw [hunflagged] at hflag
      cases hflag

/-- A consumer flags a copy of what was parsed, and puts it in after the cache has been cleared:
whoever parses the source next gets the flag. -/
theorem parse_flagged_of_put : ∃ x, ((run {} []).parse "a").1 = .ok x ∧
    x.expression.oneTime = false ∧
    ∃ y, ((run {} [.put ((run {} [.parse "a"]).oneTime x).1, .clear none, .parse "a"]).parse "a").1 =
      .ok y ∧ y.expression.oneTime = true := by
  obtain ⟨e, he⟩ := exists_eq_ok (x := Expression.parse {} "a") (by decide +kernel)
  obtain ⟨hsource, hflag⟩ := Expression.source_of_parse he
  have hparse := parse_of_ok (c := run {} []) rfl he
  refine ⟨⟨1, 0, e⟩, by rw [hparse]; rfl, hflag, ?_⟩
  have hflagged : FlaggedFirst "a"
      (log {} [.put ((run {} [.parse "a"]).oneTime ⟨1, 0, e⟩).1, .clear none, .parse "a"]) := by
    rw [log, flaggedFirst_cons_iff]
    exact .inl ⟨_, rfl, hsource, rfl, if_pos rfl⟩
  obtain ⟨y, hy, hyflag⟩ := (held_flagged_iff _ _ _).2 hflagged
  exact ⟨y, by rw [parse_of_some hy], hyflag⟩

end TemplateBinding.Cache
