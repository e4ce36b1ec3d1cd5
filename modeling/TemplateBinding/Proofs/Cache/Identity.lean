import TemplateBinding.Proofs.Cache.Log

set_option autoImplicit false

namespace TemplateBinding.Cache

variable {limits : Limits} {ops : List Operation} {source : String} {x y : Instance} {e e' : Event}
  {earlier : List Event}

theorem exists_run_of_suffix (h : e :: earlier <:+ log limits ops) :
    ∃ op ops', e = ⟨op, ((run limits ops').perform op).1⟩ ∧ earlier = log limits ops' := by
  induction ops with
  | nil => cases List.suffix_nil.1 h
  | cons op ops ih =>
    rcases List.suffix_cons_iff.1 h with heq | h
    · cases heq
      exact ⟨op, ops, rfl, rfl⟩
    · exact ih h

theorem firstStored_of_instance? (h : e :: earlier <:+ log limits ops)
    (hx : e.instance? source = some x) : firstStored source (e :: earlier) = some x := by
  obtain ⟨op, ops, rfl, rfl⟩ := exists_run_of_suffix h
  have hrun : (run limits (op :: ops)).get? source = some x :=
    (perform_step (run limits ops) op).get?_of_instance? hx
  rwa [get?_run] at hrun

theorem covers_of_instance? (hx : e.instance? source = some x) :
    e.operation.covers source = false := by
  obtain ⟨op, answer⟩ := e
  cases op with
  | clear s => cases hx
  | _ => rfl

/-- The first stored instance stays as long as the source is not cleared. -/
theorem firstStored_append {later : List Event} (hx : firstStored source earlier = some x)
    (hl : ∀ e ∈ later, e.operation.covers source = false) :
    firstStored source (later ++ earlier) = some x := by
  induction later with
  | nil => exact hx
  | cons e later ih =>
    obtain ⟨he, hlater⟩ := List.forall_mem_cons.1 hl
    rw [List.cons_append, firstStored, ih hlater, he]
    rfl

theorem instance?_of_stored? (hx : e.stored? source = some x) : e.instance? source = some x := by
  obtain ⟨op, answer⟩ := e
  cases op with
  | get s => cases hx
  | _ => exact hx

theorem eq_of_instance? {source' : String} (hx : e.instance? source = some x)
    (hy : e.instance? source' = some y) : x = y := by
  obtain ⟨op, answer⟩ := e
  have same {s : String} {entry : Option Instance}
      (hx : (if s = source then entry else none) = some x)
      (hy : (if s = source' then entry else none) = some y) : x = y := by
    obtain ⟨-, hx⟩ := Option.ite_none_right_eq_some.1 hx
    obtain ⟨-, hy⟩ := Option.ite_none_right_eq_some.1 hy
    exact Option.some.inj (hx.symm.trans hy)
  cases op with
  | parse s =>
    match answer with
    | .parsed (.ok z) => exact same hx hy
    | .parsed (.error fault) => cases hx
    | .found _ | .contained _ | .cleared | .stored _ => cases hx
  | get s =>
    cases answer with
    | found entry => exact same hx hy
    | _ => cases hx
  | put z =>
    cases answer with
    | stored entry => exact same hx hy
    | _ => cases hx
  | contains s => cases hx
  | clear s => cases hx

theorem exists_event_of_firstStored {events : List Event}
    (hx : firstStored source events = some x) : ∃ e ∈ events, e.instance? source = some x := by
  induction events with
  | nil => cases hx
  | cons e events ih =>
    rw [firstStored] at hx
    split at hx
    · cases hx
    · rcases Option.or_eq_some_iff.1 hx with hx | ⟨-, hx⟩
      · obtain ⟨e', he', hx'⟩ := ih hx
        exact ⟨e', List.mem_cons_of_mem e he', hx'⟩
      · exact ⟨e, List.mem_cons_self, instance?_of_stored? hx⟩

variable {c c' : Cache} {op : Operation} {answer : Answer}

theorem Step.issued_le (h : Step c op answer c') : c.issued ≤ c'.issued := by
  cases h with
  | missed hget he hserial => exact Nat.le_succ_of_le hserial
  | put hget he hserial => exact Nat.le_succ_of_le hserial
  | @cleared s => cases s <;> exact Nat.le_refl _
  | _ => exact Nat.le_refl _

/-- An instance that is answered was held before, or is new. -/
theorem Step.held_or_new (h : Step c op answer c')
    (hx : Event.instance? source ⟨op, answer⟩ = some x) :
    c.get? source = some x ∨ (c.issued ≤ x.serial ∧ x.serial < c'.issued) := by
  cases h with
  | hit hget =>
    obtain ⟨rfl, ⟨⟩⟩ := Option.ite_none_right_eq_some.1 hx
    exact .inl hget
  | failed => cases hx
  | missed hget he hserial =>
    obtain ⟨rfl, ⟨⟩⟩ := Option.ite_none_right_eq_some.1 hx
    exact .inr ⟨hserial, Nat.lt_succ_self _⟩
  | got =>
    obtain ⟨rfl, h⟩ := Option.ite_none_right_eq_some.1 hx
    exact .inl h
  | asked => cases hx
  | cleared => cases hx
  | kept hget =>
    obtain ⟨rfl, ⟨⟩⟩ := Option.ite_none_right_eq_some.1 hx
    exact .inl hget
  | put hget he hserial =>
    obtain ⟨rfl, ⟨⟩⟩ := Option.ite_none_right_eq_some.1 hx
    exact .inr ⟨hserial, Nat.lt_succ_self _⟩

theorem exists_event_of_get? (h : (run limits ops).get? source = some x) :
    ∃ e ∈ log limits ops, e.instance? source = some x := by
  rw [get?_run] at h
  exact exists_event_of_firstStored h

theorem serial_lt_issued (he : e ∈ log limits ops) (hx : e.instance? source = some x) :
    x.serial < (run limits ops).issued := by
  induction ops generalizing e with
  | nil => cases he
  | cons op ops ih =>
    have hstep := perform_step (run limits ops) op
    have hle : (run limits ops).issued ≤ (run limits (op :: ops)).issued := hstep.issued_le
    rcases List.mem_cons.1 he with rfl | he
    · rcases hstep.held_or_new hx with hheld | ⟨-, hlt⟩
      · obtain ⟨e', he', hx'⟩ := exists_event_of_get? hheld
        exact Nat.lt_of_lt_of_le (ih he' hx') hle
      · exact hlt
    · exact Nat.lt_of_lt_of_le (ih he hx) hle

/-- Serials tell the instances apart that a cache ever answers. -/
theorem eq_of_isSame {source' : String} (he : e ∈ log limits ops)
    (hx : e.instance? source = some x) (he' : e' ∈ log limits ops)
    (hy : e'.instance? source' = some y) (h : x.isSame y = true) : x = y := by
  have hserial : x.serial = y.serial := beq_iff_eq.1 h
  clear h
  induction ops generalizing e e' x y source source' with
  | nil => cases he
  | cons op ops ih =>
    have hstep := perform_step (run limits ops) op
    -- the latest event against an earlier one
    have latest {source source' : String} {e' : Event} {x y : Instance}
        (hx : Event.instance? source ⟨op, ((run limits ops).perform op).1⟩ = some x)
        (he' : e' ∈ log limits ops) (hy : e'.instance? source' = some y)
        (hserial : x.serial = y.serial) : x = y := by
      rcases hstep.held_or_new hx with hheld | ⟨hle, -⟩
      · obtain ⟨e, he, hx⟩ := exists_event_of_get? hheld
        exact ih he hx he' hy hserial
      · have := serial_lt_issued he' hy
        omega
    rcases List.mem_cons.1 he with rfl | he <;> rcases List.mem_cons.1 he' with rfl | he'
    · exact eq_of_instance? hx hy
    · exact latest hx he' hy hserial
    · exact (latest hy he hx hserial.symm).symm
    · exact ih he hx he' hy hserial

/-- After any operations on a fresh cache: each entry is stored under the source of its
expression; every instance that was answered for a source is the first one stored since the source
was last cleared, so that two answers with no such clearing between them are one instance; an
operation that is about another source leaves what is held for a source as it is; and so does
parsing that fails. -/
theorem run_identity (limits : Limits) (ops : List Operation) :
    (∀ entry ∈ (run limits ops).entries, entry.2.expression.source = entry.1) ∧
    (∀ source x e earlier, e :: earlier <:+ log limits ops → e.instance? source = some x →
      firstStored source (e :: earlier) = some x) ∧
    (∀ source x y e e' between earlier, e' :: (between ++ e :: earlier) <:+ log limits ops →
      (∀ b ∈ between, b.operation.covers source = false) →
        e.instance? source = some x → e'.instance? source = some y → x = y) ∧
    (∀ op source, op.source? ≠ some source → op.source? ≠ none →
      ((run limits ops).perform op).2.get? source = (run limits ops).get? source) ∧
    ∀ source fault, ((run limits ops).parse source).1 = .error fault →
      ((run limits ops).parse source).2 = run limits ops := by
  refine ⟨(indexed_run limits ops).sources, fun source x e earlier => firstStored_of_instance?,
    fun source x y e e' between earlier h hb hx hy => ?_,
    fun op source => (perform_step (run limits ops) op).get?_of_ne, fun source fault hf => ?_⟩
  · have hsuffix : e :: earlier <:+ log limits ops :=
      ((List.suffix_append between (e :: earlier)).trans (List.suffix_cons e' _)).trans h
    have hfirst := firstStored_append (firstStored_of_instance? hsuffix hx) hb
    have hlatest := firstStored_of_instance? h hy
    rw [firstStored, covers_of_instance? hy, hfirst] at hlatest
    exact Option.some.inj hlatest
  · cases hget : (run limits ops).get? source with
    | some x =>
      rw [parse_of_some hget] at hf
      cases hf
    | none =>
      cases hp : Expression.parse (run limits ops).limits source with
      | error fault' => rw [parse_of_error hget hp]
      | ok e =>
        rw [parse_of_ok hget hp] at hf
        cases hf

end TemplateBinding.Cache
