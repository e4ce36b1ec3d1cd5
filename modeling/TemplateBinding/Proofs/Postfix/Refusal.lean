import TemplateBinding.Proofs.Postfix.Acceptance
import TemplateBinding.Proofs.Postfix.Readability

set_option autoImplicit false

namespace TemplateBinding

def FaultsOfStream {α : Type} (x : Except ParseFault α) : Prop :=
  ∀ fault, x = .error fault → ∃ f, fault = .stream f

theorem faultsOfStream_mapError {α : Type} (x : Except StreamFault α) :
    FaultsOfStream (x.mapError .stream) := by
  intro fault h
  cases x with
  | ok a => cases h
  | error f =>
    cases h
    exact ⟨f, rfl⟩

namespace Builder

theorem faultsOfStream_expectArity (token : Token) (n : Int) : FaultsOfStream (expectArity token n) := by
  unfold expectArity
  split
  · exact nofun
  · rintro _ ⟨⟩
    exact ⟨_, rfl⟩

theorem faultsOfStream_count (token : Token) : FaultsOfStream (count token) := by
  unfold count
  split
  · exact nofun
  · rintro _ ⟨⟩
    exact ⟨_, rfl⟩

theorem faultsOfStream_pop (b : Builder) (token : Token) (n : Nat) : FaultsOfStream (b.pop token n) := by
  unfold pop
  split
  · rintro _ ⟨⟩
    exact ⟨_, rfl⟩
  · exact nofun

/-- How a step depends on the limit of depth: not at all, or by the node that it pushes. -/
inductive Limited : (Nat → Except ParseFault Builder) → Prop
  | ok (b : Builder) : Limited fun _ => .ok b
  | fault (f : StreamFault) : Limited fun _ => .error (.stream f)
  | push (b : Builder) (t : Tree) (depth : Nat) (reads : Reads) :
      Limited fun maxDepth => b.pushNode maxDepth t depth reads

namespace Limited

variable {α : Type} {step : Nat → Except ParseFault Builder} {maxDepth : Nat}

theorem bind {x : Except ParseFault α} {f : Nat → α → Except ParseFault Builder}
    (hx : FaultsOfStream x) (hf : ∀ a, Limited fun maxDepth => f maxDepth a) :
    Limited fun maxDepth => x >>= f maxDepth := by
  cases x with
  | ok a => exact hf a
  | error fault =>
    obtain ⟨f, rfl⟩ := hx fault rfl
    exact .fault f

theorem eq_of_error (h : Limited step) {fault : ParseFault} (he : step maxDepth = .error fault) :
    (∃ f, fault = .stream f) ∨ fault = tooDeep maxDepth := by
  cases h with
  | ok => cases he
  | fault f =>
    cases he
    exact .inl ⟨f, rfl⟩
  | push b t depth reads =>
    dsimp only [pushNode] at he
    split at he
    · cases he
      exact .inr rfl
    · cases he

theorem exists_ok (h : Limited step) (he : step maxDepth = .error (tooDeep maxDepth)) :
    ∃ limit b, step limit = .ok b := by
  cases h with
  | ok => cases he
  | fault => cases he
  | push b t depth reads => exact ⟨depth + 1, _, if_neg (Nat.lt_irrefl _)⟩

end Limited

theorem limited_member (b : Builder) (object key : Fragment) :
    Limited fun maxDepth => b.member maxDepth object key := by
  unfold member
  split
  · exact .ok _
  · exact .bind (faultsOfStream_mapError _) fun _ => .bind (faultsOfStream_mapError _) fun _ =>
      .push _ _ _ _

theorem limited_pushLeaf (b : Builder) (token : Token) (v : Value) :
    Limited fun _ => b.pushLeaf token v :=
  .bind (faultsOfStream_expectArity token 0) fun _ => .ok _

section
variable {token : Token} (b : Builder) (k : Nat)

theorem limited_property {name : String} (ht : token.lexical = .property name) :
    Limited fun maxDepth => b.step maxDepth k token := by
  simp only [step, ht]
  refine .bind (faultsOfStream_expectArity token 0) fun _ =>
    .bind (faultsOfStream_pop b token 1) fun r => ?_
  obtain ⟨fs, c⟩ := r
  rcases fs with _ | ⟨object, _ | ⟨f, fs⟩⟩
  · exact .fault _
  · exact limited_member c object _
  · exact .fault _

theorem limited_index (ht : token.lexical = .index) :
    Limited fun maxDepth => b.step maxDepth k token := by
  simp only [step, ht]
  refine .bind (faultsOfStream_expectArity token 0) fun _ =>
    .bind (faultsOfStream_pop b token 2) fun r => ?_
  obtain ⟨fs, c⟩ := r
  rcases fs with _ | ⟨object, _ | ⟨key, _ | ⟨f, fs⟩⟩⟩
  · exact .fault _
  · exact .fault _
  · exact limited_member c object key
  · exact .fault _

theorem limited_call (ht : token.lexical = .call) :
    Limited fun maxDepth => b.step maxDepth k token := by
  simp only [step, ht]
  refine .bind (faultsOfStream_count token) fun n =>
    .bind (faultsOfStream_pop b token (n + 1)) fun r => ?_
  obtain ⟨fs, c⟩ := r
  cases fs with
  | nil => exact .fault _
  | cons callee args =>
    exact .bind (faultsOfStream_mapError _) fun _ => .bind (faultsOfStream_mapError _) fun _ =>
      .push _ _ _ _

theorem limited_array (ht : token.lexical = .array) :
    Limited fun maxDepth => b.step maxDepth k token := by
  simp only [step, ht]
  -- an array without elements and one with some differ only in how many are taken
  have hpush (n : Nat) : Limited fun maxDepth => b.pop token n >>= fun r =>
      (Fragment.settleAll r.2.reads r.1).mapError .stream >>= fun t =>
        r.2.pushNode maxDepth (.array t.1) t.2.1 t.2.2 :=
    .bind (faultsOfStream_pop b token n) fun _ => .bind (faultsOfStream_mapError _) fun _ =>
      .push _ _ _ _
  split
  · exact hpush 0
  · split
    · exact hpush _
    · exact .fault _

theorem limited_operator {op : Operator} (ht : token.lexical = .operator op) :
    Limited fun maxDepth => b.step maxDepth k token := by
  simp only [step, ht]
  refine .bind (faultsOfStream_expectArity token op.operands) fun _ =>
    .bind (faultsOfStream_pop b token op.operands) fun _ =>
      .bind (faultsOfStream_mapError _) fun r => ?_
  obtain ⟨operands, depth, reads⟩ := r
  rcases operands with _ | ⟨t, _ | ⟨u, _ | ⟨v, _ | ⟨w, operands⟩⟩⟩⟩
  · exact .fault _
  · exact .push _ _ _ _
  · exact .push _ _ _ _
  · exact .push _ _ _ _
  · exact .fault _

theorem limited_step (token : Token) : Limited fun maxDepth => b.step maxDepth k token := by
  cases ht : token.lexical with
  | identifier text =>
    simp only [step, ht]
    split
    · exact .fault _
    · exact .bind (faultsOfStream_mapError _) fun _ => .ok _
  | key name =>
    simp only [step, ht]
    exact .bind (faultsOfStream_expectArity token 0) fun _ => .ok _
  | property name => exact limited_property b k ht
  | index => exact limited_index b k ht
  | call => exact limited_call b k ht
  | array => exact limited_array b k ht
  | object =>
    simp only [step, ht]
    exact .bind (faultsOfStream_count token) fun n =>
      .bind (faultsOfStream_pop b token (2 * n)) fun _ =>
        .bind (faultsOfStream_mapError _) fun _ => .push _ _ _ _
  | operator op => exact limited_operator b k ht
  | _ =>
    simp only [step, ht]
    exact limited_pushLeaf b token _

end

theorem eq_of_run_error {maxDepth k : Nat} {b : Builder} {tokens : List Token} {fault : ParseFault}
    (h : b.run maxDepth k tokens = .error fault) :
    (∃ f, fault = .stream f) ∨ fault = tooDeep maxDepth := by
  induction tokens generalizing b k with
  | nil => cases h
  | cons token tokens ih =>
    obtain hs | ⟨c, -, h⟩ := bind_eq_error_iff.1 h
    · exact (limited_step b k token).eq_of_error hs
    · exact ih h

theorem run_concat {maxDepth k : Nat} {b c : Builder} {taken : List Token}
    (h : b.run maxDepth k taken = .ok c) (token : Token) :
    b.run maxDepth k (taken ++ [token]) = c.step maxDepth (k + taken.length) token := by
  rw [run_append, h]
  exact run_singleton maxDepth c _ token

theorem exists_deep_of_step {maxDepth : Nat} {b : Builder} {token : Token} {taken : List Token}
    (hrun : run maxDepth {} 0 taken = .ok b) (hl : Laid b.stack taken.reverse)
    (h : b.step maxDepth taken.length token = .error (tooDeep maxDepth)) :
    ∃ c : Construct, c.listing <:+ taken ++ [token] ∧ maxDepth < c.tree.height := by
  obtain ⟨limit, b', hok⟩ := (limited_step b taken.length token).exists_ok h
  have hlaid := laid_step hl hok
  generalize ht : token :: taken.reverse = reversed at hlaid
  generalize b'.stack = stack at hlaid
  cases hlaid with
  | nil => cases ht
  | key =>
    cases ht
    cases h
  | @construct _ _ rest c _ hrest =>
    have he : taken ++ [token] = rest.reverse ++ c.listing := by
      simpa using congrArg List.reverse ht
    refine ⟨c, ⟨rest.reverse, he.symm⟩, ?_⟩
    have hlast : taken ++ [token] = rest.reverse ++ Construct.partListing c.parts ++ [c.token] :=
      he.trans (by rw [c.listing_eq, List.append_assoc])
    obtain ⟨htaken, -⟩ := List.append_inj' hlast rfl
    -- the tokens before the listing of `c` have been taken up, so that `c` is what fails
    have hbefore := hrun
    rw [htaken, run_append] at hbefore
    obtain ⟨d, hd, -⟩ := bind_eq_ok_iff.1 hbefore
    have hfail := run_concat hrun token
    rw [Nat.zero_add, h, he, run_append, hd] at hfail
    have htakes := (takes maxDepth c d _).symm.trans hfail
    split at htakes
    · cases htakes
    · next hfits => exact Nat.lt_of_not_le fun hle => hfits (Tree.fits_of_height_le hle)

theorem exists_deep_of_run {maxDepth : Nat} {b : Builder} {taken tokens : List Token}
    (hrun : run maxDepth {} 0 taken = .ok b) (hl : Laid b.stack taken.reverse)
    (h : b.run maxDepth taken.length tokens = .error (tooDeep maxDepth)) :
    ∃ c : Construct, c.listing <:+: taken ++ tokens ∧ maxDepth < c.tree.height := by
  induction tokens generalizing b taken with
  | nil => cases h
  | cons token tokens ih =>
    obtain hs | ⟨c, hs, h⟩ := bind_eq_error_iff.1 h
    · obtain ⟨c, hc, hd⟩ := exists_deep_of_step hrun hl hs
      exact ⟨c, List.IsInfix.trans hc.isInfix ⟨[], tokens, by simp⟩, hd⟩
    · have hrun' := run_concat hrun token
      rw [Nat.zero_add, hs] at hrun'
      have hl' : Laid c.stack (taken ++ [token]).reverse := by
        rw [List.reverse_concat]
        exact laid_step hl hs
      have := ih hrun' hl' (by rw [List.length_append]; exact h)
      rwa [List.append_assoc] at this

end Builder

namespace Expression

variable {limits : Limits} {source : String} {tokens : List Token} {fault : ParseFault}

/-- A compilation stops at a token, or finds its stack wrong when no token is left. -/
theorem run_or_finish_of_compile_error (h : compile limits source tokens = .error fault) :
    Builder.run limits.maxDepth {} 0 tokens = .error fault ∨ ∃ f, fault = .stream f := by
  obtain hb | ⟨_, -, hr⟩ := bind_eq_error_iff.1 h
  · obtain hrun | ⟨b, -, hf⟩ := bind_eq_error_iff.1 hb
    · exact .inl hrun
    · exact .inr (faultsOfStream_mapError b.finish fault hf)
  · cases hr

theorem eq_of_compile_error (h : compile limits source tokens = .error fault) :
    (∃ f, fault = .stream f) ∨ fault = Builder.tooDeep limits.maxDepth := by
  obtain hrun | hf := run_or_finish_of_compile_error h
  · exact Builder.eq_of_run_error hrun
  · exact .inl hf

/-- Where the limit of depth stops a compilation, the tokens hold the listing of a construct that
is deeper. -/
theorem exists_deep_of_compile
    (h : compile limits source tokens = .error (Builder.tooDeep limits.maxDepth)) :
    ∃ c : Construct, c.listing <:+: tokens ∧ limits.maxDepth < c.tree.height := by
  obtain hrun | ⟨_, hf⟩ := run_or_finish_of_compile_error h
  · exact @Builder.exists_deep_of_run limits.maxDepth {} [] tokens rfl .nil hrun
  · cases hf

theorem compile_listing_of_fits {c : Construct} (source : String)
    (h : c.tree.fits limits.maxDepth = true) :
    ∃ e, compile limits source c.listing = .ok e ∧ e.root = c.tree := by
  unfold compile
  rw [build_listing, if_pos h]
  exact ⟨_, rfl, rfl⟩

theorem compile_listing_of_not_fits {c : Construct} (source : String)
    (h : ¬c.tree.fits limits.maxDepth = true) :
    compile limits source c.listing = .error (Builder.tooDeep limits.maxDepth) := by
  unfold compile
  rw [build_listing, if_neg h]
  rfl

/-- A construct is compiled to its tree, unless it is too deep. -/
theorem compile_listing (limits : Limits) (source : String) (c : Construct) :
    compile limits source c.listing = .error (Builder.tooDeep limits.maxDepth) ∨
      ∃ e, compile limits source c.listing = .ok e ∧ e.root = c.tree := by
  by_cases hfits : c.tree.fits limits.maxDepth = true
  · exact .inr (compile_listing_of_fits source hfits)
  · exact .inl (compile_listing_of_not_fits source hfits)

end Expression

/-- A stream is compiled just when it is the listing of a construct, unless it holds the listing
of a construct that is too deep. The construct is the only one with that listing, and any other
stream has a fault of its own. -/
theorem compile_iff_listing (limits : Limits) (source : String) (tokens : List Token) :
    (∀ text, (∃ root segments, splitIdentifier text = .ok (root, segments)) ↔
      [] ∉ identifierNames text) ∧
    (Expression.compile limits source tokens = .error (Builder.tooDeep limits.maxDepth) →
      ∃ c : Construct, c.listing <:+: tokens ∧ limits.maxDepth < c.tree.height) ∧
    (Expression.compile limits source tokens ≠ .error (Builder.tooDeep limits.maxDepth) →
      ((∃ e, Expression.compile limits source tokens = .ok e) ↔
        ∃ c : Construct, tokens = c.listing) ∧
      (∀ c : Construct, tokens = c.listing → (∀ d : Construct, tokens = d.listing → d = c) ∧
        ∃ e, Expression.compile limits source tokens = .ok e ∧ e.root = c.tree) ∧
      ((∀ c : Construct, tokens ≠ c.listing) →
        ∃ fault, Expression.compile limits source tokens = .error (.stream fault))) := by
  refine ⟨exists_splitIdentifier_iff, Expression.exists_deep_of_compile, fun hdepth => ?_⟩
  have haccept (c : Construct) (hc : tokens = c.listing) :
      ∃ e, Expression.compile limits source tokens = .ok e ∧ e.root = c.tree := by
    subst hc
    exact (Expression.compile_listing limits source c).resolve_left hdepth
  refine ⟨⟨fun ⟨e, he⟩ => ?_, fun ⟨c, hc⟩ => ?_⟩, fun c hc => ⟨fun d hd => ?_, haccept c hc⟩,
    fun hno => ?_⟩
  · obtain ⟨c, hc, -⟩ := Expression.exists_construct_of_compile he
    exact ⟨c, hc⟩
  · obtain ⟨e, he, -⟩ := haccept c hc
    exact ⟨e, he⟩
  · exact Construct.eq_of_listing_eq (hd.symm.trans hc)
  · cases he : Expression.compile limits source tokens with
    | ok e =>
      obtain ⟨c, hc, -⟩ := Expression.exists_construct_of_compile he
      exact absurd hc (hno c)
    | error fault =>
      obtain ⟨f, rfl⟩ | rfl := Expression.eq_of_compile_error he
      · exact ⟨f, rfl⟩
      · exact absurd he hdepth

end TemplateBinding
