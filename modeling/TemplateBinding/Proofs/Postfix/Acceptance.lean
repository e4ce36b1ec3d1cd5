import TemplateBinding.Expression
import TemplateBinding.Proofs.Postfix.Arrangement
import TemplateBinding.Proofs.Postfix.Fold

set_option autoImplicit false

namespace TemplateBinding

def Fragment.isKey : Fragment → Bool
  | .key _ => true
  | _ => false

/-- The tokens, the last one first, are the listings of what the fragments stand for, the latest
first. -/
inductive Laid : List Fragment → List Token → Prop
  | nil : Laid [] []
  | key {name : String} {stack : List Fragment} {taken : List Token} :
      Laid stack taken → Laid (.key name :: stack) (⟨.key name, 0⟩ :: taken)
  | construct {f : Fragment} {stack : List Fragment} {taken : List Token} (c : Construct) :
      f.isKey = false → Laid stack taken → Laid (f :: stack) (c.listing.reverse ++ taken)

theorem eq_pair_of_length {α : Type} {l : List α} (h : l.length = 2) : ∃ a b, l = [a, b] := by
  match l, h with
  | [a, b], _ => exact ⟨a, b, rfl⟩

theorem eq_triple_of_length {α : Type} {l : List α} (h : l.length = 3) :
    ∃ a b c, l = [a, b, c] := by
  match l, h with
  | [a, b, c], _ => exact ⟨a, b, c, rfl⟩

namespace Fragment

theorem isKey_of_settle {f : Fragment} {reads : Reads} {r : Tree × Nat × Reads}
    (h : f.settle reads = .ok r) : f.isKey = false := by
  cases f with
  | key => cases h
  | _ => rfl

theorem isKey_of_settleAll {fs : List Fragment} {reads : Reads} {r : List Tree × Nat × Reads}
    (h : settleAll reads fs = .ok r) : ∀ f ∈ fs, f.isKey = false := by
  induction fs generalizing reads r with
  | nil => exact nofun
  | cons f fs ih =>
    obtain ⟨_, hf, h⟩ := bind_eq_ok_iff.1 h
    obtain ⟨_, hfs, -⟩ := bind_eq_ok_iff.1 h
    exact List.forall_mem_cons.2 ⟨isKey_of_settle hf, ih hfs⟩

end Fragment

namespace Laid

variable {stack : List Fragment} {taken : List Token}

theorem exists_items {fs : List Fragment} (hk : ∀ f ∈ fs, f.isKey = false)
    (h : Laid (fs.reverse ++ stack) taken) :
    ∃ items rest, items.length = fs.length ∧ Laid stack rest ∧
      taken = (Construct.itemListing items).reverse ++ rest := by
  induction fs generalizing stack with
  | nil => exact ⟨[], taken, rfl, h, rfl⟩
  | cons f fs ih =>
    obtain ⟨hf, hfs⟩ := List.forall_mem_cons.1 hk
    rw [List.reverse_cons, List.append_assoc] at h
    obtain ⟨items, rest, hl, hr, rfl⟩ := ih hfs h
    cases hr with
    | key => cases hf
    | @construct _ _ rest c _ hr =>
      refine ⟨c :: items, rest, by simp [hl], hr, ?_⟩
      simp [Construct.itemListing]

theorem exists_entries {fs : List Fragment} {reads : Reads} {n : Nat}
    {r : List (String × Tree) × Nat × Reads} (hs : Fragment.settleEntries reads n fs = .ok r)
    (h : Laid (fs.reverse ++ stack) taken) :
    ∃ entries rest, 2 * entries.length = fs.length ∧ Laid stack rest ∧
      taken = (Construct.entryListing entries).reverse ++ rest := by
  fun_induction Fragment.settleEntries reads n fs generalizing stack r with
  | case1 => exact ⟨[], taken, rfl, h, rfl⟩
  | case2 reads n name value fs ih =>
    obtain ⟨⟨tree, depth, reads'⟩, hv, hs⟩ := bind_eq_ok_iff.1 hs
    obtain ⟨_, hs, -⟩ := bind_eq_ok_iff.1 hs
    rw [List.reverse_cons, List.reverse_cons, List.append_assoc, List.append_assoc] at h
    obtain ⟨entries, rest, hl, hr, rfl⟩ := ih reads' hs h
    cases hr with
    | key => cases hv
    | @construct _ _ rest c _ hr =>
      cases hr with
      | construct _ hk => cases hk
      | @key _ _ rest hr =>
        refine ⟨(name, c) :: entries, rest, by simp; omega, hr, ?_⟩
        simp [Construct.entryListing]
  | case3 => cases hs

end Laid

namespace Builder

variable {b b' : Builder} {token : Token} {taken : List Token}

theorem pop_eq_ok {n : Nat} {fs : List Fragment} (h : b.pop token n = .ok (fs, b')) :
    fs.length = n ∧ b.stack = fs.reverse ++ b'.stack ∧ b'.reads = b.reads := by
  unfold pop at h
  split at h
  · cases h
  · cases h
    refine ⟨?_, ?_, rfl⟩
    · simp
      omega
    · simp

theorem stack_of_pushNode {maxDepth depth : Nat} {t : Tree} {reads : Reads}
    (h : b.pushNode maxDepth t depth reads = .ok b') :
    ∃ f, f.isKey = false ∧ b'.stack = f :: b.stack := by
  unfold pushNode at h
  split at h
  · cases h
  · cases h
    exact ⟨_, rfl, rfl⟩

theorem stack_of_member {maxDepth : Nat} {holder key : Fragment}
    (h : b.member maxDepth holder key = .ok b') :
    holder.isKey = false ∧ key.isKey = false ∧ ∃ f, f.isKey = false ∧ b'.stack = f :: b.stack := by
  unfold member at h
  split at h
  · next hk =>
    cases h
    refine ⟨rfl, ?_, _, rfl, rfl⟩
    cases key with
    | key => cases hk
    | _ => rfl
  · obtain ⟨_, hh, h⟩ := bind_eq_ok_iff.1 h
    obtain ⟨_, hk, h⟩ := bind_eq_ok_iff.1 h
    exact ⟨Fragment.isKey_of_settle (Lexeme.mapError_eq_ok_iff.1 hh),
      Fragment.isKey_of_settle (Lexeme.mapError_eq_ok_iff.1 hk), stack_of_pushNode h⟩

theorem eq_of_expectArity {n : Int} {u : Unit} (h : expectArity token n = .ok u) :
    token.arity = n := by
  unfold expectArity at h
  split at h
  · assumption
  · cases h

theorem eq_of_count {n : Nat} (h : count token = .ok n) : token.arity = n := by
  unfold count at h
  split at h
  · cases h
    omega
  · cases h

theorem laid_pushLeaf {v : Value} (hl : Laid b.stack taken) (hv : token.lexical.value? = some v)
    (h : b.pushLeaf token v = .ok b') : Laid b'.stack (token :: taken) := by
  obtain ⟨_, ha, h⟩ := bind_eq_ok_iff.1 h
  have ha := eq_of_expectArity ha
  cases h
  obtain ⟨l, arity⟩ := token
  cases ha
  exact .construct (.literal l v hv) rfl hl

theorem laid_identifier {maxDepth k : Nat} {text : String} (hl : Laid b.stack taken)
    (ht : token.lexical = .identifier text) (h : b.step maxDepth k token = .ok b') :
    Laid b'.stack (token :: taken) := by
  obtain ⟨l, arity⟩ := token
  cases ht
  simp only [step] at h
  split at h
  · cases h
  · next ha =>
    obtain ⟨⟨root, segments⟩, hs, h⟩ := bind_eq_ok_iff.1 h
    have hs := Lexeme.mapError_eq_ok_iff.1 hs
    cases h
    by_cases hc : arity = calleeArity
    · subst hc
      exact .construct (.identifier text root segments hs true) rfl hl
    · have hr : arity = referenceArity := by
        by_cases hr : arity = referenceArity
        · exact hr
        · exact absurd ⟨hr, hc⟩ ha
      subst hr
      exact .construct (.identifier text root segments hs false) rfl hl

theorem laid_property {maxDepth k : Nat} {name : String} (hl : Laid b.stack taken)
    (ht : token.lexical = .property name) (h : b.step maxDepth k token = .ok b') :
    Laid b'.stack (token :: taken) := by
  obtain ⟨l, arity⟩ := token
  cases ht
  obtain ⟨_, ha, h⟩ := bind_eq_ok_iff.1 h
  cases eq_of_expectArity ha
  obtain ⟨⟨fs, c⟩, hp, h⟩ := bind_eq_ok_iff.1 h
  obtain ⟨-, hs, -⟩ := pop_eq_ok hp
  dsimp only at h
  split at h
  · next holder d he =>
    cases he
    obtain ⟨hh, -, f, hf, hstack⟩ := stack_of_member h
    rw [hs] at hl
    obtain ⟨items, rest, hlen, hr, rfl⟩ := Laid.exists_items (List.forall_mem_singleton.2 hh) hl
    obtain ⟨c, rfl⟩ := List.length_eq_one_iff.1 hlen
    have := Laid.construct (.property c name) hf hr
    rw [hstack]
    simpa [Construct.itemListing, Construct.listing] using this
  · cases h

theorem laid_index {maxDepth k : Nat} (hl : Laid b.stack taken)
    (ht : token.lexical = .index) (h : b.step maxDepth k token = .ok b') :
    Laid b'.stack (token :: taken) := by
  obtain ⟨l, arity⟩ := token
  cases ht
  obtain ⟨_, ha, h⟩ := bind_eq_ok_iff.1 h
  cases eq_of_expectArity ha
  obtain ⟨⟨fs, c⟩, hp, h⟩ := bind_eq_ok_iff.1 h
  obtain ⟨-, hs, -⟩ := pop_eq_ok hp
  dsimp only at h
  split at h
  · next holder key d he =>
    cases he
    obtain ⟨hh, hk, f, hf, hstack⟩ := stack_of_member h
    rw [hs] at hl
    obtain ⟨items, rest, hlen, hr, rfl⟩ := Laid.exists_items
      (List.forall_mem_cons.2 ⟨hh, List.forall_mem_singleton.2 hk⟩) hl
    obtain ⟨c, d, rfl⟩ := eq_pair_of_length hlen
    have := Laid.construct (.index c d) hf hr
    rw [hstack]
    simpa [Construct.itemListing, Construct.listing] using this
  · cases h

theorem laid_call {maxDepth k : Nat} (hl : Laid b.stack taken)
    (ht : token.lexical = .call) (h : b.step maxDepth k token = .ok b') :
    Laid b'.stack (token :: taken) := by
  obtain ⟨l, arity⟩ := token
  cases ht
  obtain ⟨n, hn, h⟩ := bind_eq_ok_iff.1 h
  obtain ⟨⟨fs, c⟩, hp, h⟩ := bind_eq_ok_iff.1 h
  obtain ⟨hlen, hs, -⟩ := pop_eq_ok hp
  dsimp only at h
  split at h
  · next callee args d he =>
    cases he
    obtain ⟨⟨tree, depth, reads⟩, hc, h⟩ := bind_eq_ok_iff.1 h
    obtain ⟨⟨trees, depths, reads'⟩, ha, h⟩ := bind_eq_ok_iff.1 h
    have hc := Fragment.isKey_of_settle (Lexeme.mapError_eq_ok_iff.1 hc)
    have hcallee : callee.isKey = false := by
      cases callee with
      | key => cases hc
      | _ => rfl
    have hargs := Fragment.isKey_of_settleAll (Lexeme.mapError_eq_ok_iff.1 ha)
    obtain ⟨f, hf, hstack⟩ := stack_of_pushNode h
    rw [hs] at hl
    obtain ⟨items, rest, hitems, hr, rfl⟩ :=
      Laid.exists_items (List.forall_mem_cons.2 ⟨hcallee, hargs⟩) hl
    cases items with
    | nil => simp at hitems
    | cons c cs =>
      have hcs : cs.length = n := by simp at hitems hlen; omega
      have ha : arity = cs.length := hcs ▸ eq_of_count hn
      have := Laid.construct (.call c cs) hf hr
      rw [hstack, ha]
      simpa [Construct.itemListing, Construct.listing] using this
  · cases h

theorem laid_array {maxDepth k : Nat} (hl : Laid b.stack taken)
    (ht : token.lexical = .array) (h : b.step maxDepth k token = .ok b') :
    Laid b'.stack (token :: taken) := by
  obtain ⟨l, arity⟩ := token
  cases ht
  simp only [step] at h
  obtain ⟨n, ha, h⟩ : ∃ n : Nat, arity = (if n = 0 then referenceArity else (n : Int)) ∧
      (b.pop ⟨.array, arity⟩ n >>= fun r =>
        (Fragment.settleAll r.2.reads r.1).mapError .stream >>= fun t =>
          r.2.pushNode maxDepth (.array t.1) t.2.1 t.2.2) = .ok b' := by
    split at h
    · exact ⟨0, by simpa, h⟩
    · split at h
      · refine ⟨arity.toNat, ?_, h⟩
        rw [if_neg (by omega)]
        omega
      · cases h
  obtain ⟨⟨fs, c⟩, hp, h⟩ := bind_eq_ok_iff.1 h
  obtain ⟨hlen, hs, -⟩ := pop_eq_ok hp
  obtain ⟨⟨trees, depth, reads⟩, hsettle, h⟩ := bind_eq_ok_iff.1 h
  have hfs := Fragment.isKey_of_settleAll (Lexeme.mapError_eq_ok_iff.1 hsettle)
  obtain ⟨f, hf, hstack⟩ := stack_of_pushNode h
  rw [hs] at hl
  obtain ⟨items, rest, hitems, hr, rfl⟩ := Laid.exists_items hfs hl
  have := Laid.construct (.array items) hf hr
  rw [hstack, ha, ← hlen, ← hitems]
  simpa [Construct.listing] using this

theorem laid_object {maxDepth k : Nat} (hl : Laid b.stack taken)
    (ht : token.lexical = .object) (h : b.step maxDepth k token = .ok b') :
    Laid b'.stack (token :: taken) := by
  obtain ⟨l, arity⟩ := token
  cases ht
  obtain ⟨n, hn, h⟩ := bind_eq_ok_iff.1 h
  obtain ⟨⟨fs, c⟩, hp, h⟩ := bind_eq_ok_iff.1 h
  obtain ⟨hlen, hs, -⟩ := pop_eq_ok hp
  obtain ⟨⟨entries, depth, reads⟩, he, h⟩ := bind_eq_ok_iff.1 h
  obtain ⟨f, hf, hstack⟩ := stack_of_pushNode h
  rw [hs] at hl
  obtain ⟨entries, rest, hentries, hr, rfl⟩ :=
    Laid.exists_entries (Lexeme.mapError_eq_ok_iff.1 he) hl
  have harity : arity = entries.length := by
    have := eq_of_count hn
    dsimp only at this
    omega
  have := Laid.construct (.object entries) hf hr
  rw [hstack, harity]
  simpa [Construct.listing] using this

theorem laid_operator {maxDepth k : Nat} {op : Operator} (hl : Laid b.stack taken)
    (ht : token.lexical = .operator op) (h : b.step maxDepth k token = .ok b') :
    Laid b'.stack (token :: taken) := by
  obtain ⟨l, arity⟩ := token
  cases ht
  obtain ⟨_, ha, h⟩ := bind_eq_ok_iff.1 h
  cases eq_of_expectArity ha
  obtain ⟨⟨fs, c⟩, hp, h⟩ := bind_eq_ok_iff.1 h
  obtain ⟨hlen, hs, -⟩ := pop_eq_ok hp
  obtain ⟨⟨trees, depth, reads⟩, hsettle, h⟩ := bind_eq_ok_iff.1 h
  have hfs := Fragment.isKey_of_settleAll (Lexeme.mapError_eq_ok_iff.1 hsettle)
  obtain ⟨f, hf, hstack⟩ : ∃ f : Fragment, f.isKey = false ∧ b'.stack = f :: c.stack := by
    dsimp only at h
    split at h
    · exact stack_of_pushNode h
    · exact stack_of_pushNode h
    · exact stack_of_pushNode h
    · cases h
  rw [hs] at hl
  obtain ⟨items, rest, hitems, hr, rfl⟩ := Laid.exists_items hfs hl
  rw [hlen] at hitems
  rw [hstack]
  change Laid _ (.operator op :: _)
  obtain ho | ho | rfl : op.operands = 1 ∨ op.operands = 2 ∨ op = .conditional := by
    cases op <;> decide
  · obtain ⟨c, rfl⟩ := List.length_eq_one_iff.1 (hitems.trans ho)
    have := Laid.construct (.unary op ho c) hf hr
    simpa [Construct.itemListing, Construct.listing] using this
  · obtain ⟨c, d, rfl⟩ := eq_pair_of_length (hitems.trans ho)
    have := Laid.construct (.binary op ho c d) hf hr
    simpa [Construct.itemListing, Construct.listing] using this
  · obtain ⟨c, d, e, rfl⟩ := eq_triple_of_length hitems
    have := Laid.construct (.conditional c d e) hf hr
    simpa [Construct.itemListing, Construct.listing] using this

/-- A token that is taken up completes what lies on the stack before it. -/
theorem laid_step {maxDepth k : Nat} (hl : Laid b.stack taken)
    (h : b.step maxDepth k token = .ok b') : Laid b'.stack (token :: taken) := by
  cases ht : token.lexical with
  | identifier text => exact laid_identifier hl ht h
  | property name => exact laid_property hl ht h
  | key name =>
    simp only [step, ht] at h
    obtain ⟨_, ha, h⟩ := bind_eq_ok_iff.1 h
    have ha := eq_of_expectArity ha
    cases h
    obtain ⟨l, arity⟩ := token
    cases ht
    cases ha
    exact .key hl
  | operator op => exact laid_operator hl ht h
  | index => exact laid_index hl ht h
  | call => exact laid_call hl ht h
  | array => exact laid_array hl ht h
  | object => exact laid_object hl ht h
  | _ =>
    simp only [step, ht] at h
    exact laid_pushLeaf hl (by rw [ht]; rfl) h

theorem laid_run {maxDepth k : Nat} {tokens : List Token} (hl : Laid b.stack taken)
    (h : b.run maxDepth k tokens = .ok b') : Laid b'.stack (tokens.reverse ++ taken) := by
  induction tokens generalizing b k taken with
  | nil =>
    cases h
    exact hl
  | cons token tokens ih =>
    obtain ⟨c, hc, h⟩ := bind_eq_ok_iff.1 h
    have := ih (laid_step hl hc) h
    simpa using this

end Builder

/-- A stream from which a tree is built is the listing of a construct. -/
theorem exists_construct_of_build {limits : Limits} {tokens : List Token} {r : Tree × Reads}
    (h : build limits tokens = .ok r) : ∃ c : Construct, tokens = c.listing := by
  obtain ⟨b, hb, h⟩ := bind_eq_ok_iff.1 h
  have hl := Builder.laid_run .nil hb
  have hf := Lexeme.mapError_eq_ok_iff.1 h
  unfold Builder.finish at hf
  split at hf
  · cases hf
  · next f hs =>
    obtain ⟨_, hsettle, -⟩ := bind_eq_ok_iff.1 hf
    have hk := Fragment.isKey_of_settle hsettle
    rw [hs, List.append_nil] at hl
    generalize ht : tokens.reverse = taken at hl
    cases hl with
    | key => cases hk
    | construct c _ hr =>
      cases hr
      refine ⟨c, ?_⟩
      rw [List.append_nil, List.reverse_inj] at ht
      exact ht
  · cases hf

theorem Expression.exists_construct_of_compile {limits : Limits} {source : String}
    {tokens : List Token} {e : Expression} (h : compile limits source tokens = .ok e) :
    ∃ c : Construct, tokens = c.listing ∧ c.tree.fits limits.maxDepth = true ∧ e.root = c.tree := by
  obtain ⟨⟨root, reads⟩, hb, he⟩ := bind_eq_ok_iff.1 h
  cases he
  obtain ⟨c, rfl⟩ := exists_construct_of_build hb
  rw [build_listing] at hb
  split at hb
  · next hf =>
    cases hb
    exact ⟨c, rfl, hf, rfl⟩
  · cases hb

end TemplateBinding
