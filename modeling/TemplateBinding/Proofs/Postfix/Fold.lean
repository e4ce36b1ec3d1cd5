import TemplateBinding.Proofs.Postfix.Construct

set_option autoImplicit false

namespace TemplateBinding

/-- A path of a tree; `callee` tells whether it is what a call calls. -/
structure PathUse where
  root : Root
  segments : List String
  callee : Bool

structure Sighting extends PathUse where
  ordinal : Nat

def Reads.recordAll (reads : Reads) (sightings : List Sighting) : Reads :=
  sightings.foldl (fun reads s => reads.record s.root s.segments s.ordinal s.callee) reads

@[simp] theorem Reads.recordAll_nil (reads : Reads) : reads.recordAll [] = reads := rfl

@[simp] theorem Reads.recordAll_append (reads : Reads) (s t : List Sighting) :
    reads.recordAll (s ++ t) = (reads.recordAll s).recordAll t := List.foldl_append

namespace Construct

/-- What a construct leaves on the stack, when its first token is at position `k`. -/
def fragment (k : Nat) (c : Construct) : Fragment :=
  match c.tree with
  | .path root segments => .path root segments k c.isCalled
  | t => .node t t.height

theorem fragment_of_path {c : Construct} {root : Root} {segments : List String}
    (h : c.tree = .path root segments) (k : Nat) :
    c.fragment k = .path root segments k c.isCalled := by
  rw [fragment, h]

theorem literalName?_fragment (k : Nat) (c : Construct) :
    (c.fragment k).literalName? = c.tree.literalName? := by
  unfold fragment
  cases c.tree with
  | literal v => cases v <;> rfl
  | _ => rfl

/-- The path that a construct leaves open, as it is going to be recorded. -/
def pending (k : Nat) (called : Bool) (c : Construct) : List Sighting :=
  match c.tree with
  | .path root segments => [⟨⟨root, segments, called⟩, k⟩]
  | _ => []

theorem settle_fragment (reads : Reads) (k : Nat) (c : Construct) :
    (c.fragment k).settle reads =
      .ok (c.tree, c.tree.height, reads.recordAll (c.pending k c.isCalled)) := by
  unfold fragment pending
  cases c.tree <;> rfl

theorem settle_asCallee_fragment (reads : Reads) (k : Nat) (c : Construct) :
    (c.fragment k).asCallee.settle reads =
      .ok (c.tree, c.tree.height, reads.recordAll (c.pending k true)) := by
  unfold fragment pending
  cases c.tree <;> rfl

def itemFragments (k : Nat) : List Construct → List Fragment
  | [] => []
  | c :: cs => c.fragment k :: itemFragments (k + c.size) cs

def itemPending (k : Nat) : List Construct → List Sighting
  | [] => []
  | c :: cs => c.pending k c.isCalled ++ itemPending (k + c.size) cs

theorem settleAll_itemFragments (reads : Reads) (k : Nat) (cs : List Construct) :
    Fragment.settleAll reads (itemFragments k cs) =
      .ok (itemTrees cs, Tree.itemHeight (itemTrees cs), reads.recordAll (itemPending k cs)) := by
  induction cs generalizing reads k with
  | nil => rfl
  | cons c cs ih =>
    simp only [itemFragments, itemTrees, itemPending, Tree.itemHeight, Fragment.settleAll,
      settle_fragment, Reads.recordAll_append, bind, Except.bind, ih]
    rfl

def entryFragments (k : Nat) : List (String × Construct) → List Fragment
  | [] => []
  | (name, c) :: entries =>
    .key name :: c.fragment (k + 1) :: entryFragments (k + 1 + c.size) entries

def entryPending (k : Nat) : List (String × Construct) → List Sighting
  | [] => []
  | (_, c) :: entries =>
    c.pending (k + 1) c.isCalled ++ entryPending (k + 1 + c.size) entries

theorem settleEntries_entryFragments (reads : Reads) (n k : Nat)
    (entries : List (String × Construct)) :
    Fragment.settleEntries reads n (entryFragments k entries) =
      .ok (entryTrees entries, Tree.entryHeight (entryTrees entries),
        reads.recordAll (entryPending k entries)) := by
  induction entries generalizing reads n k with
  | nil => rfl
  | cons e entries ih =>
    obtain ⟨name, c⟩ := e
    simp only [entryFragments, entryTrees, entryPending, Tree.entryHeight,
      Fragment.settleEntries, settle_fragment, Reads.recordAll_append, bind, Except.bind, ih]
    rfl

@[simp] theorem length_itemFragments (k : Nat) (cs : List Construct) :
    (itemFragments k cs).length = cs.length := by
  induction cs generalizing k with
  | nil => rfl
  | cons c cs ih => simp [itemFragments, ih]

@[simp] theorem length_entryFragments (k : Nat) (entries : List (String × Construct)) :
    (entryFragments k entries).length = 2 * entries.length := by
  induction entries generalizing k with
  | nil => rfl
  | cons e entries ih => simp [entryFragments, ih]; omega

mutual

/-- The paths that the tokens of a construct record, in the order in which they do. A path that
the construct leaves open is not yet among them. -/
def recorded (k : Nat) : Construct → List Sighting
  | .literal _ _ _ | .identifier _ _ _ _ _ => []
  | .property holder name => recorded k holder ++
      if (Tree.member (!holder.isCalled) holder.tree (.literal (.string name))).isPath then []
      else holder.pending k holder.isCalled
  | .index holder key => recorded k holder ++ recorded (k + holder.size) key ++
      if (Tree.member (!holder.isCalled) holder.tree key.tree).isPath then []
      else holder.pending k holder.isCalled ++ key.pending (k + holder.size) key.isCalled
  | .call callee args => recorded k callee ++ itemRecorded (k + callee.size) args ++
      callee.pending k true ++ itemPending (k + callee.size) args
  | .array items => itemRecorded k items ++ itemPending k items
  | .object entries => entryRecorded k entries ++ entryPending k entries
  | .unary _ _ operand => recorded k operand ++ operand.pending k operand.isCalled
  | .binary _ _ left right => recorded k left ++ recorded (k + left.size) right ++
      itemPending k [left, right]
  | .conditional condition yes no => recorded k condition ++
      recorded (k + condition.size) yes ++ recorded (k + condition.size + yes.size) no ++
        itemPending k [condition, yes, no]

def itemRecorded (k : Nat) : List Construct → List Sighting
  | [] => []
  | c :: cs => recorded k c ++ itemRecorded (k + c.size) cs

def entryRecorded (k : Nat) : List (String × Construct) → List Sighting
  | [] => []
  | (_, c) :: entries => recorded (k + 1) c ++ entryRecorded (k + 1 + c.size) entries

end

end Construct

namespace Builder

def tooDeep (maxDepth : Nat) : ParseFault := .limit (.expressionTooDeep maxDepth)

theorem run_append (maxDepth : Nat) (b : Builder) (k : Nat) (xs ys : List Token) :
    run maxDepth b k (xs ++ ys) =
      run maxDepth b k xs >>= fun b => run maxDepth b (k + xs.length) ys := by
  induction xs generalizing b k with
  | nil => rfl
  | cons x xs ih =>
    simp only [List.cons_append, run, List.length_cons, bind, Except.bind] at ih ⊢
    cases step maxDepth b k x with
    | error fault => rfl
    | ok b => simp only [ih, Nat.add_assoc, Nat.add_comm 1]

theorem run_singleton (maxDepth : Nat) (b : Builder) (k : Nat) (token : Token) :
    run maxDepth b k [token] = step maxDepth b k token := by
  simp only [run, bind, Except.bind]
  cases step maxDepth b k token <;> rfl

theorem pop_reverse_append (fragments stack : List Fragment) (reads : Reads) (token : Token)
    (n : Nat) (h : n = fragments.length) :
    pop ⟨fragments.reverse ++ stack, reads⟩ token n = .ok (fragments, ⟨stack, reads⟩) := by
  subst h
  simp [pop]

theorem pushNode_eq (b : Builder) (maxDepth : Nat) (t : Tree) (depth : Nat) (reads : Reads)
    (h : t.height = depth + 1) :
    b.pushNode maxDepth t depth reads =
      if t.height ≤ maxDepth then .ok ⟨.node t t.height :: b.stack, reads⟩
      else .error (tooDeep maxDepth) := by
  rw [pushNode, h]
  by_cases hd : depth + 1 ≤ maxDepth
  · rw [if_neg (Nat.not_lt.2 hd), if_pos hd]
  · rw [if_pos (Nat.lt_of_not_le hd), if_neg hd]
    rfl

theorem run_node {maxDepth k depth : Nat} {b c d : Builder} {parts : List Token} {token : Token}
    {t : Tree} {reads : Reads} {P : Prop} [Decidable P]
    (hparts : run maxDepth b k parts = if P then .ok c else .error (tooDeep maxDepth))
    (hstep : step maxDepth c (k + parts.length) token = d.pushNode maxDepth t depth reads)
    (hdepth : t.height = depth + 1) (hP : t.height ≤ maxDepth → P) :
    run maxDepth b k (parts ++ [token]) =
      if t.height ≤ maxDepth then .ok ⟨.node t t.height :: d.stack, reads⟩
      else .error (tooDeep maxDepth) := by
  rw [run_append, hparts]
  by_cases hp : P
  · rw [if_pos hp]
    simp only [bind, Except.bind, run_singleton, hstep, pushNode_eq d maxDepth t depth reads hdepth]
  · rw [if_neg hp, if_neg fun h => hp (hP h)]
    rfl

section Steps

variable (maxDepth k j : Nat) (stack : List Fragment) (reads : Reads)

theorem step_call (callee : Construct) (args : List Construct) :
    step maxDepth
        ⟨(Construct.itemFragments k (callee :: args)).reverse ++ stack, reads⟩ j
        ⟨.call, args.length⟩ =
      pushNode ⟨stack, reads⟩ maxDepth (.call callee.tree (Construct.itemTrees args))
        (max (Tree.itemHeight (Construct.itemTrees args)) callee.tree.height)
        (reads.recordAll (callee.pending k true ++
          Construct.itemPending (k + callee.size) args)) := by
  have hc : count ⟨.call, args.length⟩ = .ok args.length := by simp [count]
  have hp := pop_reverse_append (Construct.itemFragments k (callee :: args)) stack reads
    ⟨.call, args.length⟩ (args.length + 1) (by simp)
  simp only [step, hc, bind, Except.bind, hp]
  simp only [Construct.itemFragments, Construct.settle_asCallee_fragment,
    Construct.settleAll_itemFragments, mapError_ok, Reads.recordAll_append]

theorem step_array (items : List Construct) :
    step maxDepth ⟨(Construct.itemFragments k items).reverse ++ stack, reads⟩ j
        ⟨.array, if items.length = 0 then referenceArity else items.length⟩ =
      pushNode ⟨stack, reads⟩ maxDepth (.array (Construct.itemTrees items))
        (Tree.itemHeight (Construct.itemTrees items))
        (reads.recordAll (Construct.itemPending k items)) := by
  have hp := pop_reverse_append (Construct.itemFragments k items) stack reads
    ⟨.array, if items.length = 0 then referenceArity else items.length⟩ items.length (by simp)
  by_cases h : items.length = 0
  · simp only [h, if_true] at hp ⊢
    simp only [step, if_true, bind, Except.bind, hp, Construct.settleAll_itemFragments,
      mapError_ok]
  · have hr : (items.length : Int) ≠ referenceArity := by simp [referenceArity]
    simp only [h, if_false] at hp ⊢
    simp only [step, hr, if_false, Int.natCast_pos, Nat.pos_of_ne_zero h, if_true, bind,
      Except.bind, Int.toNat_natCast, hp, Construct.settleAll_itemFragments, mapError_ok]

theorem step_object (entries : List (String × Construct)) :
    step maxDepth ⟨(Construct.entryFragments k entries).reverse ++ stack, reads⟩ j
        ⟨.object, entries.length⟩ =
      pushNode ⟨stack, reads⟩ maxDepth (.object (Construct.entryTrees entries))
        (Tree.entryHeight (Construct.entryTrees entries))
        (reads.recordAll (Construct.entryPending k entries)) := by
  have hc : count ⟨.object, entries.length⟩ = .ok entries.length := by simp [count]
  have hp := pop_reverse_append (Construct.entryFragments k entries) stack reads
    ⟨.object, entries.length⟩ (2 * entries.length) (by simp)
  simp only [step, hc, bind, Except.bind, hp, Construct.settleEntries_entryFragments,
    mapError_ok]

theorem step_operator (op : Operator) (operands : List Construct)
    (h : op.operands = operands.length) :
    step maxDepth ⟨(Construct.itemFragments k operands).reverse ++ stack, reads⟩ j
        (.operator op) =
      match Construct.itemTrees operands with
      | [t] => pushNode ⟨stack, reads⟩ maxDepth (.unary op t)
          (Tree.itemHeight (Construct.itemTrees operands))
          (reads.recordAll (Construct.itemPending k operands))
      | [t, u] => pushNode ⟨stack, reads⟩ maxDepth (.binary op t u)
          (Tree.itemHeight (Construct.itemTrees operands))
          (reads.recordAll (Construct.itemPending k operands))
      | [t, u, v] => pushNode ⟨stack, reads⟩ maxDepth (.conditional t u v)
          (Tree.itemHeight (Construct.itemTrees operands))
          (reads.recordAll (Construct.itemPending k operands))
      | _ => .error (invalidArity (.operator op)) := by
  have hp := pop_reverse_append (Construct.itemFragments k operands) stack reads
    (.operator op) op.operands (by simp [h])
  have he : expectArity (.operator op) op.operands = .ok () := by
    simp [expectArity, Token.operator, Token.of, Lexical.defaultArity]
  simp only [Token.operator, Token.of] at hp he ⊢
  simp only [step, he, bind, Except.bind, hp, Construct.settleAll_itemFragments,
    mapError_ok]
  rfl

theorem member_fragment (l : Nat) (holder key : Construct) :
    member ⟨stack, reads⟩ maxDepth (holder.fragment k) (key.fragment l) =
      if (Construct.index holder key).tree.fits maxDepth then
        .ok ⟨(Construct.index holder key).fragment k :: stack,
          reads.recordAll (if (Construct.index holder key).tree.isPath then []
            else holder.pending k holder.isCalled ++ key.pending l key.isCalled)⟩
      else .error (tooDeep maxDepth) := by
  have hn := Construct.literalName?_fragment l key
  obtain ⟨root, segments, name, hc, hp, hk, ht⟩ | ht :=
    Tree.member_cases (!holder.isCalled) holder.tree key.tree
  · have hf : holder.fragment k = .path root segments k false := by
      rw [Construct.fragment_of_path hp k, (Bool.not_eq_true' _).mp hc]
    have hm : member ⟨stack, reads⟩ maxDepth (holder.fragment k) (key.fragment l) =
        .ok ⟨.path root (segments ++ [name]) k false :: stack, reads⟩ := by
      rw [hf]
      unfold member
      rw [hn, hk]
      rfl
    rw [hm, Construct.fragment_of_path (c := .index holder key) ht, Construct.tree, ht]
    rfl
  · have hi : member ⟨stack, reads⟩ maxDepth (holder.fragment k) (key.fragment l) =
        pushNode ⟨stack, reads⟩ maxDepth (.index holder.tree key.tree)
          (max holder.tree.height key.tree.height)
          (reads.recordAll (holder.pending k holder.isCalled ++
            key.pending l key.isCalled)) := by
      unfold member
      split
      · next root segments o name hf hk =>
        unfold Construct.fragment at hf
        split at hf
        · next root segments hp =>
          injection hf with _ _ _ hc
          rw [hn] at hk
          simp only [Tree.member, hp, hc, hk, Bool.not_false] at ht
          cases ht
        · cases hf
      · simp only [Construct.settle_fragment, mapError_ok, bind, Except.bind,
          Reads.recordAll_append]
    rw [hi, pushNode_eq _ _ _ _ _ rfl, Construct.fragment, Construct.tree, ht]
    simp only [Tree.fits, Tree.isPath, decide_eq_true_eq, Bool.false_eq_true, if_false]

end Steps

def after (b : Builder) (k : Nat) (c : Construct) : Builder :=
  ⟨c.fragment k :: b.stack, b.reads.recordAll (c.recorded k)⟩

/-- The tokens of `c` are taken up as a whole, or refused because its tree is too deep. -/
def Takes (maxDepth : Nat) (c : Construct) : Prop :=
  ∀ (b : Builder) (k : Nat), run maxDepth b k c.listing =
    if c.tree.fits maxDepth then .ok (b.after k c) else .error (tooDeep maxDepth)

theorem run_itemListing {maxDepth : Nat} {cs : List Construct}
    (h : ∀ c ∈ cs, Takes maxDepth c) (b : Builder) (k : Nat) :
    run maxDepth b k (Construct.itemListing cs) =
      if (Construct.itemTrees cs).all (Tree.fits maxDepth) then
        .ok ⟨(Construct.itemFragments k cs).reverse ++ b.stack,
          b.reads.recordAll (Construct.itemRecorded k cs)⟩
      else .error (tooDeep maxDepth) := by
  induction cs generalizing b k with
  | nil => rfl
  | cons c cs ih =>
    obtain ⟨hc, hcs⟩ := List.forall_mem_cons.1 h
    rw [Construct.itemListing, run_append, hc b k]
    by_cases hf : c.tree.fits maxDepth = true
    · rw [if_pos hf]
      simp only [bind, Except.bind]
      rw [ih hcs]
      simp only [Construct.itemTrees, List.all_cons, hf, Bool.true_and, after,
        Construct.itemFragments, List.reverse_cons, List.append_assoc, List.singleton_append,
        Construct.itemRecorded, Reads.recordAll_append, Construct.size]
    · simp [Construct.itemTrees, hf, bind, Except.bind]

theorem run_entryListing {maxDepth : Nat} {entries : List (String × Construct)}
    (h : ∀ e ∈ entries, Takes maxDepth e.2) (b : Builder) (k : Nat) :
    run maxDepth b k (Construct.entryListing entries) =
      if (Construct.entryTrees entries).all (Tree.fits maxDepth ·.2) then
        .ok ⟨(Construct.entryFragments k entries).reverse ++ b.stack,
          b.reads.recordAll (Construct.entryRecorded k entries)⟩
      else .error (tooDeep maxDepth) := by
  induction entries generalizing b k with
  | nil => rfl
  | cons e entries ih =>
    obtain ⟨name, c⟩ := e
    obtain ⟨hc, hcs⟩ := List.forall_mem_cons.1 h
    have hk : step maxDepth b k ⟨.key name, 0⟩ = .ok (b.push (.key name)) := rfl
    rw [Construct.entryListing, run, hk]
    simp only [bind, Except.bind]
    rw [run_append, hc]
    by_cases hf : c.tree.fits maxDepth = true
    · rw [if_pos hf]
      simp only [bind, Except.bind]
      rw [ih hcs]
      simp only [Construct.entryTrees, List.all_cons, hf, Bool.true_and, after, push,
        Construct.entryFragments, List.reverse_cons, List.append_assoc, List.cons_append,
        Construct.entryRecorded, Reads.recordAll_append, Construct.size, List.nil_append]
    · simp [Construct.entryTrees, hf, bind, Except.bind]

theorem all_fits_of_itemHeight_le {maxDepth : Nat} {ts : List Tree}
    (h : Tree.itemHeight ts ≤ maxDepth) : ts.all (Tree.fits maxDepth) = true := by
  induction ts with
  | nil => rfl
  | cons t ts ih =>
    rw [Tree.itemHeight] at h
    simp only [List.all_cons, Bool.and_eq_true]
    exact ⟨Tree.fits_of_height_le (by omega), ih (by omega)⟩

theorem all_fits_of_entryHeight_le {maxDepth : Nat} {entries : List (String × Tree)}
    (h : Tree.entryHeight entries ≤ maxDepth) :
    entries.all (Tree.fits maxDepth ·.2) = true := by
  induction entries with
  | nil => rfl
  | cons e entries ih =>
    rw [Tree.entryHeight] at h
    simp only [List.all_cons, Bool.and_eq_true]
    exact ⟨Tree.fits_of_height_le (by omega), ih (by omega)⟩

theorem run_operator {maxDepth : Nat} {op : Operator} {operands : List Construct} {t : Tree}
    (h : ∀ c ∈ operands, Takes maxDepth c) (b : Builder) (k : Nat)
    (hstep : ∀ (b : Builder) (j : Nat),
      step maxDepth ⟨(Construct.itemFragments k operands).reverse ++ b.stack, b.reads⟩ j
          (.operator op) =
        pushNode b maxDepth t (Tree.itemHeight (Construct.itemTrees operands))
          (b.reads.recordAll (Construct.itemPending k operands)))
    (ht : t.height = Tree.itemHeight (Construct.itemTrees operands) + 1) :
    run maxDepth b k (Construct.itemListing operands ++ [.operator op]) =
      if t.height ≤ maxDepth then
        .ok ⟨.node t t.height :: b.stack, b.reads.recordAll
          (Construct.itemRecorded k operands ++ Construct.itemPending k operands)⟩
      else .error (tooDeep maxDepth) := by
  rw [Reads.recordAll_append]
  exact run_node (run_itemListing h b k)
    (hstep ⟨b.stack, b.reads.recordAll (Construct.itemRecorded k operands)⟩ _) ht
    fun hd => all_fits_of_itemHeight_le (by omega)

theorem run_member {maxDepth k l : Nat} {holder key : Construct} {parts : List Token}
    {t : Token} {b c : Builder} {reads : Reads}
    (hparts : run maxDepth b k parts =
      if holder.tree.fits maxDepth ∧ key.tree.fits maxDepth then .ok c
      else .error (tooDeep maxDepth))
    (hstep : step maxDepth c (k + parts.length) t =
      member ⟨b.stack, reads⟩ maxDepth (holder.fragment k) (key.fragment l)) :
    run maxDepth b k (parts ++ [t]) =
      if (Construct.index holder key).tree.fits maxDepth then
        .ok ⟨(Construct.index holder key).fragment k :: b.stack,
          reads.recordAll (if (Construct.index holder key).tree.isPath then []
            else holder.pending k holder.isCalled ++ key.pending l key.isCalled)⟩
      else .error (tooDeep maxDepth) := by
  rw [run_append, hparts]
  by_cases hp : holder.tree.fits maxDepth ∧ key.tree.fits maxDepth
  · rw [if_pos hp]
    simp only [bind, Except.bind, run_singleton, hstep, member_fragment]
  · have hn : ¬(Construct.index holder key).tree.fits maxDepth := fun h =>
      hp (Tree.fits_of_fits_member h)
    rw [if_neg hp, if_neg hn]
    rfl

theorem takes_literal (maxDepth : Nat) (lexical : Lexical) (value : Value)
    (h : lexical.value? = some value) : Takes maxDepth (.literal lexical value h) := by
  intro b k
  cases lexical <;> cases h <;> rfl

theorem takes_identifier (maxDepth : Nat) (text : String) (root : Root) (segments : List String)
    (h : splitIdentifier text = .ok (root, segments)) (called : Bool) :
    Takes maxDepth (.identifier text root segments h called) := by
  intro b k
  have hs : step maxDepth b k ⟨.identifier text, Construct.identifierArity called⟩ =
      .ok (b.push (.path root segments k called)) := by
    cases called <;>
      simp [step, h, Construct.identifierArity, referenceArity, calleeArity, bind, Except.bind,
        mapError_ok] <;> rfl
  rw [Construct.listing, run_singleton, hs]
  rfl

theorem takes_property {maxDepth : Nat} {holder : Construct} (h : Takes maxDepth holder)
    (name : String) : Takes maxDepth (.property holder name) := by
  intro b k
  -- the name is a key like any other, but that no token of its own stands for it
  have hparts : run maxDepth b k holder.listing =
      if holder.tree.fits maxDepth ∧
          (Construct.literal (.string name) (.string name) rfl).tree.fits maxDepth then
        .ok (b.after k holder)
      else .error (tooDeep maxDepth) := by
    rw [h b k]
    by_cases hf : holder.tree.fits maxDepth
    · rw [if_pos hf, if_pos ⟨hf, rfl⟩]
    · rw [if_neg hf, if_neg fun hn => hf hn.1]
  have hr := run_member (l := 0) (t := ⟨.property name, 0⟩) hparts rfl
  rw [Construct.listing, hr]
  simp only [after, Construct.recorded, Reads.recordAll_append, Construct.pending,
    Construct.tree, List.append_nil]
  rfl

theorem takes_index {maxDepth : Nat} {holder key : Construct} (hh : Takes maxDepth holder)
    (hk : Takes maxDepth key) : Takes maxDepth (.index holder key) := by
  intro b k
  have hparts : run maxDepth b k (holder.listing ++ key.listing) =
      if holder.tree.fits maxDepth ∧ key.tree.fits maxDepth then
        .ok ((b.after k holder).after (k + holder.size) key)
      else .error (tooDeep maxDepth) := by
    rw [run_append, hh b k]
    by_cases hf : holder.tree.fits maxDepth
    · rw [if_pos hf]
      simp only [bind, Except.bind, hk _ _, hf, true_and]
      rfl
    · rw [if_neg hf, if_neg fun hn => hf hn.1]
      rfl
  have hr := run_member (l := k + holder.size) (t := ⟨.index, 0⟩) hparts rfl
  rw [Construct.listing, hr]
  simp only [after, Construct.recorded, Reads.recordAll_append]
  rfl

theorem takes (maxDepth : Nat) (c : Construct) : Takes maxDepth c := by
  induction c with
  | literal l v h => exact takes_literal maxDepth l v h
  | identifier text root segments h called => exact takes_identifier maxDepth _ _ _ h called
  | property holder name ih => exact takes_property ih name
  | index holder key ihh ihk => exact takes_index ihh ihk
  | call callee args ihc iha =>
    intro b k
    have hall : ∀ c ∈ callee :: args, Takes maxDepth c := List.forall_mem_cons.2 ⟨ihc, iha⟩
    have hr := run_node (run_itemListing hall b k)
      (step_call maxDepth k _ b.stack _ callee args)
      (by rw [Tree.height, Nat.max_comm])
      (fun hd => all_fits_of_itemHeight_le (by
        simp only [Construct.itemTrees, Tree.itemHeight, Tree.height] at hd ⊢; omega))
    simpa only [Construct.listing, Construct.itemListing, Construct.tree, Tree.fits,
      decide_eq_true_eq, after, Construct.fragment, Construct.recorded, Construct.itemRecorded,
      Reads.recordAll_append] using hr
  | array items ih =>
    intro b k
    have hr := run_node (run_itemListing ih b k) (step_array maxDepth k _ b.stack _ items)
      (by rw [Tree.height]) (fun hd => all_fits_of_itemHeight_le (Nat.le_of_succ_le hd))
    simpa only [Construct.listing, Construct.tree, Tree.fits, decide_eq_true_eq, after,
      Construct.fragment, Construct.recorded, Reads.recordAll_append] using hr
  | object entries ih =>
    intro b k
    have hr := run_node (run_entryListing ih b k) (step_object maxDepth k _ b.stack _ entries)
      (by rw [Tree.height]) (fun hd => all_fits_of_entryHeight_le (Nat.le_of_succ_le hd))
    simpa only [Construct.listing, Construct.tree, Tree.fits, decide_eq_true_eq, after,
      Construct.fragment, Construct.recorded, Reads.recordAll_append] using hr
  | unary op h operand ih =>
    intro b k
    have hr := run_operator (t := .unary op operand.tree) (List.forall_mem_singleton.2 ih) b k
      (fun b j => step_operator maxDepth k j b.stack b.reads op [operand] h)
      (by simp [Construct.itemTrees, Tree.itemHeight, Tree.height])
    simpa only [Construct.listing, Construct.itemListing, List.append_nil, Construct.tree,
      Tree.fits, decide_eq_true_eq, after, Construct.fragment, Construct.recorded,
      Construct.itemRecorded, Construct.itemPending] using hr
  | binary op h left right ihl ihr =>
    intro b k
    have hall : ∀ c ∈ [left, right], Takes maxDepth c := by simp [ihl, ihr]
    have hr := run_operator (t := .binary op left.tree right.tree) hall b k
      (fun b j => step_operator maxDepth k j b.stack b.reads op [left, right] h)
      (by simp [Construct.itemTrees, Tree.itemHeight, Tree.height])
    simpa only [Construct.listing, Construct.itemListing, List.append_nil, Construct.tree,
      Tree.fits, decide_eq_true_eq, after, Construct.fragment, Construct.recorded,
      Construct.itemRecorded] using hr
  | conditional condition yes no ihc ihy ihn =>
    intro b k
    have hall : ∀ c ∈ [condition, yes, no], Takes maxDepth c := by simp [ihc, ihy, ihn]
    have hr := run_operator (t := .conditional condition.tree yes.tree no.tree) hall b k
      (fun b j => step_operator maxDepth k j b.stack b.reads .conditional [condition, yes, no] rfl)
      (by simp [Construct.itemTrees, Tree.itemHeight, Tree.height])
    simpa only [Construct.listing, Construct.itemListing, List.append_nil, List.append_assoc, Construct.tree,
      Tree.fits, decide_eq_true_eq, after, Construct.fragment, Construct.recorded,
      Construct.itemRecorded] using hr

end Builder

def Construct.sightings (c : Construct) : List Sighting :=
  c.recorded 0 ++ c.pending 0 c.isCalled

/-- The listing of a construct builds the tree of the construct, unless that is too deep. -/
theorem build_listing (limits : Limits) (c : Construct) :
    build limits c.listing =
      if c.tree.fits limits.maxDepth then .ok (c.tree, ({} : Reads).recordAll c.sightings)
      else .error (Builder.tooDeep limits.maxDepth) := by
  rw [build, Builder.takes limits.maxDepth c {} 0]
  by_cases h : c.tree.fits limits.maxDepth
  · have hs := Construct.settle_fragment (({} : Reads).recordAll (c.recorded 0)) 0 c
    rw [if_pos h, if_pos h, Construct.sightings, Reads.recordAll_append]
    simp only [bind, Except.bind, Builder.finish, Builder.after, hs]
    rfl
  · rw [if_neg h, if_neg h]
    rfl

end TemplateBinding
