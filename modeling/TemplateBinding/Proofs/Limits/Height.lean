import TemplateBinding.Proofs.Postfix.Refusal

set_option autoImplicit false

namespace TemplateBinding

namespace Tree

def isLeaf : Tree → Bool
  | .literal _ | .path _ _ => true
  | _ => false

theorem fits_iff {maxDepth : Nat} {t : Tree} :
    t.fits maxDepth = true ↔ t.height ≤ maxDepth ∨ t.isLeaf = true := by
  cases t <;> simp [fits, isLeaf]

theorem height_pos (t : Tree) : 0 < t.height := by
  cases t <;> exact Nat.succ_pos _

theorem height_eq_one_of_isLeaf {t : Tree} (h : t.isLeaf = true) : t.height = 1 := by
  cases t with
  | literal v => rfl
  | path root segments => rfl
  | _ => cases h

theorem height_le_of_fits {maxDepth : Nat} {t : Tree} (h : t.fits maxDepth = true) :
    t.height ≤ max 1 maxDepth := by
  obtain h | h := fits_iff.1 h
  · omega
  · have := height_eq_one_of_isLeaf h
    omega

theorem height_member_le (grows : Bool) (holder key : Tree) :
    (member grows holder key).height ≤ max holder.height key.height + 1 := by
  obtain ⟨root, segments, name, -, -, -, hm⟩ | hm := member_cases grows holder key
  · rw [hm, height]
    omega
  · have heq : (member grows holder key).height = max holder.height key.height + 1 := by
      rw [hm, height]
    exact Nat.le_of_eq heq

end Tree

namespace Construct

theorem itemHeight_le {cs : List Construct} (h : ∀ c ∈ cs, c.tree.height ≤ c.listing.length) :
    Tree.itemHeight (itemTrees cs) ≤ (itemListing cs).length := by
  induction cs with
  | nil => exact Nat.le_refl 0
  | cons c cs ih =>
    obtain ⟨hc, hcs⟩ := List.forall_mem_cons.1 h
    have := ih hcs
    rw [itemTrees, Tree.itemHeight, itemListing, List.length_append]
    omega

theorem entryHeight_le {entries : List (String × Construct)}
    (h : ∀ e ∈ entries, e.2.tree.height ≤ e.2.listing.length) :
    Tree.entryHeight (entryTrees entries) ≤ (entryListing entries).length := by
  induction entries with
  | nil => exact Nat.le_refl 0
  | cons e entries ih =>
    obtain ⟨he, hentries⟩ := List.forall_mem_cons.1 h
    have := ih hentries
    rw [entryTrees, Tree.entryHeight, entryListing, List.length_cons, List.length_append]
    omega

/-- Each level of a tree has a token of its own. -/
theorem height_le_length (c : Construct) : c.tree.height ≤ c.listing.length := by
  induction c with
  | literal l v h => exact Nat.le_refl 1
  | identifier text root segments h called => exact Nat.le_refl 1
  | property holder name ih =>
    have := Tree.height_member_le (!holder.isCalled) holder.tree (.literal (.string name))
    have hpos := holder.tree.height_pos
    simp only [tree, listing, List.length_append, List.length_singleton, Tree.height] at this ⊢
    omega
  | index holder key ihh ihk =>
    have := Tree.height_member_le (!holder.isCalled) holder.tree key.tree
    simp only [tree, listing, List.length_append, List.length_singleton]
    omega
  | call callee args ihc iha =>
    have := itemHeight_le iha
    simp only [tree, Tree.height, listing, List.length_append, List.length_singleton]
    omega
  | array items ih =>
    have := itemHeight_le ih
    simp only [tree, Tree.height, listing, List.length_append, List.length_singleton]
    omega
  | object entries ih =>
    have := entryHeight_le ih
    simp only [tree, Tree.height, listing, List.length_append, List.length_singleton]
    omega
  | unary op h operand ih =>
    simp only [tree, Tree.height, listing, List.length_append, List.length_singleton]
    omega
  | binary op h left right ihl ihr =>
    simp only [tree, Tree.height, listing, List.length_append, List.length_singleton]
    omega
  | conditional condition yes no ihc ihy ihn =>
    simp only [tree, Tree.height, listing, List.length_append, List.length_singleton]
    omega

end Construct

namespace Expression

variable {limits : Limits} {source : String} {tokens : List Token} {e : Expression}

theorem exists_listing_iff : (∃ c : Construct, tokens = c.listing) ↔
    ∀ limits source fault, compile limits source tokens ≠ .error (.stream fault) := by
  constructor
  · rintro ⟨c, rfl⟩ limits source fault h
    obtain hdeep | ⟨e, he, -⟩ := compile_listing limits source c
    · rw [hdeep] at h
      cases h
    · rw [he] at h
      cases h
  · intro h
    -- no tree is higher than its stream is long, so this limit does not refuse
    cases hc : compile { maxDepth := tokens.length } "" tokens with
    | ok e =>
      obtain ⟨c, htokens, -⟩ := exists_construct_of_compile hc
      exact ⟨c, htokens⟩
    | error fault =>
      obtain ⟨f, rfl⟩ | rfl := eq_of_compile_error hc
      · exact absurd hc (h _ _ f)
      · obtain ⟨c, hinfix, hheight⟩ := exists_deep_of_compile hc
        have hlisting := c.height_le_length
        have := hinfix.length_le
        dsimp only at hheight
        omega

theorem height_root_le (h : compile limits source tokens = .ok e) :
    e.root.height ≤ max 1 limits.maxDepth := by
  obtain ⟨c, -, hfits, hroot⟩ := exists_construct_of_compile h
  rw [hroot]
  exact Tree.height_le_of_fits hfits

/-- The streams without a fault of their own are the listings of constructs. Such a stream is
compiled to the tree of its construct just when this is no higher than the limit of depth, or is a
leaf; and else the limit is what is told. No expression is higher than the limit, or than a leaf. -/
theorem compile_iff_height_le (tokens : List Token) :
    ((∃ c : Construct, tokens = c.listing) ↔
      ∀ limits source fault, compile limits source tokens ≠ .error (.stream fault)) ∧
    (∀ c : Construct, tokens = c.listing → ∀ limits source,
      ((∃ e, compile limits source tokens = .ok e) ↔
        c.tree.height ≤ limits.maxDepth ∨ c.tree.isLeaf = true) ∧
      (∀ e, compile limits source tokens = .ok e → e.root = c.tree) ∧
      (¬(c.tree.height ≤ limits.maxDepth ∨ c.tree.isLeaf = true) →
        compile limits source tokens = .error (.limit (.expressionTooDeep limits.maxDepth)))) ∧
    (∀ limits source e, compile limits source tokens = .ok e →
      e.root.height ≤ max 1 limits.maxDepth) ∧
    (∀ limits source e, parse limits source = .ok e → e.root.height ≤ max 1 limits.maxDepth) := by
  refine ⟨exists_listing_iff, ?_, fun limits source e => height_root_le, fun limits source e h => ?_⟩
  · rintro c rfl limits source
    rw [← Tree.fits_iff]
    by_cases hfits : c.tree.fits limits.maxDepth = true
    · obtain ⟨e, he, hroot⟩ := compile_listing_of_fits source hfits
      refine ⟨⟨fun _ => hfits, fun _ => ⟨e, he⟩⟩, fun e' he' => ?_, fun hn => absurd hfits hn⟩
      rw [he] at he'
      cases he'
      exact hroot
    · have hdeep := compile_listing_of_not_fits source hfits
      refine ⟨⟨fun ⟨e, he⟩ => ?_, fun h => absurd h hfits⟩, fun e he => ?_, fun _ => hdeep⟩
      · rw [hdeep] at he
        cases he
      · rw [hdeep] at he
        cases he
  · obtain ⟨tokens, -, hcompile⟩ := bind_eq_ok_iff.1 h
    exact height_root_le hcompile

theorem compile_iff_height_le_nested : ∃ c : Construct,
    c.listing = [.of (.integer 1), ⟨.array, 1⟩, ⟨.array, 1⟩] ∧
      compile { maxDepth := 2 } "" c.listing = .error (.limit (.expressionTooDeep 2)) ∧
      ∃ e, compile { maxDepth := 3 } "" c.listing = .ok e ∧ e.root.height ≤ 3 := by
  let c : Construct := .array [.array [.literal (.integer 1) (.integer 1) rfl]]
  have hheight : c.tree.height = 3 := rfl
  have hleaf : c.tree.isLeaf = false := rfl
  obtain ⟨-, hexact, hbound, -⟩ := compile_iff_height_le c.listing
  have hdeep := (hexact c rfl { maxDepth := 2 } "").2.2 (by simp [hheight, hleaf])
  obtain ⟨e, he⟩ := (hexact c rfl { maxDepth := 3 } "").1.2 (.inl (Nat.le_of_eq hheight))
  exact ⟨c, rfl, hdeep, e, he, hbound _ _ e he⟩

end Expression

end TemplateBinding
