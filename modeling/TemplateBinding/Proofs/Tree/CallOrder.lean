import TemplateBinding.Proofs.Tree.Sites
import TemplateBinding.Proofs.Watch.Order

set_option autoImplicit false

namespace TemplateBinding

def Token.isCall (t : Token) : Bool :=
  match t.lexical with
  | .call => true
  | _ => false

def callPositions (k : Nat) (tokens : List Token) : List Nat :=
  ((tokens.zipIdx k).filter fun t => t.1.isCall).map Prod.snd

theorem callPositions_append (k : Nat) (tokens tokens' : List Token) :
    callPositions k (tokens ++ tokens') =
      callPositions k tokens ++ callPositions (k + tokens.length) tokens' := by
  simp only [callPositions, List.zipIdx_append, List.filter_append, List.map_append]

theorem callPositions_ascend (k : Nat) (tokens : List Token) :
    (callPositions k tokens).Pairwise (· < ·) := by
  have hall : ((tokens.zipIdx k).map Prod.snd).Pairwise (· < ·) := by
    rw [List.zipIdx_map_snd]
    exact List.pairwise_lt_range'
  exact hall.sublist (List.filter_sublist.map Prod.snd)

theorem callPositions_call (k : Nat) (arity : Int) : callPositions k [⟨.call, arity⟩] = [k] := rfl

theorem callPositions_other {k : Nat} {t : Token} (h : t.isCall = false) :
    callPositions k [t] = [] := by
  simp [callPositions, h]

namespace SitedTree

def member (grows : Bool) (holder key : SitedTree) : SitedTree :=
  match grows, holder, key.tree.literalName? with
  | true, .path root segments, some name => .path root (segments ++ [name])
  | _, holder, _ => .index holder key

theorem tree_member (grows : Bool) (holder key : SitedTree) :
    (member grows holder key).tree = Tree.member grows holder.tree key.tree := by
  cases grows with
  | false => cases holder <;> rfl
  | true =>
    cases holder with
    | path root segments =>
      simp only [member, tree, Tree.member]
      cases key.tree.literalName? <;> rfl
    | _ => rfl

theorem sites_of_literalName? {key : SitedTree} {name : String}
    (h : key.tree.literalName? = some name) : key.sites = [] := by
  cases key with
  | literal v => rfl
  | _ => cases h

theorem sites_member (grows : Bool) (holder key : SitedTree) :
    (member grows holder key).sites = holder.sites ++ key.sites := by
  unfold member
  split
  · next root segments name hk => simp [sites, sites_of_literalName? hk]
  · rfl

end SitedTree

namespace Construct

mutual

/-- The tree of a construct, in which the site of each call is the position of its token; the
first token of the construct is at position `k`. -/
def sited (k : Nat) : Construct → SitedTree
  | .literal _ value _ => .literal value
  | .identifier _ root segments _ _ => .path root segments
  | .property holder name =>
    .member (!holder.isCalled) (sited k holder) (.literal (.string name))
  | .index holder key =>
    .member (!holder.isCalled) (sited k holder) (sited (k + holder.size) key)
  | .call callee args =>
    .call (k + callee.size + (itemListing args).length) (sited k callee)
      (itemSited (k + callee.size) args)
  | .array items => .array (itemSited k items)
  | .object entries => .object (entrySited k entries)
  | .unary op _ operand => .unary op (sited k operand)
  | .binary op _ left right => .binary op (sited k left) (sited (k + left.size) right)
  | .conditional condition yes no =>
    .conditional (sited k condition) (sited (k + condition.size) yes)
      (sited (k + condition.size + yes.size) no)

def itemSited (k : Nat) : List Construct → List SitedTree
  | [] => []
  | c :: cs => sited k c :: itemSited (k + c.size) cs

def entrySited (k : Nat) : List (String × Construct) → List (String × SitedTree)
  | [] => []
  | (name, c) :: entries => (name, sited (k + 1) c) :: entrySited (k + 1 + c.size) entries

end

theorem tree_itemSited {cs : List Construct} (h : ∀ c ∈ cs, ∀ k, (c.sited k).tree = c.tree)
    (k : Nat) : SitedTree.itemTrees (itemSited k cs) = itemTrees cs := by
  induction cs generalizing k with
  | nil => rfl
  | cons c cs ih =>
    obtain ⟨hc, hcs⟩ := List.forall_mem_cons.1 h
    simp only [itemSited, SitedTree.itemTrees, itemTrees, hc, ih hcs]

theorem tree_entrySited {entries : List (String × Construct)}
    (h : ∀ e ∈ entries, ∀ k, (e.2.sited k).tree = e.2.tree) (k : Nat) :
    SitedTree.entryTrees (entrySited k entries) = entryTrees entries := by
  induction entries generalizing k with
  | nil => rfl
  | cons e entries ih =>
    obtain ⟨he, hes⟩ := List.forall_mem_cons.1 h
    simp only [entrySited, SitedTree.entryTrees, entryTrees, he, ih hes]

theorem tree_sited (c : Construct) (k : Nat) : (c.sited k).tree = c.tree := by
  induction c generalizing k with
  | literal => rfl
  | identifier => rfl
  | property holder name ih => simp only [sited, tree, SitedTree.tree_member, SitedTree.tree, ih]
  | index holder key ihh ihk => simp only [sited, tree, SitedTree.tree_member, ihh, ihk]
  | call callee args ihc iha =>
    simp only [sited, tree, SitedTree.tree, ihc, tree_itemSited iha]
  | array items ih => simp only [sited, tree, SitedTree.tree, tree_itemSited ih]
  | object entries ih => simp only [sited, tree, SitedTree.tree, tree_entrySited ih]
  | unary op h operand ih => simp only [sited, tree, SitedTree.tree, ih]
  | binary op h left right ihl ihr => simp only [sited, tree, SitedTree.tree, ihl, ihr]
  | conditional condition yes no ihc ihy ihn =>
    simp only [sited, tree, SitedTree.tree, ihc, ihy, ihn]

theorem sites_itemSited {cs : List Construct}
    (h : ∀ c ∈ cs, ∀ k, (c.sited k).sites = callPositions k c.listing) (k : Nat) :
    SitedTree.itemSites (itemSited k cs) = callPositions k (itemListing cs) := by
  induction cs generalizing k with
  | nil => rfl
  | cons c cs ih =>
    obtain ⟨hc, hcs⟩ := List.forall_mem_cons.1 h
    simp only [itemSited, SitedTree.itemSites, itemListing, callPositions_append, hc, ih hcs, size]

theorem sites_entrySited {entries : List (String × Construct)}
    (h : ∀ e ∈ entries, ∀ k, (e.2.sited k).sites = callPositions k e.2.listing) (k : Nat) :
    SitedTree.entrySites (entrySited k entries) = callPositions k (entryListing entries) := by
  induction entries generalizing k with
  | nil => rfl
  | cons e entries ih =>
    obtain ⟨he, hes⟩ := List.forall_mem_cons.1 h
    have hkey : entryListing (e :: entries) =
        [⟨.key e.1, 0⟩] ++ (e.2.listing ++ entryListing entries) := rfl
    rw [hkey, callPositions_append, callPositions_other rfl, callPositions_append]
    simp only [entrySited, SitedTree.entrySites, he, ih hes, size, List.nil_append,
      List.length_singleton]

theorem sites_sited (c : Construct) (k : Nat) :
    (c.sited k).sites = callPositions k c.listing := by
  induction c generalizing k with
  | literal lexical value h =>
    have hother : Token.isCall ⟨lexical, 0⟩ = false := by
      cases lexical <;> first | rfl | cases h
    rw [listing, callPositions_other hother]
    rfl
  | identifier => rfl
  | property holder name ih =>
    rw [listing, callPositions_append, callPositions_other rfl, sited, SitedTree.sites_member, ih]
    rfl
  | index holder key ihh ihk =>
    rw [listing, callPositions_append, callPositions_other rfl, callPositions_append, sited,
      SitedTree.sites_member, ihh, ihk, List.append_nil]
    rfl
  | call callee args ihc iha =>
    rw [listing, callPositions_append, callPositions_call, callPositions_append,
      List.length_append, ← Nat.add_assoc]
    simp only [sited, SitedTree.sites, ihc, sites_itemSited iha, size]
  | array items ih =>
    rw [listing, callPositions_append, callPositions_other rfl, List.append_nil]
    exact sites_itemSited ih k
  | object entries ih =>
    rw [listing, callPositions_append, callPositions_other rfl, List.append_nil]
    exact sites_entrySited ih k
  | unary op h operand ih =>
    rw [listing, callPositions_append, callPositions_other rfl, List.append_nil]
    exact ih k
  | binary op h left right ihl ihr =>
    rw [listing, callPositions_append, callPositions_other rfl, callPositions_append,
      List.append_nil, ← ihl, ← ihr]
    rfl
  | conditional condition yes no ihc ihy ihn =>
    rw [listing, callPositions_append, callPositions_other rfl, callPositions_append,
      callPositions_append, List.append_nil, List.length_append, ← Nat.add_assoc, ← ihc, ← ihy,
      ← ihn]
    rfl

end Construct

/-- The calls of a source's tree can be given their tokens' positions as sites. Then, whatever the
host answers, the calls that call it do so at ascending positions, so each at most once. Without
the sites, this is the evaluation of the source. -/
theorem calls_in_token_order {limits : Limits} {source : String} {e : Expression}
    (h : Expression.parse limits source = .ok e) :
    ∃ c : Construct, tokenize limits source = .ok c.listing ∧ (c.sited 0).tree = e.root ∧
      (c.sited 0).sites = callPositions 0 c.listing ∧
      (∀ env : Environment, ((c.sited 0).eval env.setting []).run = e.evaluate env) ∧
      ∀ s : Setting, ((c.sited 0).eval s []).sites.Sublist (callPositions 0 c.listing) ∧
        ((c.sited 0).eval s []).sites.Pairwise (· < ·) := by
  obtain ⟨c, -, htokens, hroot, -, -⟩ := Expression.exists_construct_of_parse h
  have htree : (c.sited 0).tree = e.root := by rw [c.tree_sited, hroot]
  refine ⟨c, htokens, htree, c.sites_sited 0, fun env => ?_, fun s => ?_⟩
  · rw [SitedTree.run_eval, htree]
    rfl
  · have hsublist : ((c.sited 0).eval s []).sites.Sublist (callPositions 0 c.listing) := by
      rw [← c.sites_sited 0]
      exact SitedTree.sublist_sites s (c.sited 0)
    exact ⟨hsublist, (callPositions_ascend 0 c.listing).sublist hsublist⟩

/-- The argument comes before the call around it, and the right operand last. -/
theorem calls_in_token_order_or : ∃ e c, Expression.parse {} "f(g()) || g()" = .ok e ∧
    Construct.tree c = e.root ∧
    ∀ s : Setting, ((c.sited 0).eval s []).sites.Sublist [2, 3, 5] ∧
      ((c.sited 0).eval s []).sites.Pairwise (· < ·) := by
  obtain ⟨e, h⟩ := exists_eq_ok (x := Expression.parse {} "f(g()) || g()") (by decide +kernel)
  obtain ⟨c, htokens, htree, -, -, hsites⟩ := calls_in_token_order h
  have hpositions : (tokenize {} "f(g()) || g()").toOption.map (callPositions 0) =
      some [2, 3, 5] := by decide +kernel
  rw [htokens] at hpositions
  have hcalls : callPositions 0 c.listing = [2, 3, 5] := Option.some.inj hpositions
  rw [hcalls] at hsites
  exact ⟨e, c, h, (c.tree_sited 0).symm.trans htree, hsites⟩

end TemplateBinding
