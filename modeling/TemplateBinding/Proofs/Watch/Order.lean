import TemplateBinding.Proofs.Postfix.Arity
import TemplateBinding.Proofs.Watch.Uses

set_option autoImplicit false

namespace TemplateBinding

/-- The positions of the sightings ascend from `k` on and stay below `n`. -/
structure Spans (k n : Nat) (sightings : List Sighting) : Prop where
  ascends : sightings.Pairwise fun s t => s.ordinal < t.ordinal
  bounds : ∀ s ∈ sightings, k ≤ s.ordinal ∧ s.ordinal < n

namespace Spans

variable {k m n : Nat} {ss ts : List Sighting}

theorem nil : Spans k n [] := ⟨.nil, nofun⟩

theorem singleton {u : PathUse} (h : k < n) : Spans k n [⟨u, k⟩] :=
  ⟨List.pairwise_singleton _ _, List.forall_mem_singleton.2 ⟨Nat.le_refl k, h⟩⟩

theorem append (hs : Spans k m ss) (ht : Spans m n ts) (hk : k ≤ m) (hn : m ≤ n) :
    Spans k n (ss ++ ts) := by
  refine ⟨List.pairwise_append.2 ⟨hs.ascends, ht.ascends, fun s hsm t htm => ?_⟩,
    List.forall_mem_append.2 ⟨fun s hsm => ?_, fun t htm => ?_⟩⟩
  · exact Nat.lt_of_lt_of_le (hs.bounds s hsm).2 (ht.bounds t htm).1
  · exact ⟨(hs.bounds s hsm).1, Nat.lt_of_lt_of_le (hs.bounds s hsm).2 hn⟩
  · exact ⟨Nat.le_trans hk (ht.bounds t htm).1, (ht.bounds t htm).2⟩

theorem mono {k' n' : Nat} (h : Spans k n ss) (hk : k' ≤ k) (hn : n ≤ n') : Spans k' n' ss :=
  ⟨h.ascends, fun s hs =>
    ⟨Nat.le_trans hk (h.bounds s hs).1, Nat.lt_of_lt_of_le (h.bounds s hs).2 hn⟩⟩

end Spans

namespace Construct

theorem spans_itemSighted {cs : List Construct}
    (h : ∀ c ∈ cs, ∀ k called, Spans k (k + c.size) (c.sighted k called)) (k : Nat) :
    Spans k (k + (itemListing cs).length) (itemSighted k cs) := by
  induction cs generalizing k with
  | nil => exact .nil
  | cons c cs ih =>
    obtain ⟨hc, hcs⟩ := List.forall_mem_cons.1 h
    have hlen : (itemListing (c :: cs)).length = c.size + (itemListing cs).length :=
      List.length_append
    rw [hlen, ← Nat.add_assoc]
    exact (hc k c.isCalled).append (ih hcs _) (by omega) (by omega)

theorem spans_entrySighted {entries : List (String × Construct)}
    (h : ∀ e ∈ entries, ∀ k called, Spans k (k + e.2.size) (e.2.sighted k called)) (k : Nat) :
    Spans k (k + (entryListing entries).length) (entrySighted k entries) := by
  induction entries generalizing k with
  | nil => exact .nil
  | cons e entries ih =>
    obtain ⟨he, hes⟩ := List.forall_mem_cons.1 h
    have hlen : (entryListing (e :: entries)).length =
        1 + e.2.size + (entryListing entries).length := by
      simp only [entryListing, List.length_cons, List.length_append, size]
      omega
    rw [hlen]
    exact ((he (k + 1) e.2.isCalled).append (ih hes _) (by omega) (by omega)).mono
      (by omega) (by omega)

theorem spans_sighted (c : Construct) (k : Nat) (called : Bool) :
    Spans k (k + c.size) (c.sighted k called) := by
  induction c generalizing k called with
  | literal => exact .nil
  | identifier => exact .singleton (Nat.lt_succ_self k)
  | property holder name ih =>
    have hsize : (Construct.property holder name).size = holder.size + 1 := List.length_append
    rw [hsize, sighted]
    split
    · exact .singleton (by omega)
    · exact (ih k _).mono (Nat.le_refl k) (by omega)
  | index holder key ihh ihk =>
    have hsize : (Construct.index holder key).size = holder.size + key.size + 1 := by
      simp only [size, listing, List.length_append, List.length_singleton]
    rw [hsize, sighted]
    split
    · exact .singleton (by omega)
    · exact ((ihh k _).append (ihk _ _) (by omega) (by omega)).mono (Nat.le_refl k) (by omega)
  | call callee args ihc iha =>
    have hsize : (Construct.call callee args).size =
        callee.size + (itemListing args).length + 1 := by
      simp only [size, listing, List.length_append, List.length_singleton]
    rw [hsize, sighted]
    exact ((ihc k true).append (spans_itemSighted iha _) (by omega) (by omega)).mono
      (Nat.le_refl k) (by omega)
  | array items ih =>
    have hsize : (Construct.array items).size = (itemListing items).length + 1 :=
      List.length_append
    rw [hsize, sighted]
    exact (spans_itemSighted ih k).mono (Nat.le_refl k) (by omega)
  | object entries ih =>
    have hsize : (Construct.object entries).size = (entryListing entries).length + 1 :=
      List.length_append
    rw [hsize, sighted]
    exact (spans_entrySighted ih k).mono (Nat.le_refl k) (by omega)
  | unary op h operand ih =>
    have hsize : (Construct.unary op h operand).size = operand.size + 1 := List.length_append
    rw [hsize, sighted]
    exact (ih k _).mono (Nat.le_refl k) (by omega)
  | binary op h left right ihl ihr =>
    have hsize : (Construct.binary op h left right).size = left.size + right.size + 1 := by
      simp only [size, listing, List.length_append, List.length_singleton]
    rw [hsize, sighted]
    exact ((ihl k _).append (ihr _ _) (by omega) (by omega)).mono (Nat.le_refl k) (by omega)
  | conditional condition yes no ihc ihy ihn =>
    have hsize : (Construct.conditional condition yes no).size =
        condition.size + yes.size + no.size + 1 := by
      simp only [size, listing, List.length_append, List.length_singleton]
    rw [hsize, sighted]
    exact (((ihc k _).append (ihy _ _) (by omega) (by omega)).append (ihn _ _) (by omega)
      (by omega)).mono (Nat.le_refl k) (by omega)

end Construct

theorem pairwise_mergeSort_ordinal (reads : List Read) :
    (reads.mergeSort fun a b => a.ordinal ≤ b.ordinal).Pairwise
      fun a b => a.ordinal ≤ b.ordinal := by
  refine (List.pairwise_mergeSort ?_ ?_ reads).imp of_decide_eq_true
  · intro a b c hab hbc
    exact decide_eq_true (Nat.le_trans (of_decide_eq_true hab) (of_decide_eq_true hbc))
  · intro a b
    rw [← Bool.decide_or]
    exact decide_eq_true (Nat.le_total a.ordinal b.ordinal)

/-- Reads at different positions come into the order of these, however they were recorded. -/
theorem inOrder_of_perm {reads ordered : List Read} (hp : reads.Perm ordered)
    (ho : ordered.Pairwise fun a b => a.ordinal < b.ordinal) :
    inOrder reads = (ordered.map Read.path).eraseDups := by
  have hperm := (List.mergeSort_perm reads fun a b => a.ordinal ≤ b.ordinal).trans hp
  have hne := (hperm.pairwise_iff fun h => Ne.symm h).2 (ho.imp Nat.ne_of_lt)
  have hlt := ((pairwise_mergeSort_ordinal reads).and hne).imp fun h => Nat.lt_of_le_of_ne h.1 h.2
  rw [inOrder, hperm.eq_of_pairwise (fun _ _ _ _ h h' => absurd h (Nat.lt_asymm h')) hlt ho]

theorem inOrder_reads {sightings ordered : List Sighting} (hp : sightings.Perm ordered)
    (ho : ordered.Pairwise fun s t => s.ordinal < t.ordinal) (p : Root → Bool) :
    inOrder ((sightings.filter (p ·.root)).map Sighting.read).reverse =
      (((ordered.map Sighting.toPathUse).filter (p ·.root)).map PathUse.text).eraseDups := by
  have hreads : ((sightings.filter (p ·.root)).map Sighting.read).reverse.Perm
      ((ordered.filter (p ·.root)).map Sighting.read) :=
    (List.reverse_perm _).trans ((hp.filter _).map _)
  rw [inOrder_of_perm hreads (List.pairwise_map.2 (ho.filter _)), List.map_map, List.filter_map,
    List.map_map]
  rfl

namespace Expression

variable {limits : Limits} {source : String} {e : Expression}

theorem exists_construct_of_parse (h : parse limits source = .ok e) :
    ∃ c : Construct, c.Regular false ∧ tokenize limits source = .ok c.listing ∧
      e.root = c.tree ∧
      e.identifiers = inOrder (({} : Reads).recordAll c.sightings).context ∧
      e.aliases = inOrder (({} : Reads).recordAll c.sightings).aliases := by
  cases ht : tokenize limits source with
  | error fault => simp [parse, ht, bind, Except.bind] at h
  | ok tokens =>
    obtain ⟨c, hc, rfl⟩ := exists_construct_of_arrange (arrange_of_tokenize ht)
    have hb := build_listing limits c
    by_cases hd : c.tree.fits limits.maxDepth
    · rw [if_pos hd] at hb
      simp only [parse, ht, compile, hb, bind, Except.bind] at h
      cases h
      exact ⟨c, hc, rfl, rfl, rfl, rfl⟩
    · rw [if_neg hd] at hb
      simp [parse, ht, compile, hb, bind, Except.bind] at h

theorem perm_sightings {c : Construct} (hc : c.Regular false) :
    c.sightings.Perm (c.sighted 0 false) := by
  rw [Construct.sightings, Construct.isCalled_of_regular hc]
  exact c.perm_sighted 0 false

theorem identifiers_eq (h : parse limits source = .ok e) :
    e.identifiers =
      (((e.root.uses false).filter (·.root = .context)).map PathUse.text).eraseDups := by
  obtain ⟨c, hc, -, hroot, hi, -⟩ := exists_construct_of_parse h
  rw [hi, Reads.context_recordAll, List.append_nil, hroot, ← Construct.map_sighted 0 hc]
  exact inOrder_reads (perm_sightings hc) (c.spans_sighted 0 false).ascends (· = .context)

theorem aliases_eq (h : parse limits source = .ok e) :
    e.aliases =
      (((e.root.uses false).filter (·.root ≠ .context)).map PathUse.text).eraseDups := by
  obtain ⟨c, hc, -, hroot, -, ha⟩ := exists_construct_of_parse h
  rw [ha, Reads.aliases_recordAll, List.append_nil, hroot, ← Construct.map_sighted 0 hc]
  exact inOrder_reads (perm_sightings hc) (c.spans_sighted 0 false).ascends (· ≠ .context)

theorem mem_identifiers_iff (h : parse limits source = .ok e) {path : String} :
    path ∈ e.identifiers ↔ ∃ u ∈ e.root.uses false, u.root = .context ∧ u.text = path := by
  simp [identifiers_eq h, and_assoc]

theorem mem_aliases_iff (h : parse limits source = .ok e) {path : String} :
    path ∈ e.aliases ↔ ∃ u ∈ e.root.uses false, u.root ≠ .context ∧ u.text = path := by
  simp [aliases_eq h, and_assoc]

theorem text_mem_identifiers (h : parse limits source = .ok e) {u : PathUse}
    (hu : u ∈ e.root.uses false) (hr : u.root = .context) : u.text ∈ e.identifiers :=
  (mem_identifiers_iff h).2 ⟨u, hu, hr, rfl⟩

theorem text_mem_aliases (h : parse limits source = .ok e) {u : PathUse}
    (hu : u ∈ e.root.uses false) (hr : u.root ≠ .context) : u.text ∈ e.aliases :=
  (mem_aliases_iff h).2 ⟨u, hu, hr, rfl⟩

end Expression

/-- The watched paths are those of the tree from left to right, each text where it comes first. -/
theorem watched_eq_texts {limits : Limits} {source : String} {e : Expression}
    (h : Expression.parse limits source = .ok e) :
    e.identifiers =
      (((e.root.uses false).filter (·.root = .context)).map PathUse.text).eraseDups ∧
    e.aliases =
      (((e.root.uses false).filter (·.root ≠ .context)).map PathUse.text).eraseDups :=
  ⟨Expression.identifiers_eq h, Expression.aliases_eq h⟩

/-- The left operand comes first, though its path is completed last, and the called path is
watched up to its receiver. -/
theorem watched_eq_texts_call : ∃ e, Expression.parse {} "a.b + @k.f(c, a.b)" = .ok e ∧
    e.identifiers = ["a.b", "c"] ∧ e.aliases = ["k"] := by
  obtain ⟨e, h⟩ := exists_eq_ok (x := Expression.parse {} "a.b + @k.f(c, a.b)") (by decide +kernel)
  have huses : (Expression.parse {} "a.b + @k.f(c, a.b)").toOption.map (fun e =>
      ((((e.root.uses false).filter (·.root = .context)).map PathUse.text).eraseDups,
        (((e.root.uses false).filter (·.root ≠ .context)).map PathUse.text).eraseDups)) =
      some (["a.b", "c"], ["k"]) := by decide +kernel
  rw [h] at huses
  obtain ⟨hi, ha⟩ := Prod.mk.inj (Option.some.inj huses)
  obtain ⟨hidentifiers, haliases⟩ := watched_eq_texts h
  exact ⟨e, h, hidentifiers.trans hi, haliases.trans ha⟩

end TemplateBinding
