import TemplateBinding.Proofs.Postfix.Fold
import TemplateBinding.Proofs.Source.Path

set_option autoImplicit false

namespace TemplateBinding

namespace Tree

mutual

/-- The paths of a tree from left to right; `called` tells whether it is the tree itself that a
call calls. -/
def uses (called : Bool) : Tree → List PathUse
  | .literal _ => []
  | .path root segments => [⟨root, segments, called⟩]
  | .index holder key => uses false holder ++ uses false key
  | .unary _ operand => uses false operand
  | .binary _ left right => uses false left ++ uses false right
  | .conditional condition yes no => uses false condition ++ uses false yes ++ uses false no
  | .call callee args => uses true callee ++ itemUses args
  | .array items => itemUses items
  | .object entries => entryUses entries

def itemUses : List Tree → List PathUse
  | [] => []
  | t :: ts => uses false t ++ itemUses ts

def entryUses : List (String × Tree) → List PathUse
  | [] => []
  | (_, t) :: entries => uses false t ++ entryUses entries

end

theorem mem_itemUses {u : PathUse} {t : Tree} {ts : List Tree} (ht : t ∈ ts)
    (hu : u ∈ t.uses false) : u ∈ itemUses ts := by
  induction ht with
  | head => exact List.mem_append_left _ hu
  | tail _ _ ih => exact List.mem_append_right _ ih

theorem mem_entryUses {u : PathUse} {e : String × Tree} {entries : List (String × Tree)}
    (he : e ∈ entries) (hu : u ∈ e.2.uses false) : u ∈ entryUses entries := by
  induction he with
  | head => exact List.mem_append_left _ hu
  | tail _ _ ih => exact List.mem_append_right _ ih

end Tree

namespace Construct

mutual

/-- The paths of a construct from left to right, each at the position of its first token. -/
def sighted (k : Nat) (called : Bool) : Construct → List Sighting
  | .literal _ _ _ => []
  | .identifier _ root segments _ _ => [⟨⟨root, segments, called⟩, k⟩]
  | .property holder name =>
    match Tree.member (!holder.isCalled) holder.tree (.literal (.string name)) with
    | .path root segments => [⟨⟨root, segments, called⟩, k⟩]
    | _ => sighted k holder.isCalled holder
  | .index holder key =>
    match Tree.member (!holder.isCalled) holder.tree key.tree with
    | .path root segments => [⟨⟨root, segments, called⟩, k⟩]
    | _ => sighted k holder.isCalled holder ++ sighted (k + holder.size) key.isCalled key
  | .call callee args => sighted k true callee ++ itemSighted (k + callee.size) args
  | .array items => itemSighted k items
  | .object entries => entrySighted k entries
  | .unary _ _ operand => sighted k operand.isCalled operand
  | .binary _ _ left right =>
      sighted k left.isCalled left ++ sighted (k + left.size) right.isCalled right
  | .conditional condition yes no => sighted k condition.isCalled condition ++
      sighted (k + condition.size) yes.isCalled yes ++
        sighted (k + condition.size + yes.size) no.isCalled no

def itemSighted (k : Nat) : List Construct → List Sighting
  | [] => []
  | c :: cs => sighted k c.isCalled c ++ itemSighted (k + c.size) cs

def entrySighted (k : Nat) : List (String × Construct) → List Sighting
  | [] => []
  | (_, c) :: entries =>
    sighted (k + 1) c.isCalled c ++ entrySighted (k + 1 + c.size) entries

end

theorem recorded_of_leaf {c : Construct} (k : Nat)
    (h : (∃ v, c.tree = .literal v) ∨ ∃ root segments, c.tree = .path root segments) :
    c.recorded k = [] := by
  induction c generalizing k with
  | literal => rfl
  | identifier => rfl
  | property holder name ih =>
    obtain ⟨root, segments, n, -, hp, -, hm⟩ | hm :=
      Tree.member_cases (!holder.isCalled) holder.tree (.literal (.string name))
    · simp [recorded, hm, Tree.isPath, ih k (.inr ⟨_, _, hp⟩)]
    · simp [tree, hm] at h
  | index holder key ihh ihk =>
    obtain ⟨root, segments, n, -, hp, hk, hm⟩ | hm :=
      Tree.member_cases (!holder.isCalled) holder.tree key.tree
    · simp [recorded, hm, Tree.isPath, ihh k (.inr ⟨_, _, hp⟩),
        ihk (k + holder.size) (.inl (Tree.eq_literal_of_literalName? hk))]
    · simp [tree, hm] at h
  | _ => simp [tree] at h

theorem shuffle {α : Type} (a b c d : List α) :
    (a ++ b ++ (c ++ d)).Perm (a ++ c ++ (b ++ d)) := by
  have h : (b ++ c).Perm (c ++ b) := List.perm_append_comm
  simpa using (h.append_right d).append_left a

theorem perm_itemSighted {cs : List Construct}
    (h : ∀ c ∈ cs, ∀ k called, (c.recorded k ++ c.pending k called).Perm (c.sighted k called))
    (k : Nat) : (itemRecorded k cs ++ itemPending k cs).Perm (itemSighted k cs) := by
  induction cs generalizing k with
  | nil => exact .nil
  | cons c cs ih =>
    obtain ⟨hc, hcs⟩ := List.forall_mem_cons.1 h
    exact (shuffle _ _ _ _).trans ((hc k c.isCalled).append (ih hcs (k + c.size)))

theorem perm_entrySighted {entries : List (String × Construct)}
    (h : ∀ e ∈ entries, ∀ k called,
      (e.2.recorded k ++ e.2.pending k called).Perm (e.2.sighted k called))
    (k : Nat) : (entryRecorded k entries ++ entryPending k entries).Perm (entrySighted k entries) := by
  induction entries generalizing k with
  | nil => exact .nil
  | cons e entries ih =>
    obtain ⟨he, hes⟩ := List.forall_mem_cons.1 h
    exact (shuffle _ _ _ _).trans ((he (k + 1) e.2.isCalled).append (ih hes (k + 1 + e.2.size)))

/-- What a construct records, and what it leaves open, are its sightings. -/
theorem perm_sighted (c : Construct) (k : Nat) (called : Bool) :
    (c.recorded k ++ c.pending k called).Perm (c.sighted k called) := by
  induction c generalizing k called with
  | literal => exact .nil
  | identifier => exact .rfl
  | property holder name ih =>
    obtain ⟨root, segments, n, -, hp, -, hm⟩ | hm :=
      Tree.member_cases (!holder.isCalled) holder.tree (.literal (.string name))
    · have hr := recorded_of_leaf (c := holder) k (.inr ⟨_, _, hp⟩)
      simp [recorded, sighted, pending, tree, hm, hr, Tree.isPath]
    · simpa [recorded, sighted, pending, tree, hm, Tree.isPath] using ih k holder.isCalled
  | index holder key ihh ihk =>
    obtain ⟨root, segments, n, -, hp, hk, hm⟩ | hm :=
      Tree.member_cases (!holder.isCalled) holder.tree key.tree
    · have hr := recorded_of_leaf (c := holder) k (.inr ⟨_, _, hp⟩)
      have hs := recorded_of_leaf (c := key) (k + holder.size)
        (.inl (Tree.eq_literal_of_literalName? hk))
      simp [recorded, sighted, pending, tree, hm, hr, hs, Tree.isPath]
    · have h := (shuffle _ _ _ _).trans
        ((ihh k holder.isCalled).append (ihk (k + holder.size) key.isCalled))
      simpa [recorded, sighted, pending, tree, hm, Tree.isPath] using h
  | call callee args ihc iha =>
    have h := (shuffle _ _ _ _).trans
      ((ihc k true).append (perm_itemSighted iha (k + callee.size)))
    simpa [recorded, sighted, pending, tree] using h
  | array items ih => simpa [recorded, sighted, pending, tree] using perm_itemSighted ih k
  | object entries ih => simpa [recorded, sighted, pending, tree] using perm_entrySighted ih k
  | unary op h operand ih =>
    simpa [recorded, sighted, pending, tree] using ih k operand.isCalled
  | binary op h left right ihl ihr =>
    have hall : ∀ c ∈ [left, right], ∀ k called,
        (c.recorded k ++ c.pending k called).Perm (c.sighted k called) := by simp [ihl, ihr]
    simpa [recorded, sighted, pending, tree, itemRecorded, itemSighted] using
      perm_itemSighted hall k
  | conditional condition yes no ihc ihy ihn =>
    have hall : ∀ c ∈ [condition, yes, no], ∀ k called,
        (c.recorded k ++ c.pending k called).Perm (c.sighted k called) := by
      simp [ihc, ihy, ihn]
    simpa [recorded, sighted, pending, tree, itemRecorded, itemSighted] using
      perm_itemSighted hall k

theorem map_itemSighted {cs : List Construct} (h : ∀ c ∈ cs, ∀ k called, c.Regular called →
      (c.sighted k called).map Sighting.toPathUse = c.tree.uses called)
    (hr : ItemsRegular cs) (k : Nat) :
    (itemSighted k cs).map Sighting.toPathUse = Tree.itemUses (itemTrees cs) := by
  induction cs generalizing k with
  | nil => rfl
  | cons c cs ih =>
    obtain ⟨hc, hcs⟩ := List.forall_mem_cons.1 h
    simp only [itemSighted, itemTrees, Tree.itemUses, List.map_append,
      isCalled_of_regular hr.1, hc k false hr.1, ih hcs hr.2]

theorem map_entrySighted {entries : List (String × Construct)}
    (h : ∀ e ∈ entries, ∀ k called, e.2.Regular called →
      (e.2.sighted k called).map Sighting.toPathUse = e.2.tree.uses called)
    (hr : EntriesRegular entries) (k : Nat) :
    (entrySighted k entries).map Sighting.toPathUse = Tree.entryUses (entryTrees entries) := by
  induction entries generalizing k with
  | nil => rfl
  | cons e entries ih =>
    obtain ⟨he, hes⟩ := List.forall_mem_cons.1 h
    simp only [entrySighted, entryTrees, Tree.entryUses, List.map_append,
      isCalled_of_regular hr.1, he (k + 1) false hr.1, ih hes hr.2]

theorem map_sighted {c : Construct} (k : Nat) {called : Bool} (h : c.Regular called) :
    (c.sighted k called).map Sighting.toPathUse = c.tree.uses called := by
  induction c generalizing k called with
  | literal => rfl
  | identifier => rfl
  | property holder name ih =>
    have hc := isCalled_of_regular h.1
    obtain ⟨root, segments, n, -, -, -, hm⟩ | hm :=
      Tree.member_cases true holder.tree (.literal (.string name))
    · simp [sighted, tree, hc, hm, Tree.uses]
    · simp [sighted, tree, hc, hm, Tree.uses, ih k h.1]
  | index holder key ihh ihk =>
    have hc := isCalled_of_regular h.1
    have hck := isCalled_of_regular h.2
    obtain ⟨root, segments, n, -, -, -, hm⟩ | hm :=
      Tree.member_cases true holder.tree key.tree
    · simp [sighted, tree, hc, hm, Tree.uses]
    · simp [sighted, tree, hc, hm, Tree.uses, hck, ihh k h.1, ihk (k + holder.size) h.2]
  | call callee args ihc iha =>
    have ha := map_itemSighted iha h.2 (k + callee.size)
    simp [sighted, tree, Tree.uses, ihc k h.1, ha]
  | array items ih => simpa [sighted, tree, Tree.uses] using map_itemSighted ih h k
  | object entries ih => simpa [sighted, tree, Tree.uses] using map_entrySighted ih h k
  | unary op hop operand ih =>
    have hc := isCalled_of_regular h
    simpa [sighted, tree, Tree.uses, hc] using ih k h
  | binary op hop left right ihl ihr =>
    simp [sighted, tree, Tree.uses, isCalled_of_regular h.1, isCalled_of_regular h.2,
      ihl k h.1, ihr (k + left.size) h.2]
  | conditional condition yes no ihc ihy ihn =>
    simp [sighted, tree, Tree.uses, isCalled_of_regular h.1, isCalled_of_regular h.2.1,
      isCalled_of_regular h.2.2, ihc k h.1, ihy (k + condition.size) h.2.1,
      ihn (k + condition.size + yes.size) h.2.2]

end Construct

namespace PathUse

/-- The names that are read of a path. A callee is read through its receiver, if it has one. -/
def watched (u : PathUse) : List String :=
  if u.callee && 1 < (u.root.names ++ u.segments).length then u.segments.dropLast else u.segments

def text (u : PathUse) : String := ".".intercalate (u.root.names ++ u.watched)

end PathUse

def Sighting.read (s : Sighting) : Read := ⟨s.ordinal, s.text⟩

namespace Reads

theorem record_eq (reads : Reads) (s : Sighting) :
    reads.record s.root s.segments s.ordinal s.callee =
      match s.root with
      | .context => { reads with context := s.read :: reads.context }
      | .alias _ => { reads with aliases := s.read :: reads.aliases } := by
  obtain ⟨⟨root, segments, callee⟩, ordinal⟩ := s
  cases root with
  | context => rfl
  | «alias» name =>
    cases segments with
    | nil => simp [record, Sighting.read, PathUse.text, PathUse.watched, Root.names]
    | cons first rest =>
      cases callee <;>
        simp [record, Sighting.read, PathUse.text, PathUse.watched, Root.names]

theorem context_recordAll (reads : Reads) (sightings : List Sighting) :
    (reads.recordAll sightings).context =
      ((sightings.filter (·.root = .context)).map Sighting.read).reverse ++ reads.context := by
  induction sightings generalizing reads with
  | nil => rfl
  | cons s sightings ih =>
    have h := ih (reads.record s.root s.segments s.ordinal s.callee)
    rw [recordAll, List.foldl_cons, ← recordAll, h, record_eq]
    cases hr : s.root <;> simp [hr]

theorem aliases_recordAll (reads : Reads) (sightings : List Sighting) :
    (reads.recordAll sightings).aliases =
      ((sightings.filter (·.root ≠ .context)).map Sighting.read).reverse ++ reads.aliases := by
  induction sightings generalizing reads with
  | nil => rfl
  | cons s sightings ih =>
    have h := ih (reads.record s.root s.segments s.ordinal s.callee)
    rw [recordAll, List.foldl_cons, ← recordAll, h, record_eq]
    cases hr : s.root <;> simp [hr]

end Reads

end TemplateBinding
