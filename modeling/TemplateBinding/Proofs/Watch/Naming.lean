import TemplateBinding.Proofs.Watch.Order

set_option autoImplicit false

namespace TemplateBinding

def Token.isPlain (t : Token) : Bool :=
  match t.lexical with
  | .string s => !s.toList.contains '.'
  | _ => true

/-- No key in brackets that is a text holds a dot: such a key is the last token before the token
of its brackets. -/
def PlainKeys (tokens : List Token) : Prop :=
  ∀ s : String, [⟨.string s, 0⟩, ⟨.index, 0⟩] <:+: tokens → '.' ∉ s.toList

def KeyIn (name : String) (tokens : List Token) : Prop :=
  [⟨.string name, 0⟩, ⟨.index, 0⟩] <:+: tokens

theorem plainKeys_of_all {tokens : List Token} (h : tokens.all Token.isPlain = true) :
    PlainKeys tokens := by
  intro s hs
  have hm : (⟨.string s, 0⟩ : Token) ∈ tokens := hs.mem List.mem_cons_self
  simpa [Token.isPlain] using List.all_eq_true.1 h _ hm

namespace PathUse

variable {u : PathUse} {tokens : List Token}

theorem mem_names_of_mem_watched {name : String} (h : name ∈ u.root.names ++ u.watched) :
    name ∈ u.root.names ++ u.segments := by
  unfold watched at h
  split at h
  · rcases List.mem_append.1 h with h | h
    · exact List.mem_append_left _ h
    · exact List.mem_append_right _ ((List.dropLast_sublist _).mem h)
  · exact h

theorem names_watched_ne_nil (h : u.root.names ++ u.segments ≠ []) :
    u.root.names ++ u.watched ≠ [] := by
  unfold watched
  split
  · next hl =>
    intro hn
    have hl := of_decide_eq_true (Bool.and_eq_true_iff.1 hl).2
    have hlen := congrArg List.length hn
    rw [List.length_append] at hl
    rw [List.length_append, List.length_dropLast, List.length_nil] at hlen
    omega
  · exact h

/-- What is recorded of a path is split into its names just where no dot is in them. -/
theorem names_text_iff (h : u.root.names ++ u.segments ≠ []) :
    Text.names u.text = u.root.names ++ u.watched ↔
      ∀ name ∈ u.root.names ++ u.watched, '.' ∉ name.toList :=
  Text.names_intercalate_iff (names_watched_ne_nil h)

/-- The names of a path can be told from its text. -/
def Plain (u : PathUse) : Prop :=
  u.root.names ++ u.segments ≠ [] ∧ ∀ name ∈ u.root.names ++ u.segments, '.' ∉ name.toList

theorem Plain.names_text (h : u.Plain) : Text.names u.text = u.root.names ++ u.watched :=
  (names_text_iff h.1).2 fun name hm => h.2 name (mem_names_of_mem_watched hm)

/-- A path has names, and those that hold a dot are keys in brackets. -/
structure NamedIn (tokens : List Token) (u : PathUse) : Prop where
  ne_nil : u.root.names ++ u.segments ≠ []
  keyIn : ∀ name ∈ u.root.names ++ u.segments, '.' ∈ name.toList → KeyIn name tokens

namespace NamedIn

theorem mono {part : List Token} (h : NamedIn part u) (hp : part <:+: tokens) :
    NamedIn tokens u :=
  ⟨h.ne_nil, fun name hm hd => (h.keyIn name hm hd).trans hp⟩

theorem snoc {root : Root} {segments : List String} {called callee : Bool} {name : String}
    (h : NamedIn tokens ⟨root, segments, called⟩) (hn : '.' ∈ name.toList → KeyIn name tokens) :
    NamedIn tokens ⟨root, segments ++ [name], callee⟩ := by
  refine ⟨by simp, fun n hm hd => ?_⟩
  rw [← List.append_assoc] at hm
  rcases List.mem_append.1 hm with hm | hm
  · exact h.keyIn n hm hd
  · cases List.mem_singleton.1 hm
    exact hn hd

theorem plain (h : NamedIn tokens u) (hk : PlainKeys tokens) : u.Plain :=
  ⟨h.ne_nil, fun name hm hd => hk name (h.keyIn name hm hd) hd⟩

end NamedIn

end PathUse

namespace Construct

theorem dot_not_mem_whole (n : Int) : '.' ∉ Number.whole n := by
  have hd : '.' ∉ Number.digits n.natAbs := fun h =>
    absurd (Nat.isDigit_of_mem_toDigits (by decide) (by decide) h) (by decide)
  unfold Number.whole Number.signed
  split
  · simp [hd]
  · exact hd

theorem listing_of_dotted_name {key : Construct} {name : String}
    (h : key.tree.literalName? = some name) (hd : '.' ∈ name.toList) :
    key.listing = [⟨.string name, 0⟩] := by
  cases key with
  | literal l v hl =>
    cases l with
    | string s =>
      cases hl
      cases h
      rfl
    | integer n =>
      cases hl
      simp only [tree, Tree.literalName?] at h
      split at h
      · cases h
        rw [String.toList_ofList] at hd
        exact absurd hd (dot_not_mem_whole _)
      · cases h
    | _ => cases hl <;> cases h
  | property holder name =>
    obtain ⟨_, _, _, -, -, -, hm⟩ | hm :=
      Tree.member_cases (!holder.isCalled) holder.tree (.literal (.string name)) <;>
    simp [tree, hm, Tree.literalName?] at h
  | index holder key =>
    obtain ⟨_, _, _, -, -, -, hm⟩ | hm :=
      Tree.member_cases (!holder.isCalled) holder.tree key.tree <;>
    simp [tree, hm, Tree.literalName?] at h
  | _ => cases h

theorem namedIn_itemUses {cs : List Construct}
    (h : ∀ c ∈ cs, c.Regular false → ∀ u ∈ c.tree.uses false, u.NamedIn c.listing)
    (hr : ItemsRegular cs) : ∀ u ∈ Tree.itemUses (itemTrees cs), u.NamedIn (itemListing cs) := by
  induction cs with
  | nil => exact nofun
  | cons c cs ih =>
    obtain ⟨hc, hcs⟩ := List.forall_mem_cons.1 h
    exact List.forall_mem_append.2
      ⟨fun u hu => (hc hr.1 u hu).mono (infix_itemListing List.mem_cons_self),
        fun u hu => (ih hcs hr.2 u hu).mono (List.suffix_append _ _).isInfix⟩

theorem namedIn_entryUses {entries : List (String × Construct)}
    (h : ∀ e ∈ entries, e.2.Regular false → ∀ u ∈ e.2.tree.uses false, u.NamedIn e.2.listing)
    (hr : EntriesRegular entries) :
    ∀ u ∈ Tree.entryUses (entryTrees entries), u.NamedIn (entryListing entries) := by
  induction entries with
  | nil => exact nofun
  | cons e entries ih =>
    obtain ⟨he, hes⟩ := List.forall_mem_cons.1 h
    have hrest : entryListing entries <:+: entryListing (e :: entries) :=
      ⟨⟨.key e.1, 0⟩ :: e.2.listing, [], by simp [entryListing]⟩
    exact List.forall_mem_append.2
      ⟨fun u hu => (he hr.1 u hu).mono (infix_entryListing List.mem_cons_self),
        fun u hu => (ih hes hr.2 u hu).mono hrest⟩

theorem namedIn_uses_member {tokens : List Token} {grows called : Bool} {holder key : Tree}
    (hh : ∀ u ∈ holder.uses false, u.NamedIn tokens) (hk : ∀ u ∈ key.uses false, u.NamedIn tokens)
    (hn : ∀ name, key.literalName? = some name → '.' ∈ name.toList → KeyIn name tokens) :
    ∀ u ∈ (Tree.member grows holder key).uses called, u.NamedIn tokens := by
  obtain ⟨root, segments, name, -, rfl, hname, hm⟩ | hm := Tree.member_cases grows holder key
  · rw [hm]
    exact List.forall_mem_singleton.2 ((hh _ List.mem_cons_self).snoc (hn name hname))
  · rw [hm]
    exact List.forall_mem_append.2 ⟨hh, hk⟩

/-- A name of a path of a source that holds a dot is a key in brackets. -/
theorem namedIn_uses {c : Construct} {called : Bool} (hr : c.Regular called) :
    ∀ u ∈ c.tree.uses called, u.NamedIn c.listing := by
  -- every operand is listed within the listing of the whole
  have part {us : List PathUse} {part whole : List Token} (h : ∀ u ∈ us, u.NamedIn part)
      (hp : part <:+: whole) : ∀ u ∈ us, u.NamedIn whole := fun u hu => (h u hu).mono hp
  induction c generalizing called with
  | literal => exact nofun
  | identifier text root segments h marked =>
    exact List.forall_mem_singleton.2 ⟨ne_nil_of_splitIdentifier h,
      fun name hm hd => absurd hd (dot_not_mem_of_splitIdentifier h name hm)⟩
  | property holder name ih =>
    refine namedIn_uses_member (part (ih hr.1) (List.prefix_append _ _).isInfix) nofun ?_
    intro n hn hd
    cases hn
    exact absurd hd hr.2
  | index holder key ihh ihk =>
    refine namedIn_uses_member (part (ihh hr.1) ⟨[], key.listing ++ [⟨.index, 0⟩], ?_⟩)
      (part (ihk hr.2) ⟨holder.listing, [⟨.index, 0⟩], rfl⟩) fun name hn hd => ?_
    · simp [listing]
    · refine ⟨holder.listing, [], ?_⟩
      simp [listing, listing_of_dotted_name hn hd]
  | call callee args ihc iha =>
    refine List.forall_mem_append.2 ⟨part (ihc hr.1) ⟨[], itemListing args ++
      [⟨.call, args.length⟩], ?_⟩, part (namedIn_itemUses (fun c hc => iha c hc) hr.2)
        ⟨callee.listing, [⟨.call, args.length⟩], rfl⟩⟩
    simp [listing]
  | array items ih =>
    exact part (namedIn_itemUses (fun c hc => ih c hc) hr) (List.prefix_append _ _).isInfix
  | object entries ih =>
    exact part (namedIn_entryUses (fun e he => ih e he) hr) (List.prefix_append _ _).isInfix
  | unary op h operand ih => exact part (ih hr) (List.prefix_append _ _).isInfix
  | binary op h left right ihl ihr =>
    refine List.forall_mem_append.2 ⟨part (ihl hr.1) ⟨[], right.listing ++ [.operator op], ?_⟩,
      part (ihr hr.2) ⟨left.listing, [.operator op], rfl⟩⟩
    simp [listing]
  | conditional condition yes no ihc ihy ihn =>
    refine List.forall_mem_append.2 ⟨List.forall_mem_append.2
      ⟨part (ihc hr.1) ⟨[], yes.listing ++ no.listing ++ [.operator .conditional], ?_⟩,
        part (ihy hr.2.1) ⟨condition.listing, no.listing ++ [.operator .conditional], ?_⟩⟩,
      part (ihn hr.2.2) ⟨condition.listing ++ yes.listing, [.operator .conditional], rfl⟩⟩
    · simp [listing]
    · simp [listing]

theorem plain_uses {c : Construct} {called : Bool} (hr : c.Regular called)
    (hk : PlainKeys c.listing) : ∀ u ∈ c.tree.uses called, u.Plain := fun u hu =>
  (namedIn_uses hr u hu).plain hk

end Construct

/-- What is recorded of a path is split into its names just where no dot is in them, and a dot
comes from a key in brackets. Without such keys, paths with different names are recorded
differently, and what is watched is split into the names of a path. -/
theorem watched_unambiguous {limits : Limits} {source : String} {tokens : List Token}
    {e : Expression} (ht : tokenize limits source = .ok tokens)
    (hp : Expression.parse limits source = .ok e) :
    (∀ u ∈ e.root.uses false,
      (Text.names u.text = u.root.names ++ u.watched ↔
        ∀ name ∈ u.root.names ++ u.watched, '.' ∉ name.toList) ∧
      ∀ name ∈ u.root.names ++ u.watched, '.' ∈ name.toList → KeyIn name tokens) ∧
    (PlainKeys tokens →
      (∀ u ∈ e.root.uses false, ∀ v ∈ e.root.uses false,
        u.root.names ++ u.watched ≠ v.root.names ++ v.watched → u.text ≠ v.text) ∧
      (∀ path, path ∈ e.identifiers ↔ ∃ u ∈ e.root.uses false, u.root = .context ∧
        u.text = path ∧ Text.names path = u.root.names ++ u.watched) ∧
      (∀ path, path ∈ e.aliases ↔ ∃ u ∈ e.root.uses false, u.root ≠ .context ∧
        u.text = path ∧ Text.names path = u.root.names ++ u.watched)) := by
  obtain ⟨c, hc, htc, hroot, -, -⟩ := Expression.exists_construct_of_parse hp
  cases ht.symm.trans htc
  have hnamed : ∀ u ∈ e.root.uses false, u.NamedIn c.listing :=
    hroot ▸ Construct.namedIn_uses hc
  refine ⟨fun u hu => ⟨PathUse.names_text_iff (hnamed u hu).ne_nil, fun name hm =>
    (hnamed u hu).keyIn name (PathUse.mem_names_of_mem_watched hm)⟩, fun hk => ?_⟩
  have hnames (u : PathUse) (hu : u ∈ e.root.uses false) :
      Text.names u.text = u.root.names ++ u.watched := ((hnamed u hu).plain hk).names_text
  have hsplit (p : PathUse → Prop) (path : String) :
      (∃ u ∈ e.root.uses false, p u ∧ u.text = path) ↔
        ∃ u ∈ e.root.uses false, p u ∧ u.text = path ∧
          Text.names path = u.root.names ++ u.watched :=
    ⟨fun ⟨u, hu, hpu, htext⟩ => ⟨u, hu, hpu, htext, htext ▸ hnames u hu⟩,
      fun ⟨u, hu, hpu, htext, _⟩ => ⟨u, hu, hpu, htext⟩⟩
  refine ⟨fun u hu v hv hne htext => hne ?_,
    fun path => (Expression.mem_identifiers_iff hp).trans (hsplit (·.root = .context) path),
    fun path => (Expression.mem_aliases_iff hp).trans (hsplit (·.root ≠ .context) path)⟩
  rw [← hnames u hu, ← hnames v hv, htext]

theorem watched_unambiguous_member : ∃ e, Expression.parse {} "a['b'] + a.c" = .ok e ∧
    (∀ path, path ∈ e.identifiers ↔ ∃ u ∈ e.root.uses false, u.root = .context ∧
      u.text = path ∧ Text.names path = u.root.names ++ u.watched) := by
  obtain ⟨tokens, ht⟩ := exists_eq_ok (x := tokenize {} "a['b'] + a.c") (by decide +kernel)
  obtain ⟨e, h⟩ := exists_eq_ok (x := Expression.parse {} "a['b'] + a.c") (by decide +kernel)
  have hall : (tokenize {} "a['b'] + a.c").toOption.all (List.all · Token.isPlain) = true := by
    decide +kernel
  rw [ht] at hall
  exact ⟨e, h, ((watched_unambiguous ht h).2 (plainKeys_of_all hall)).2.1⟩

deriving instance DecidableEq for PathUse

/-- A key in brackets that holds a dot is recorded like two names, so that one of two paths is
not told from the other. -/
theorem watched_ambiguous_dotted_key : ∃ e, Expression.parse {} "a.b.c + a['b.c']" = .ok e ∧
    e.identifiers = ["a.b.c"] ∧
    ∃ u ∈ e.root.uses false, ∃ v ∈ e.root.uses false, u.root = .context ∧ v.root = .context ∧
      u.watched = ["a", "b", "c"] ∧ v.watched = ["a", "b.c"] ∧ u.text = v.text ∧
      Text.names v.text ≠ v.watched := by
  obtain ⟨e, h⟩ := exists_eq_ok (x := Expression.parse {} "a.b.c + a['b.c']") (by decide +kernel)
  have huses : (Expression.parse {} "a.b.c + a['b.c']").toOption.map (·.root.uses false) =
      some [⟨.context, ["a", "b", "c"], false⟩, ⟨.context, ["a", "b.c"], false⟩] := by
    decide +kernel
  rw [h] at huses
  have huses : e.root.uses false = _ := Option.some.inj huses
  refine ⟨e, h, ?_, ?_⟩
  · rw [Expression.identifiers_eq h, huses]
    decide +kernel
  · rw [huses]
    exact ⟨_, List.mem_cons_self, _, List.mem_cons_of_mem _ List.mem_cons_self, rfl, rfl, rfl, rfl,
      by decide +kernel, by decide +kernel⟩

end TemplateBinding
