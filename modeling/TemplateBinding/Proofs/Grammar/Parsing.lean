import TemplateBinding.Expression
import TemplateBinding.Proofs.Grammar.Steps
import TemplateBinding.Proofs.Postfix.Arrangement
import TemplateBinding.Proofs.Postfix.Fold

/-!
A phrase is parsed to its tree, by induction on the phrase. Behind its words stands an arrangement
in which some operators may have come to wait, but only such as the level of the phrase allows;
once they are emitted, the output is the listing of a construct with the tree of the phrase.
-/

set_option autoImplicit false

namespace TemplateBinding

theorem Token.of_value? {l : Lexical} {v : Value} (h : l.value? = some v) :
    Token.of l = ⟨l, 0⟩ := by
  cases l <;> first | rfl | cases h

theorem Name.isName (n : Name) : IsName n.text := by
  refine ⟨?_, n.parts⟩
  obtain ⟨c, cs, hs, -⟩ := n.start
  rw [hs]
  exact List.cons_ne_nil c cs

theorem DottedPath.isName (p : DottedPath) : ∀ name ∈ p.names, IsName name := by
  intro name hm
  obtain ⟨n, -, rfl⟩ := List.mem_map.1 hm
  exact n.isName

namespace Construct

theorem tree_asCallee (k : Construct) : k.asCallee.tree = k.tree := by cases k <;> rfl

theorem exists_path (p : DottedPath) : ∃ (k : Construct) (token : Token),
    Lexeme.ofPath p.names = .operand token ∧ k.Regular false ∧
      k.tree = Phrase.pathTree p.names ∧ k.listing = [token] := by
  have hne : p.names ≠ [] := List.cons_ne_nil _ _
  have hsplit := splitIdentifier_intercalate hne p.isName
  generalize p.names = names at hsplit
  unfold Lexeme.ofPath
  split
  · exact ⟨.literal (.boolean true) _ rfl, _, rfl, trivial, rfl, rfl⟩
  · exact ⟨.literal (.boolean false) _ rfl, _, rfl, trivial, rfl, rfl⟩
  · exact ⟨.literal .null _ rfl, _, rfl, trivial, rfl, rfl⟩
  · exact ⟨.literal .undefined _ rfl, _, rfl, trivial, rfl, rfl⟩
  · next h1 h2 h3 h4 =>
    refine ⟨.identifier _ _ _ hsplit false, _, rfl, rfl, ?_, rfl⟩
    unfold Phrase.pathTree
    split
    · exact absurd rfl h1
    · exact absurd rfl h2
    · exact absurd rfl h3
    · exact absurd rfl h4
    · rfl

theorem exists_members {k : Construct} (hk : k.Regular false) {names : List String}
    (hn : ∀ name ∈ names, IsName name) : ∃ k' : Construct, k'.Regular false ∧
      k'.tree = Phrase.memberTree k.tree names ∧
        k'.listing = k.listing ++ names.map fun name => Token.of (.property name) := by
  induction names generalizing k with
  | nil => exact ⟨k, hk, rfl, by simp⟩
  | cons name names ih =>
    obtain ⟨hname, hnames⟩ := List.forall_mem_cons.1 hn
    have hp : (Construct.property k name).Regular false := ⟨hk, hname.dot_not_mem⟩
    obtain ⟨k', hr, ht, hl⟩ := ih hp hnames
    refine ⟨k', hr, ?_, ?_⟩
    · rw [ht, tree, isCalled_of_regular hk]
      rfl
    · rw [hl, listing]
      simp [Token.of, Lexical.defaultArity]

end Construct

namespace Arrangement

/-- An operand has been taken up: a construct with the given tree, of which some operators may
still wait. -/
inductive Taken (a : Arrangement) (level : Nat) (tree : Tree) : Arrangement → Prop
  | intro {wait : List Waiting} {output : List Token} {k : Construct} :
      (∀ w ∈ wait, w.HoldsAt level) → k.Regular false → k.tree = tree →
        emitted wait output = k.listing.reverse ++ a.output →
          Taken a level tree (a.behind wait output)

/-- An operand of the level can come next, and brackets can be nested in it so deep. -/
structure Ready (limits : Limits) (a : Arrangement) (level nesting : Nat) : Prop where
  place : a.place ≠ .operator
  keyDue : a.keyDue = false
  admits : Admits level a.waiting
  depth : a.scopes.length + nesting ≤ limits.maxDepth

variable {limits : Limits} {a b : Arrangement} {level level' nesting nesting' : Nat} {t : Tree}

theorem Ready.part (h : Ready limits a level nesting) (hl : level ≤ level')
    (hn : nesting' ≤ nesting) : Ready limits a level' nesting' where
  place := h.place
  keyDue := h.keyDue
  admits := h.admits.mono hl
  depth := Nat.le_trans (Nat.add_le_add_left hn _) h.depth

theorem Ready.behind {w : Waiting} {output : List Token} (h : Ready limits a level nesting)
    (ha : Admits level' (w :: a.waiting)) (hn : nesting' ≤ nesting) :
    Ready limits ⟨output, w :: a.waiting, a.scopes, .operand⟩ level' nesting' where
  place := nofun
  keyDue := h.keyDue
  admits := ha
  depth := Nat.le_trans (Nat.add_le_add_left hn _) h.depth

theorem Taken.of_construct {k : Construct} (hr : k.Regular false) (ht : k.tree = t) :
    Taken a level t (a.behind [] (k.listing.reverse ++ a.output)) :=
  .intro (List.forall_mem_nil _) hr ht rfl

theorem Taken.exists_construct (h : Taken a level t b) (hl : 9 ≤ level) :
    ∃ k : Construct, k.Regular false ∧ k.tree = t ∧
      b = a.behind [] (k.listing.reverse ++ a.output) := by
  cases h with
  | @intro wait output k hw hr ht he =>
    obtain rfl := eq_nil_of_holdsAt hl hw
    exact ⟨k, hr, ht, by rw [← he, emitted_nil]⟩

theorem Taken.concat {wait : List Waiting} {w : Waiting} {before output : List Token} {place : Place}
    {k : Construct} (hw : ∀ w ∈ wait, w.HoldsAt level') (hl : level ≤ level') (h : w.HoldsAt level)
    (hr : k.Regular false) (ht : k.tree = t)
    (he : w.token :: emitted wait output = k.listing.reverse ++ a.output) :
    Taken a level t (behind ⟨before, w :: a.waiting, a.scopes, place⟩ wait output) := by
  have hbehind : behind ⟨before, w :: a.waiting, a.scopes, place⟩ wait output =
      a.behind (wait ++ [w]) output := by
    simp [behind]
  have hholds : ∀ v ∈ wait ++ [w], v.HoldsAt level := by
    intro v hv
    rcases List.mem_append.1 hv with hv | hv
    · exact (hw v hv).mono hl
    · rwa [List.mem_singleton.1 hv]
  rw [hbehind]
  exact .intro hholds hr ht (by rw [emitted_concat, he])

end Arrangement

namespace Phrase

open Arrangement

variable {limits : Limits} {a : Arrangement}

def Parses (p : Phrase) : Prop :=
  ∀ (limits : Limits) (a : Arrangement), Ready limits a p.level p.nesting →
    Arrives limits a p.words (Taken a p.level p.tree)

theorem parses_number (n : NumberWord) : (number n).Parses := by
  intro limits a h
  refine (arrives_operand h.place h.keyDue (Lexeme.reads_number n)).mono ?_
  intro b hb
  subst hb
  have hv := n.value?_lexical
  rw [Token.of_value? hv]
  exact .of_construct (k := .literal n.lexical n.value hv) trivial rfl

theorem parses_quoted (q : Quotation) : (quoted q).Parses := by
  intro limits a h
  refine (arrives_operand h.place h.keyDue (Lexeme.reads_quotation q)).mono ?_
  intro b hb
  subst hb
  exact .of_construct (k := .literal (.string q.text) _ rfl) trivial rfl

theorem parses_path (p : DottedPath) : (path p).Parses := by
  intro limits a h
  obtain ⟨k, token, hp, hr, ht, hl⟩ := Construct.exists_path p
  have hreads := Lexeme.reads_path p
  rw [hp] at hreads
  refine (arrives_operand h.place h.keyDue hreads).mono ?_
  intro b hb
  subst hb
  have htaken : Taken a (path p).level (path p).tree _ := .of_construct hr ht
  rwa [hl] at htaken

theorem parses_aliased (p : DottedPath) : (aliased p).Parses := by
  intro limits a h
  refine (arrives_operand h.place h.keyDue (Lexeme.reads_aliased p)).mono ?_
  intro b hb
  subst hb
  have hs := splitIdentifier_alias p.isName
  exact .of_construct (k := .identifier _ _ _ hs false) rfl rfl

def Denotes (p : Phrase) (k : Construct) : Prop := k.Regular false ∧ k.tree = p.tree

theorem Parses.inScope {p : Phrase} (h : p.Parses) {scope : Scope} {scopes : List Scope}
    (hk : scope.keyDue = false) (hd : scopes.length + (p.nesting + 1) ≤ limits.maxDepth)
    (before : List Token) {place : Place} (hp : place ≠ .operator) :
    Arrives limits ⟨before, [], scope :: scopes, place⟩ p.words fun b => ∃ wait output k,
      b = ⟨output, wait, scope :: scopes, .operator⟩ ∧ (∀ w ∈ wait, w.HoldsAt 0) ∧ Denotes p k ∧
        emitted wait output = k.listing.reverse ++ before := by
  have hready : Ready limits ⟨before, [], scope :: scopes, place⟩ p.level p.nesting := {
    place := hp
    keyDue := keyDue_scope hk
    admits := admits_nil p.level
    depth := by
      simp only [List.length_cons]
      omega }
  refine (h limits _ hready).mono ?_
  intro b hb
  obtain ⟨hw, hr, ht, he⟩ := hb
  refine ⟨_, _, _, ?_, fun w hm => (hw w hm).mono (Nat.zero_le _), ⟨hr, ht⟩, he⟩
  rw [behind, List.append_nil]

theorem Parses.closed {p : Phrase} (h : p.Parses) (kind : ScopeKind) (ho : kind ≠ .object)
    {position : Nat} (hd : a.scopes.length + (p.nesting + 1) ≤ limits.maxDepth) :
    Arrives limits (a.inside kind position) (p.words ++ [[kind.bracket.closer]]) fun b =>
      ∃ k, Denotes p k ∧ b = a.behind []
        ((closingToken? kind 1).toList ++ (k.listing.reverse ++ (a.inside kind position).output)) := by
  have hk : decide (kind = .object) = false := decide_eq_false ho
  have hplace : Place.opened ≠ .operator := by decide
  refine (h.inScope hk hd (a.inside kind position).output hplace).bind ?_
  intro b hb
  obtain ⟨_, _, k, rfl, hw, hitem, he⟩ := hb
  refine (arrives_closing hk hw).mono ?_
  intro b hb
  subst hb
  rw [he]
  exact ⟨k, hitem, rfl⟩

theorem parses_group {inner : Phrase} (h : inner.Parses) : (group inner).Parses := by
  intro limits a hready
  have hd : a.scopes.length + (inner.nesting + 1) ≤ limits.maxDepth := hready.depth
  have hlt : a.scopes.length < limits.maxDepth := by omega
  refine (arrives_opening .round hready.place hready.keyDue hlt).bind ?_
  intro b hb
  obtain ⟨position, rfl⟩ := hb
  refine (h.closed .group nofun hd).mono ?_
  intro b hb
  obtain ⟨k, ⟨hr, ht⟩, rfl⟩ := hb
  exact .of_construct hr ht

theorem Parses.suffixed {holder : Phrase} (h : holder.Parses) (hl : 9 ≤ holder.level)
    {nesting : Nat} (hready : Ready limits a 9 nesting) (hn : holder.nesting ≤ nesting)
    {suffix : List (List Char)} {Q : Arrangement → Prop}
    (hs : ∀ k : Construct, Denotes holder k →
      (a.behind [] (k.listing.reverse ++ a.output)).keyDue = false →
        Arrives limits (a.behind [] (k.listing.reverse ++ a.output)) suffix Q) :
    Arrives limits a (holder.words ++ suffix) Q := by
  refine (h limits a (hready.part hl hn)).bind fun b hb => ?_
  obtain ⟨k, hr, ht, rfl⟩ := hb.exists_construct hl
  exact hs k ⟨hr, ht⟩ hready.keyDue

theorem parses_member {holder : Phrase} (hl : 9 ≤ holder.level) (h : holder.Parses)
    (p : DottedPath) : (member holder p).Parses := by
  intro limits a hready
  refine h.suffixed hl hready (Nat.le_refl _) fun k hholder hkey => ?_
  obtain ⟨hr, ht⟩ := hholder
  refine (arrives_members p rfl hkey).mono ?_
  intro b hb
  subst hb
  obtain ⟨k', hr', ht', hlisting⟩ := Construct.exists_members hr p.isName
  rw [ht] at ht'
  have htaken : Taken a (member holder p).level (member holder p).tree _ := .of_construct hr' ht'
  rw [hlisting] at htaken
  simpa [members, behind] using htaken

theorem parses_index {holder key : Phrase} (hl : 9 ≤ holder.level) (h : holder.Parses)
    (hk : key.Parses) : (index holder key).Parses := by
  intro limits a hready
  have hd : a.scopes.length + max holder.nesting (key.nesting + 1) ≤ limits.maxDepth := hready.depth
  refine h.suffixed hl hready (Nat.le_max_left _ _) fun k hholder hkey => ?_
  obtain ⟨hr, ht⟩ := hholder
  have hlt : a.scopes.length < limits.maxDepth := by omega
  have hle : a.scopes.length + (key.nesting + 1) ≤ limits.maxDepth := by omega
  refine (arrives_index rfl hkey hlt).bind ?_
  intro b hb
  obtain ⟨position, rfl⟩ := hb
  refine (hk.closed .index nofun (a := a.behind [] _) hle).mono ?_
  intro b hb
  obtain ⟨k', ⟨hr', ht'⟩, rfl⟩ := hb
  have hindex : (Construct.index k k').tree = (index holder key).tree := by
    rw [Construct.tree, Construct.isCalled_of_regular hr, ht, ht']
    rfl
  have htaken : Taken a (index holder key).level (index holder key).tree _ :=
    .of_construct (k := .index k k') ⟨hr, hr'⟩ hindex
  rw [Construct.listing] at htaken
  simpa [behind, inside, closingToken?, Token.of, Lexical.defaultArity] using htaken

inductive Matched {α β : Type} (R : α → β → Prop) : List α → List β → Prop
  | nil : Matched R [] []
  | cons {x : α} {y : β} {xs : List α} {ys : List β} : R x y → Matched R xs ys →
      Matched R (x :: xs) (y :: ys)

section elements

variable {α β : Type} {R : α → β → Prop} {words : α → List (List Char)} {listing : β → List Token}
  {scope : Scope} {scopes : List Scope}

def due (scope : Scope) (commas : Nat) : Scope :=
  { scope with commas, keyDue := scope.kind = .object }

def done (scope : Scope) (commas : Nat) : Scope := { scope with commas, keyDue := false }

theorem keyDue_done (scope : Scope) (commas : Nat) : (done scope commas).keyDue = false := rfl

inductive ElementsTaken (R : α → β → Prop) (listing : β → List Token) (before : List Token)
    (scope : Scope) (scopes : List Scope) (xs : List α) : Arrangement → Prop
  | intro {wait : List Waiting} {output : List Token} {ys : List β} :
      (∀ w ∈ wait, w.HoldsAt 0) → Matched R xs ys →
        emitted wait output = (ys.flatMap listing).reverse ++ before →
          ElementsTaken R listing before scope scopes xs ⟨output, wait, scope :: scopes, .operator⟩

def TakesElement (limits : Limits) (R : α → β → Prop) (words : α → List (List Char))
    (listing : β → List Token) (scope : Scope) (scopes : List Scope) (x : α) : Prop :=
  ∀ (before : List Token) (commas : Nat) (place : Place), place ≠ .operator →
    Arrives limits ⟨before, [], due scope commas :: scopes, place⟩ (words x)
      (ElementsTaken R listing before (done scope commas) scopes [x])

theorem arrives_separated (hc : scope.kind.allowsComma = true) {x : α} {xs : List α}
    (h : ∀ y ∈ x :: xs, TakesElement limits R words listing scope scopes y) (before : List Token)
    (commas : Nat) {place : Place} (hp : place ≠ .operator) :
    Arrives limits ⟨before, [], due scope commas :: scopes, place⟩
      (separated ((x :: xs).map words))
      (ElementsTaken R listing before (done scope (commas + xs.length)) scopes (x :: xs)) := by
  obtain ⟨hx, hxs⟩ := List.forall_mem_cons.1 h
  induction xs generalizing x before commas place with
  | nil => exact hx before commas place hp
  | cons y xs ih =>
    refine (hx before commas place hp).bind ?_
    intro b hb
    obtain ⟨hw, hm, he⟩ := hb
    cases hm with
    | @cons _ z _ _ hz hn =>
      cases hn
      obtain ⟨hy, hys⟩ := List.forall_mem_cons.1 hxs
      refine (arrives_comma (keyDue_done scope commas) hc hw).bind ?_
      intro b hb
      subst hb
      rw [he]
      have hplace : Place.operand ≠ .operator := by decide
      have hcommas : commas + 1 + xs.length = commas + (y :: xs).length := by
        rw [List.length_cons, Nat.add_assoc, Nat.add_comm 1]
      refine (ih hxs _ (commas + 1) hplace hy hys).mono ?_
      rw [hcommas]
      intro b hb
      obtain ⟨hw', hm', he'⟩ := hb
      exact .intro hw' (.cons hz hm') (by rw [he']; simp)

theorem Matched.length_eq {xs : List α} {ys : List β} (h : Matched R xs ys) :
    ys.length = xs.length := by
  induction h with
  | nil => rfl
  | cons _ _ ih => rw [List.length_cons, List.length_cons, ih]

theorem arrives_elements {kind : ScopeKind} {position : Nat} (hc : kind.allowsComma = true)
    {xs : List α} (h : ∀ x ∈ xs, TakesElement limits R words listing
      ⟨kind, position, 0, kind = .object, a.waiting⟩ a.scopes x) :
    Arrives limits (a.inside kind position)
      (separated (xs.map words) ++ [[kind.bracket.closer]]) fun b =>
        ∃ ys, Matched R xs ys ∧ b = a.behind [] ((closingToken? kind xs.length).toList ++
          ((ys.flatMap listing).reverse ++ (a.inside kind position).output)) := by
  cases xs with
  | nil =>
    refine (arrives_closing_opened hc).mono ?_
    intro b hb
    subst hb
    exact ⟨[], .nil, rfl⟩
  | cons x xs =>
    have hplace : Place.opened ≠ .operator := by decide
    refine (arrives_separated hc h (a.inside kind position).output 0 hplace).bind ?_
    intro b hb
    obtain ⟨hw, hm, he⟩ := hb
    refine (arrives_closing (keyDue_done _ _) hw).mono ?_
    intro b hb
    subst hb
    rw [he]
    refine ⟨_, hm, ?_⟩
    simp [outside, done, behind]

end elements

theorem itemWords_eq (ps : List Phrase) : itemWords ps = ps.map words := by
  induction ps with
  | nil => rfl
  | cons p ps ih => rw [itemWords, ih, List.map_cons]

theorem entryWords_eq (entries : List (KeyWord × Phrase)) :
    entryWords entries = entries.map fun e => e.1.chars :: [':'] :: words e.2 := by
  induction entries with
  | nil => rfl
  | cons e entries ih => rw [entryWords, ih, List.map_cons]

theorem nesting_le_itemNesting {ps : List Phrase} {p : Phrase} (h : p ∈ ps) :
    p.nesting ≤ itemNesting ps := by
  induction ps with
  | nil => cases h
  | cons q ps ih =>
    rw [itemNesting]
    rcases List.mem_cons.1 h with rfl | h
    · exact Nat.le_max_left _ _
    · exact Nat.le_trans (ih h) (Nat.le_max_right _ _)

theorem nesting_le_entryNesting {entries : List (KeyWord × Phrase)} {e : KeyWord × Phrase}
    (h : e ∈ entries) : e.2.nesting ≤ entryNesting entries := by
  induction entries with
  | nil => cases h
  | cons f entries ih =>
    rw [entryNesting]
    rcases List.mem_cons.1 h with rfl | h
    · exact Nat.le_max_left _ _
    · exact Nat.le_trans (ih h) (Nat.le_max_right _ _)

def DenotesEntry (e : KeyWord × Phrase) (f : String × Construct) : Prop :=
  f.1 = e.1.text ∧ Denotes e.2 f.2

def listedEntry (f : String × Construct) : List Token := ⟨.key f.1, 0⟩ :: f.2.listing

theorem Matched.items {ps : List Phrase} {ks : List Construct} (h : Matched Denotes ps ks) :
    Construct.ItemsRegular ks ∧ Construct.itemTrees ks = itemTrees ps ∧
      Construct.itemListing ks = ks.flatMap Construct.listing := by
  induction h with
  | nil => exact ⟨trivial, rfl, rfl⟩
  | cons hk _ ih =>
    obtain ⟨hr, ht, hl⟩ := ih
    refine ⟨⟨hk.1, hr⟩, ?_, ?_⟩
    · rw [Construct.itemTrees, itemTrees, hk.2, ht]
    · rw [Construct.itemListing, hl, List.flatMap_cons]

theorem Matched.entries {es : List (KeyWord × Phrase)} {fs : List (String × Construct)}
    (h : Matched DenotesEntry es fs) :
    Construct.EntriesRegular fs ∧ Construct.entryTrees fs = entryTrees es ∧
      Construct.entryListing fs = fs.flatMap listedEntry := by
  induction h with
  | nil => exact ⟨trivial, rfl, rfl⟩
  | @cons e f _ _ hf _ ih =>
    obtain ⟨hr, ht, hl⟩ := ih
    obtain ⟨hkey, hreg, htree⟩ := hf
    refine ⟨⟨hreg, hr⟩, ?_, ?_⟩
    · rw [Construct.entryTrees, entryTrees, hkey, htree, ht]
    · rw [Construct.entryListing, hl, List.flatMap_cons]
      rfl

theorem takes_item {p : Phrase} (h : p.Parses) {scope : Scope} {scopes : List Scope}
    (ho : scope.kind ≠ .object) (hd : scopes.length + (p.nesting + 1) ≤ limits.maxDepth) :
    TakesElement limits Denotes words Construct.listing scope scopes p := by
  intro before commas place hp
  have hdue : due scope commas = done scope commas := by simp [due, done, ho]
  rw [hdue]
  refine (h.inScope (keyDue_done scope commas) hd before hp).mono ?_
  intro b hb
  obtain ⟨_, _, _, rfl, hw, hk, he⟩ := hb
  exact .intro hw (.cons hk .nil) (by rw [he]; simp)

theorem takes_entry {key : KeyWord} {p : Phrase} (h : p.Parses) {scope : Scope}
    {scopes : List Scope} (ho : scope.kind = .object)
    (hd : scopes.length + (p.nesting + 1) ≤ limits.maxDepth) :
    TakesElement limits DenotesEntry (fun e => e.1.chars :: [':'] :: words e.2) listedEntry scope scopes
      (key, p) := by
  intro before commas place hp
  have hkey : Arrangement.keyDue ⟨before, [], due scope commas :: scopes, place⟩ = true := by
    simp [Arrangement.keyDue, due, ho]
  have hplace : Place.operand ≠ .operator := by decide
  refine (arrives_key key hkey).bind ?_
  intro b hb
  subst hb
  refine (h.inScope (keyDue_done scope commas) hd _ hplace).mono ?_
  intro b hb
  obtain ⟨_, _, k, rfl, hw, hk, he⟩ := hb
  have hentry : DenotesEntry (key, p) (key.text, k) := ⟨rfl, hk⟩
  refine .intro hw (.cons hentry .nil) ?_
  rw [he]
  simp [listedEntry, Token.of, Lexical.defaultArity]

theorem arrives_itemWords {kind : ScopeKind} (hc : kind.allowsComma = true) (ho : kind ≠ .object)
    {position : Nat} {items : List Phrase} (h : ∀ p ∈ items, p.Parses)
    (hd : a.scopes.length + (itemNesting items + 1) ≤ limits.maxDepth) :
    Arrives limits (a.inside kind position)
      (separated (itemWords items) ++ [[kind.bracket.closer]]) fun b =>
        ∃ ks, Construct.ItemsRegular ks ∧ Construct.itemTrees ks = itemTrees items ∧
          b = a.behind [] ((closingToken? kind ks.length).toList ++
            ((Construct.itemListing ks).reverse ++ (a.inside kind position).output)) := by
  have htakes : ∀ p ∈ items, TakesElement limits Denotes words Construct.listing
      ⟨kind, position, 0, kind = .object, a.waiting⟩ a.scopes p := by
    intro p hp
    have := nesting_le_itemNesting hp
    exact takes_item (h p hp) ho (by omega)
  rw [itemWords_eq]
  refine (arrives_elements hc htakes).mono ?_
  intro b hb
  obtain ⟨ks, hm, rfl⟩ := hb
  obtain ⟨hr, ht, hl⟩ := hm.items
  exact ⟨ks, hr, ht, by rw [hl, hm.length_eq]⟩

theorem parses_array {items : List Phrase} (h : ∀ p ∈ items, p.Parses) :
    (array items).Parses := by
  intro limits a hready
  have hd : a.scopes.length + (itemNesting items + 1) ≤ limits.maxDepth := hready.depth
  have hlt : a.scopes.length < limits.maxDepth := by omega
  refine (arrives_opening .square hready.place hready.keyDue hlt).bind ?_
  intro b hb
  obtain ⟨position, rfl⟩ := hb
  have hkind : ScopeKind.array ≠ .object := by decide
  refine (arrives_itemWords rfl hkind h hd).mono ?_
  intro b hb
  obtain ⟨ks, hr, ht, rfl⟩ := hb
  have htree : (Construct.array ks).tree = (array items).tree := congrArg Tree.array ht
  have htaken : Taken a (array items).level (array items).tree _ :=
    .of_construct (k := .array ks) hr htree
  rw [Construct.listing] at htaken
  simpa [inside, closingToken?] using htaken

theorem parses_object {entries : List (KeyWord × Phrase)} (h : ∀ e ∈ entries, e.2.Parses) :
    (object entries).Parses := by
  intro limits a hready
  have hd : a.scopes.length + (entryNesting entries + 1) ≤ limits.maxDepth := hready.depth
  have hlt : a.scopes.length < limits.maxDepth := by omega
  refine (arrives_opening .curly hready.place hready.keyDue hlt).bind ?_
  intro b hb
  obtain ⟨position, rfl⟩ := hb
  rw [entryWords_eq]
  refine (arrives_elements rfl fun e he => takes_entry (h e he) rfl ?_).mono ?_
  · have := nesting_le_entryNesting he
    omega
  intro b hb
  obtain ⟨fs, hm, rfl⟩ := hb
  obtain ⟨hr, ht, hl⟩ := hm.entries
  have htree : (Construct.object fs).tree = (object entries).tree := congrArg Tree.object ht
  have htaken : Taken a (object entries).level (object entries).tree _ :=
    .of_construct (k := .object fs) hr htree
  rw [Construct.listing, hl, hm.length_eq] at htaken
  simpa [behind, inside, closingToken?, operandKind] using htaken

theorem parses_call {callee : Phrase} {args : List Phrase} (hl : 9 ≤ callee.level)
    (h : callee.Parses) (hargs : ∀ p ∈ args, p.Parses) : (call callee args).Parses := by
  intro limits a hready
  have hd : a.scopes.length + max callee.nesting (itemNesting args + 1) ≤ limits.maxDepth :=
    hready.depth
  refine h.suffixed hl hready (Nat.le_max_left _ _) fun k hholder hkey => ?_
  obtain ⟨hr, ht⟩ := hholder
  have hlt : a.scopes.length < limits.maxDepth := by omega
  have hle : a.scopes.length + (itemNesting args + 1) ≤ limits.maxDepth := by omega
  have hkind : ScopeKind.call ≠ .object := by decide
  refine (arrives_call rfl hkey hlt).bind ?_
  intro b hb
  obtain ⟨position, rfl⟩ := hb
  refine (arrives_itemWords (a := a.behind [] _) rfl hkind hargs hle).mono ?_
  intro b hb
  obtain ⟨ks, hrs, hts, rfl⟩ := hb
  have htree : (Construct.call k.asCallee ks).tree = (call callee args).tree := by
    rw [Construct.tree, Construct.tree_asCallee, ht, hts]
    rfl
  have htaken : Taken a (call callee args).level (call callee args).tree _ :=
    .of_construct (k := .call k.asCallee ks) ⟨Construct.regular_asCallee hr, hrs⟩ htree
  rw [Construct.listing] at htaken
  have hcallee := Construct.markCallee_listing hr a.output
  simpa [behind, inside, closingToken?, hcallee] using htaken

theorem parses_unary {op : Operator} {operand : Phrase} (h1 : op.operands = 1)
    (hl : op.rightLevel ≤ operand.level) (h : operand.Parses) : (unary op operand).Parses := by
  intro limits a hready
  have hop := Operator.ne_conditional (.inl h1)
  refine (arrives_unary h1 hready.place hready.keyDue).bind ?_
  intro b hb
  subst hb
  have hadmits := admits_operator hop hl a.waiting
  refine (h limits _ (hready.behind hadmits (Nat.le_refl _))).mono ?_
  intro b hb
  obtain ⟨hw, hr, ht, he⟩ := hb
  have hholds : (Waiting.operator op).HoldsAt (unary op operand).level := by
    cases op <;> first | exact Nat.le_refl 8 | cases h1
  have hlevel : (unary op operand).level ≤ operand.level := by
    cases op <;> first | exact hl | cases h1
  refine .concat (k := .unary op h1 _) hw hlevel hholds hr ?_ ?_
  · rw [Construct.tree, ht]
    rfl
  · rw [he, Construct.listing]
    simp [Waiting.token]

theorem parses_binary {op : Operator} {left right : Phrase} (h2 : op.operands = 2)
    (hl : op.leftLevel ≤ left.level) (hr : op.rightLevel ≤ right.level) (h : left.Parses)
    (h' : right.Parses) : (binary op left right).Parses := by
  intro limits a hready
  have hop := Operator.ne_conditional (.inr h2)
  have hleft : op.level ≤ left.level := Nat.le_trans op.level_le_leftLevel hl
  have hright : op.level ≤ right.level := Nat.le_trans op.level_le_rightLevel hr
  refine (h limits a (hready.part hleft (Nat.le_max_left _ _))).bind ?_
  intro b hb
  obtain ⟨hwl, hrl, htl, hel⟩ := hb
  refine (arrives_binary h2 hready.keyDue hl hwl hready.admits).bind ?_
  intro b hb
  subst hb
  have hadmits := admits_operator hop hr a.waiting
  refine (h' limits _ (hready.behind hadmits (Nat.le_max_right _ _))).mono ?_
  intro b hb
  obtain ⟨hw, hrr, htr, her⟩ := hb
  refine .concat (k := .binary op h2 _ _) hw hright (Nat.le_refl op.level) ⟨hrl, hrr⟩ ?_ ?_
  · rw [Construct.tree, htl, htr]
    rfl
  · rw [her, hel, Construct.listing]
    simp [Waiting.token]

theorem parses_conditional {condition yes no : Phrase} (hl : 1 ≤ condition.level)
    (h : condition.Parses) (hyes : yes.Parses) (hno : no.Parses) :
    (conditional condition yes no).Parses := by
  intro limits a hready
  have hmax := Nat.le_max_right condition.nesting (max yes.nesting no.nesting)
  refine (h limits a (hready.part (Nat.zero_le _) (Nat.le_max_left _ _))).bind ?_
  intro b hb
  obtain ⟨hwc, hrc, htc, hec⟩ := hb
  refine (arrives_question hready.keyDue hl hwc hready.admits).bind ?_
  intro b hb
  obtain ⟨position, rfl⟩ := hb
  have hmaxYes := Nat.le_trans (Nat.le_max_left _ _) hmax
  refine (hyes limits _ (hready.behind (admits_question _ _ _) hmaxYes)).bind ?_
  intro b hb
  obtain ⟨hwy, hry, hty, hey⟩ := hb
  refine (arrives_colon hready.keyDue hwy).bind ?_
  intro b hb
  subst hb
  have hmaxNo := Nat.le_trans (Nat.le_max_right _ _) hmax
  refine (hno limits _ (hready.behind (admits_colon _ _) hmaxNo)).mono ?_
  intro b hb
  obtain ⟨hwn, hrn, htn, hen⟩ := hb
  refine .concat (k := .conditional _ _ _) hwn (Nat.zero_le _) rfl ⟨hrc, hry, hrn⟩ ?_ ?_
  · rw [Construct.tree, htc, hty, htn]
    rfl
  · rw [hen, hey, hec, Construct.listing]
    simp [Waiting.token]

theorem ItemsGrammatical.forall_mem {ps : List Phrase} (h : ItemsGrammatical ps) :
    ∀ p ∈ ps, p.Grammatical := by
  induction ps with
  | nil => exact List.forall_mem_nil _
  | cons p ps ih => exact List.forall_mem_cons.2 ⟨h.1, ih h.2⟩

theorem EntriesGrammatical.forall_mem {entries : List (KeyWord × Phrase)}
    (h : EntriesGrammatical entries) : ∀ e ∈ entries, e.2.Grammatical := by
  induction entries with
  | nil => exact List.forall_mem_nil _
  | cons e entries ih => exact List.forall_mem_cons.2 ⟨h.1, ih h.2⟩

theorem Grammatical.parses {p : Phrase} (h : p.Grammatical) : p.Parses := by
  induction p with
  | number n => exact parses_number n
  | quoted q => exact parses_quoted q
  | path p => exact parses_path p
  | aliased p => exact parses_aliased p
  | group inner ih => exact parses_group (ih h)
  | array items ih => exact parses_array fun p hp => ih p hp (ItemsGrammatical.forall_mem h p hp)
  | object entries ih =>
    exact parses_object fun e he => ih e he (EntriesGrammatical.forall_mem h e he)
  | member holder p ih => exact parses_member h.1 (ih h.2) p
  | call callee args ih iha =>
    exact parses_call h.1 (ih h.2.1) fun p hp => iha p hp (ItemsGrammatical.forall_mem h.2.2 p hp)
  | index holder key ih ihk => exact parses_index h.1 (ih h.2.1) (ihk h.2.2)
  | unary op operand ih => exact parses_unary h.1 h.2.1 (ih h.2.2)
  | binary op left right ihl ihr =>
    obtain ⟨h2, hl, hr, hleft, hright⟩ := h
    exact parses_binary h2 hl hr (ihl hleft) (ihr hright)
  | conditional condition yes no ihc ihy ihn =>
    obtain ⟨hl, hc, hy, hn⟩ := h
    exact parses_conditional hl (ihc hc) (ihy hy) (ihn hn)

end Phrase

theorem arrange_of_words {limits : Limits} {source : String} {p : Phrase} (hg : p.Grammatical)
    (hw : (Cursor.start source).Ahead p.words) (hn : p.nesting ≤ limits.maxDepth) :
    ∃ k : Construct, k.tree = p.tree ∧ arrange limits source = .ok k.listing := by
  have hready : Arrangement.Ready limits {} p.level p.nesting := {
    place := nofun
    keyDue := rfl
    admits := Arrangement.admits_nil p.level
    depth := by
      rw [List.length_nil]
      omega }
  have hwords : (Cursor.start source).Ahead (p.words ++ []) := by rwa [List.append_nil]
  obtain ⟨b, d, hb, hrun, hahead⟩ := hg.parses limits {} hready _ [] hwords
  cases hb with
  | @intro wait output k hholds hr ht he =>
    have hexpected : (Arrangement.behind {} wait output).expected ≠ .key := nofun
    refine ⟨k, ht, ?_⟩
    rw [arrange, hrun, Arrangement.run_end (Lexeme.read?_end hexpected hahead.rest_nil)]
    simp [Arrangement.finish, Arrangement.behind, Arrangement.emitAll_eq hholds, he, mapError_ok,
      Except.map]

/-- The words of a phrase are parsed to the tree of the phrase, unless the source is too long,
brackets are nested too deep in it, or the tree is too deep. -/
theorem parse_of_words {limits : Limits} {source : String} {p : Phrase} (hg : p.Grammatical)
    (hw : (Cursor.start source).Ahead p.words) (hlength : source.length ≤ limits.maxLength)
    (hnesting : p.nesting ≤ limits.maxDepth) (hdepth : p.tree.fits limits.maxDepth = true) :
    ∃ e, Expression.parse limits source = .ok e ∧ e.root = p.tree := by
  obtain ⟨k, ht, harrange⟩ := arrange_of_words hg hw hnesting
  have htokens : tokenize limits source = .ok k.listing := by
    rw [tokenize, if_neg (by omega), harrange]
  have hbuild := build_listing limits k
  rw [ht, if_pos hdepth] at hbuild
  unfold Expression.parse Expression.compile
  rw [htokens]
  simp only [bind, Except.bind, hbuild]
  exact ⟨_, rfl, rfl⟩

theorem parse_of_words_conditional :
    ∃ e, Expression.parse {} "- a ** 2 ? b . c : \x7b k : [ d ( ) ] \x7d" = .ok e ∧
      e.root = .conditional
        (.binary .power (.unary .negate (.path .context ["a"])) (.literal (.integer 2)))
        (.path .context ["b", "c"])
        (.object [("k", .array [.call (.path .context ["d"]) []])]) := by
  let a : Name := ⟨"a", ⟨'a', [], rfl, by decide⟩, List.all_eq_true.1 (by decide)⟩
  let b : Name := ⟨"b", ⟨'b', [], rfl, by decide⟩, List.all_eq_true.1 (by decide)⟩
  let c : Name := ⟨"c", ⟨'c', [], rfl, by decide⟩, List.all_eq_true.1 (by decide)⟩
  let d : Name := ⟨"d", ⟨'d', [], rfl, by decide⟩, List.all_eq_true.1 (by decide)⟩
  let k : Name := ⟨"k", ⟨'k', [], rfl, by decide⟩, List.all_eq_true.1 (by decide)⟩
  let two : NumberWord := ⟨⟨['2'], none, none⟩, List.all_eq_true.1 (by decide), nofun, nofun, .inl nofun⟩
  let condition : Phrase := .binary .power (.unary .negate (.path ⟨a, []⟩)) (.number two)
  let yes : Phrase := .member (.path ⟨b, []⟩) ⟨c, []⟩
  let no : Phrase := .object [(.name k, .array [.call (.path ⟨d, []⟩) []])]
  have hcondition : condition.Grammatical :=
    ⟨rfl, by decide, by decide, ⟨rfl, by decide, trivial⟩, trivial⟩
  have hyes : yes.Grammatical := ⟨by decide, trivial⟩
  have hno : no.Grammatical := ⟨⟨⟨by decide, trivial, trivial⟩, trivial⟩, trivial⟩
  have hg : (Phrase.conditional condition yes no).Grammatical := ⟨by decide, hcondition, hyes, hno⟩
  have hw : (Cursor.start "- a ** 2 ? b . c : \x7b k : [ d ( ) ] \x7d").Ahead
      (Phrase.conditional condition yes no).words := Cursor.ahead_start (by decide)
  have htwo : two.value = .integer 2 := by
    have hi : two.integer? = some 2 := by decide
    rw [NumberWord.value, hi]
  have h : ∃ e, Expression.parse {} _ = .ok e ∧ e.root = _ :=
    parse_of_words hg hw (by decide) (by decide) (by decide)
  rw [← htwo]
  exact h

end TemplateBinding
