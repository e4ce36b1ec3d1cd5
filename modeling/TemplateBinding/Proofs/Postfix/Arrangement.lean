import TemplateBinding.Proofs.Postfix.Lexeme
import TemplateBinding.Source.Arrangement

set_option autoImplicit false

namespace TemplateBinding

namespace Construct

def asCallee : Construct → Construct
  | .identifier text root segments h _ => .identifier text root segments h true
  | c => c

theorem regular_asCallee {c : Construct} (h : c.Regular false) : c.asCallee.Regular true := by
  cases c <;> first | exact h | rfl

theorem markCallee_listing {c : Construct} (h : c.Regular false) (output : List Token) :
    Arrangement.markCallee (c.listing.reverse ++ output) = c.asCallee.listing.reverse ++ output := by
  cases c with
  | identifier text root segments hp called =>
    have hc : called = false := h
    subst hc
    rfl
  | literal l v hl => cases l <;> rfl
  | _ => simp [listing, asCallee, Arrangement.markCallee, Token.operator, Token.of]

end Construct

/-- What has been emitted for a construct that is not yet complete. -/
inductive Slot where
  | operand
  | callee
  | key

/-- The tokens, the last one first, are the listings of what fills the slots, the latest first. -/
inductive Filled : List Slot → List Token → Prop
  | nil : Filled [] []
  | operand {c : Construct} {slots : List Slot} {output : List Token} :
      c.Regular false → Filled slots output →
        Filled (.operand :: slots) (c.listing.reverse ++ output)
  | callee {c : Construct} {slots : List Slot} {output : List Token} :
      c.Regular true → Filled slots output →
        Filled (.callee :: slots) (c.listing.reverse ++ output)
  | key {name : String} {slots : List Slot} {output : List Token} :
      Filled slots output → Filled (.key :: slots) (.of (.key name) :: output)

namespace Filled

variable {slots : List Slot} {output : List Token}

theorem of_token {token : Token} (h : token.IsOperand) (hf : Filled slots output) :
    Filled (.operand :: slots) (token :: output) := by
  cases h with
  | @literal l v h => exact operand (c := .literal l v h) trivial hf
  | @identifier path root segments h =>
    exact operand (c := .identifier path root segments h false) rfl hf

theorem unary {op : Operator} (h : op.operands = 1) (hf : Filled (.operand :: slots) output) :
    Filled (.operand :: slots) (.operator op :: output) := by
  cases hf with
  | @operand c _ output hc hf =>
    have := Filled.operand (c := .unary op h c) hc hf
    simpa [Construct.listing] using this

theorem binary {op : Operator} (h : op.operands = 2)
    (hf : Filled (.operand :: .operand :: slots) output) :
    Filled (.operand :: slots) (.operator op :: output) := by
  cases hf with
  | @operand right _ output hr hf =>
    cases hf with
    | @operand left _ output hl hf =>
      have := Filled.operand (c := .binary op h left right) ⟨hl, hr⟩ hf
      simpa [Construct.listing] using this

theorem conditional (hf : Filled (.operand :: .operand :: .operand :: slots) output) :
    Filled (.operand :: slots) (.operator .conditional :: output) := by
  cases hf with
  | @operand no _ output hn hf =>
    cases hf with
    | @operand yes _ output hy hf =>
      cases hf with
      | @operand condition _ output hc hf =>
        have := Filled.operand (c := .conditional condition yes no) ⟨hc, hy, hn⟩ hf
        simpa [Construct.listing] using this

theorem property {name : String} (hd : '.' ∉ name.toList)
    (hf : Filled (.operand :: slots) output) :
    Filled (.operand :: slots) (.of (.property name) :: output) := by
  cases hf with
  | @operand c _ output hc hf =>
    have := Filled.operand (c := .property c name) ⟨hc, hd⟩ hf
    simpa [Construct.listing, Token.of, Lexical.defaultArity] using this

theorem index (hf : Filled (.operand :: .operand :: slots) output) :
    Filled (.operand :: slots) (.of .index :: output) := by
  cases hf with
  | @operand key _ output hk hf =>
    cases hf with
    | @operand holder _ output hh hf =>
      have := Filled.operand (c := .index holder key) ⟨hh, hk⟩ hf
      simpa [Construct.listing, Token.of, Lexical.defaultArity] using this

theorem properties {names : List String} (hd : ∀ name ∈ names, '.' ∉ name.toList)
    (hf : Filled (.operand :: slots) output) :
    Filled (.operand :: slots)
      ((names.map fun name => Token.of (.property name)).reverse ++ output) := by
  induction names generalizing output with
  | nil => exact hf
  | cons name names ih =>
    obtain ⟨hname, hnames⟩ := List.forall_mem_cons.1 hd
    have := ih hnames (property hname hf)
    simpa using this

theorem markCallee (hf : Filled (.operand :: slots) output) :
    Filled (.callee :: slots) (Arrangement.markCallee output) := by
  cases hf with
  | @operand c _ output hc hf =>
    rw [Construct.markCallee_listing hc]
    exact Filled.callee (Construct.regular_asCallee hc) hf

theorem itemsRegular_append {cs ds : List Construct} :
    Construct.ItemsRegular (cs ++ ds) ↔ Construct.ItemsRegular cs ∧ Construct.ItemsRegular ds := by
  induction cs with
  | nil => simp [Construct.ItemsRegular]
  | cons c cs ih => simp [Construct.ItemsRegular, ih, and_assoc]

theorem itemListing_append (cs ds : List Construct) :
    Construct.itemListing (cs ++ ds) = Construct.itemListing cs ++ Construct.itemListing ds := by
  induction cs with
  | nil => rfl
  | cons c cs ih => simp [Construct.itemListing, ih]

theorem exists_items {n : Nat} (hf : Filled (List.replicate n .operand ++ slots) output) :
    ∃ items rest, items.length = n ∧ Construct.ItemsRegular items ∧ Filled slots rest ∧
      output = (Construct.itemListing items).reverse ++ rest := by
  induction n generalizing output with
  | zero => exact ⟨[], output, rfl, trivial, hf, rfl⟩
  | succ n ih =>
    cases hf with
    | @operand c _ output hc hf =>
      obtain ⟨items, rest, hl, hi, hr, rfl⟩ := ih hf
      refine ⟨items ++ [c], rest, by simp [hl], ?_, hr, ?_⟩
      · exact itemsRegular_append.2 ⟨hi, hc, trivial⟩
      · simp [itemListing_append, Construct.itemListing]

theorem entriesRegular_append {es fs : List (String × Construct)} :
    Construct.EntriesRegular (es ++ fs) ↔
      Construct.EntriesRegular es ∧ Construct.EntriesRegular fs := by
  induction es with
  | nil => simp [Construct.EntriesRegular]
  | cons e es ih => simp [Construct.EntriesRegular, ih, and_assoc]

theorem entryListing_append (es fs : List (String × Construct)) :
    Construct.entryListing (es ++ fs) = Construct.entryListing es ++ Construct.entryListing fs := by
  induction es with
  | nil => rfl
  | cons e es ih => simp [Construct.entryListing, ih]

theorem exists_entries {n : Nat}
    (hf : Filled ((List.replicate n [Slot.operand, .key]).flatten ++ slots) output) :
    ∃ entries rest, entries.length = n ∧ Construct.EntriesRegular entries ∧ Filled slots rest ∧
      output = (Construct.entryListing entries).reverse ++ rest := by
  induction n generalizing output with
  | zero => exact ⟨[], output, rfl, trivial, hf, rfl⟩
  | succ n ih =>
    cases hf with
    | @operand c _ output hc hf =>
      cases hf with
      | @key name _ output hf =>
        obtain ⟨entries, rest, hl, he, hr, rfl⟩ := ih hf
        refine ⟨entries ++ [(name, c)], rest, by simp [hl], ?_, hr, ?_⟩
        · exact entriesRegular_append.2 ⟨he, hc, trivial⟩
        · simp [entryListing_append, Construct.entryListing, Token.of, Lexical.defaultArity]

end Filled

def Waiting.slots : Waiting → List Slot
  | .operator op => List.replicate (op.operands - 1) .operand
  | .question _ => [.operand]
  | .colon => [.operand, .operand]

def Waiting.Binds : Waiting → Prop
  | .operator op => op.operands = 1 ∨ op.operands = 2
  | .question _ | .colon => True

def ScopeKind.slots (kind : ScopeKind) (commas : Nat) (keyDue : Bool) : List Slot :=
  match kind with
  | .group => []
  | .index => [.operand]
  | .call => List.replicate commas .operand ++ [.callee]
  | .array => List.replicate commas .operand
  | .object => (if keyDue then [] else [.key]) ++ (List.replicate commas [.operand, .key]).flatten

def ScopeKind.elements (kind : ScopeKind) (n : Nat) : List Slot :=
  match kind with
  | .group => [.operand]
  | .index => [.operand, .operand]
  | .call => List.replicate n .operand ++ [.callee]
  | .array => List.replicate n .operand
  | .object => (List.replicate n [.operand, .key]).flatten

theorem ScopeKind.operand_slots {kind : ScopeKind} {keyDue : Bool} (commas : Nat)
    (hk : kind = .object → keyDue = false) :
    .operand :: kind.slots commas keyDue = kind.elements (commas + 1) := by
  cases kind with
  | object => rw [hk rfl]; rfl
  | _ => rfl

/-- Where a comma can come next, nothing of the current element has been emitted. -/
theorem ScopeKind.slots_of_allowsComma {kind : ScopeKind} {keyDue : Bool} (n : Nat)
    (hc : kind.allowsComma = true) (hk : kind = .object → keyDue = true) :
    kind.slots n keyDue = kind.elements n := by
  cases kind with
  | group => cases hc
  | index => cases hc
  | object => rw [hk rfl]; rfl
  | _ => rfl

def Scope.slots (scope : Scope) : List Slot :=
  scope.kind.slots scope.commas scope.keyDue ++ scope.outer.flatMap Waiting.slots

namespace Filled

variable {slots : List Slot} {output : List Token}

theorem operator {op : Operator} (hb : Waiting.Binds (.operator op))
    (hf : Filled (.operand :: (Waiting.slots (.operator op) ++ slots)) output) :
    Filled (.operand :: slots) (.operator op :: output) := by
  rcases hb with h | h
  · rw [Waiting.slots, h] at hf
    exact unary h hf
  · rw [Waiting.slots, h] at hf
    exact binary h hf

theorem emitAll {ws : List Waiting} {emitted : List Token} (hb : ∀ w ∈ ws, w.Binds)
    (hf : Filled (.operand :: (ws.flatMap Waiting.slots ++ slots)) output)
    (h : Arrangement.emitAll ws output = .ok emitted) : Filled (.operand :: slots) emitted := by
  induction ws generalizing output with
  | nil =>
    cases h
    exact hf
  | cons w ws ih =>
    obtain ⟨hw, hws⟩ := List.forall_mem_cons.1 hb
    rw [List.flatMap_cons, List.append_assoc] at hf
    cases w with
    | operator op => exact ih hws (operator hw hf) h
    | question position => cases h
    | colon => exact ih hws (conditional hf) h

theorem emitWhile {p : Operator → Bool} {ws rest : List Waiting} {emitted : List Token}
    (hb : ∀ w ∈ ws, w.Binds)
    (hf : Filled (.operand :: (ws.flatMap Waiting.slots ++ slots)) output)
    (h : Arrangement.emitWhile p ws output = (rest, emitted)) :
    Filled (.operand :: (rest.flatMap Waiting.slots ++ slots)) emitted ∧ ∀ w ∈ rest, w.Binds := by
  induction ws generalizing output with
  | nil =>
    cases h
    exact ⟨hf, hb⟩
  | cons w ws ih =>
    obtain ⟨hw, hws⟩ := List.forall_mem_cons.1 hb
    cases w with
    | operator op =>
      simp only [Arrangement.emitWhile] at h
      split at h
      · rw [List.flatMap_cons, List.append_assoc] at hf
        exact ih hws (operator hw hf) h
      · cases h
        exact ⟨hf, hb⟩
    | question position =>
      cases h
      exact ⟨hf, hb⟩
    | colon =>
      cases h
      exact ⟨hf, hb⟩

theorem emitToQuestion {position : Nat} {ws rest : List Waiting} {emitted : List Token}
    (hb : ∀ w ∈ ws, w.Binds)
    (hf : Filled (.operand :: (ws.flatMap Waiting.slots ++ slots)) output)
    (h : Arrangement.emitToQuestion position ws output = .ok (rest, emitted)) :
    Filled (rest.flatMap Waiting.slots ++ slots) emitted ∧ ∀ w ∈ rest, w.Binds := by
  induction ws generalizing output with
  | nil => cases h
  | cons w ws ih =>
    obtain ⟨hw, hws⟩ := List.forall_mem_cons.1 hb
    rw [List.flatMap_cons, List.append_assoc] at hf
    cases w with
    | operator op => exact ih hws (operator hw hf) h
    | colon => exact ih hws (conditional hf) h
    | question position =>
      cases h
      exact ⟨hf, List.forall_mem_cons.2 ⟨trivial, hws⟩⟩

theorem closing {kind : ScopeKind} {n : Nat} (hf : Filled (kind.elements n ++ slots) output) :
    Filled (.operand :: slots) ((Arrangement.closingToken? kind n).toList ++ output) := by
  cases kind with
  | group => exact hf
  | index => exact index hf
  | call =>
    rw [ScopeKind.elements, List.append_assoc] at hf
    obtain ⟨args, rest, rfl, ha, hr, rfl⟩ := exists_items hf
    cases hr with
    | @callee c _ output hc hr =>
      have := operand (c := .call c args) ⟨hc, ha⟩ hr
      simpa [Construct.listing, Arrangement.closingToken?] using this
  | array =>
    obtain ⟨items, rest, rfl, hi, hr, rfl⟩ := exists_items hf
    have := operand (c := .array items) hi hr
    simpa [Construct.listing, Arrangement.closingToken?] using this
  | object =>
    obtain ⟨entries, rest, rfl, he, hr, rfl⟩ := exists_entries hf
    have := operand (c := .object entries) he hr
    simpa [Construct.listing, Arrangement.closingToken?] using this

end Filled

namespace Arrangement

variable {a b : Arrangement} {position : Nat}

def inner (a : Arrangement) : List Slot :=
  a.waiting.flatMap Waiting.slots ++ a.scopes.flatMap Scope.slots

/-- What has been emitted fits what waits. -/
structure Coherent (a : Arrangement) : Prop where
  filled : Filled (if a.place = .operator then .operand :: a.inner else a.inner) a.output
  binds : ∀ w ∈ a.waiting, w.Binds
  outer : ∀ s ∈ a.scopes, ∀ w ∈ s.outer, w.Binds
  opened : a.place = .opened → a.waiting = [] ∧ ∃ s scopes, a.scopes = s :: scopes ∧
    s.commas = 0 ∧ (s.kind = .object → s.keyDue = true)
  due : a.keyDue = true → a.place ≠ .operator ∧ a.waiting = []
  settled : ∀ s ∈ a.scopes.tail, s.kind = .object → s.keyDue = false

theorem Coherent.filled_operator (h : a.Coherent) (hp : a.place = .operator) :
    Filled (.operand :: a.inner) a.output := by
  have := h.filled
  rwa [if_pos hp] at this

theorem Coherent.filled_operand (h : a.Coherent) (hp : a.place ≠ .operator) :
    Filled a.inner a.output := by
  have := h.filled
  rwa [if_neg hp] at this

theorem coherent_start : Coherent {} where
  filled := .nil
  binds := nofun
  outer := nofun
  opened := nofun
  due := nofun
  settled := nofun

theorem Coherent.settled_of_not_due (h : a.Coherent) (hd : a.keyDue = false) :
    ∀ s ∈ a.scopes, s.kind = .object → s.keyDue = false := by
  intro s hs hk
  cases hsc : a.scopes with
  | nil =>
    rw [hsc] at hs
    cases hs
  | cons t scopes =>
    rw [hsc] at hs
    rcases List.mem_cons.1 hs with rfl | hs
    · simpa [Arrangement.keyDue, hsc, hk] using hd
    · exact h.settled s (by rw [hsc]; exact hs) hk

theorem expected_ne_key (h : a.expected ≠ .key) : a.keyDue = false := by
  unfold expected at h
  split at h
  · exact absurd rfl h
  · next hk => exact Bool.eq_false_iff.2 hk

theorem place_of_expected (h : a.expected = .operator) : a.place = .operator := by
  unfold expected at h
  split at h
  · cases h
  · split at h
    · assumption
    · cases h

theorem Coherent.accept_operand {token : Token} (h : a.Coherent) (hs : token.IsOperand)
    (he : a.keyDue = false) (ha : a.operand token position = .ok b) : b.Coherent := by
  unfold operand at ha
  split at ha
  · cases ha
  · next hp =>
    cases ha
    exact {
      filled := (h.filled_operand hp).of_token hs
      binds := h.binds
      outer := h.outer
      opened := nofun
      due := fun hk => absurd (hk.symm.trans he) nofun
      settled := h.settled }

theorem Coherent.accept_members {names : List String} (h : a.Coherent) (hp : a.place = .operator)
    (hd : ∀ name ∈ names, '.' ∉ name.toList) : (a.members names).Coherent where
  filled := by
    have := (h.filled_operator hp).properties hd
    rwa [if_pos (show (a.members names).place = .operator from hp)]
  binds := h.binds
  outer := h.outer
  opened := h.opened
  due := h.due
  settled := h.settled

theorem Coherent.accept_key {name : String} (h : a.Coherent) (hk : a.keyDue = true) :
    (a.key name).Coherent := by
  obtain ⟨hp, hw⟩ := h.due hk
  have hf := h.filled_operand hp
  cases hs : a.scopes with
  | nil => simp [Arrangement.keyDue, hs] at hk
  | cons scope scopes =>
    obtain ⟨hobj, hdue⟩ : scope.kind = .object ∧ scope.keyDue = true := by
      simpa [Arrangement.keyDue, hs] using hk
    exact {
      filled := by
        have : Filled (.key :: a.inner) (.of (.key name) :: a.output) := .key hf
        simpa [Arrangement.key, inner, hw, hs, Scope.slots, ScopeKind.slots, hobj, hdue] using this
      binds := h.binds
      outer := by
        have := h.outer
        simpa [Arrangement.key, hs] using this
      opened := nofun
      due := by simp [Arrangement.key, Arrangement.keyDue, hs]
      settled := by
        have := h.settled
        simpa [Arrangement.key, hs] using this }

theorem opening_cases (a : Arrangement) (bracket : Bracket) (position : Nat) :
    (∀ limits, a.opening limits bracket position =
      .error (.grammar (.unexpectedToken "\x7b" position))) ∨
    ∃ kind, (if a.place = .operator then kind = .call ∨ kind = .index
        else kind ≠ .call ∧ kind ≠ .index) ∧
      ∀ limits, a.opening limits bracket position = a.openScope limits kind position := by
  cases hp : a.place with
  | operator =>
    cases bracket with
    | round => exact .inr ⟨.call, by simp, fun _ => by simp only [opening, hp]⟩
    | square => exact .inr ⟨.index, by simp, fun _ => by simp only [opening, hp]⟩
    | curly => exact .inl fun _ => by simp only [opening, hp]
  | _ =>
    cases bracket with
    | round => exact .inr ⟨.group, by simp, fun _ => by simp only [opening, hp]⟩
    | square => exact .inr ⟨.array, by simp, fun _ => by simp only [opening, hp]⟩
    | curly => exact .inr ⟨.object, by simp, fun _ => by simp only [opening, hp]⟩

theorem Coherent.accept_openScope {limits : Limits} {kind : ScopeKind} (h : a.Coherent)
    (he : a.keyDue = false)
    (hk : if a.place = .operator then kind = .call ∨ kind = .index
      else kind ≠ .call ∧ kind ≠ .index)
    (ha : a.openScope limits kind position = .ok b) : b.Coherent := by
  unfold openScope at ha
  split at ha
  · cases ha
  · cases ha
    refine {
      filled := ?_
      binds := nofun
      outer := List.forall_mem_cons.2 ⟨h.binds, h.outer⟩
      opened := fun _ => ⟨rfl, _, _, rfl, rfl, fun hk => decide_eq_true hk⟩
      due := fun _ => ⟨nofun, rfl⟩
      settled := h.settled_of_not_due he }
    by_cases hp : a.place = .operator
    · rw [if_pos hp] at hk
      have hf := h.filled_operator hp
      rcases hk with rfl | rfl
      · exact hf.markCallee
      · exact hf
    · rw [if_neg hp] at hk
      have hf := h.filled_operand hp
      cases kind with
      | group => exact hf
      | call => exact absurd rfl hk.1
      | array => exact hf
      | index => exact absurd rfl hk.2
      | object => exact hf

theorem Coherent.accept_opening {limits : Limits} {bracket : Bracket} (h : a.Coherent)
    (he : a.keyDue = false) (ha : a.opening limits bracket position = .ok b) : b.Coherent := by
  obtain herror | ⟨kind, hkind, hopen⟩ := opening_cases a bracket position
  · rw [herror] at ha
    cases ha
  · rw [hopen] at ha
    exact h.accept_openScope he hkind ha

theorem closing_eq_ok {bracket : Bracket} (h : a.closing bracket position = .ok b) :
    ∃ output scope scopes, a.place ≠ .operand ∧ emitAll a.waiting a.output = .ok output ∧
      a.scopes = scope :: scopes ∧ scope.kind.bracket = bracket ∧
      ¬(a.place = .opened ∧ (scope.kind = .group ∨ scope.kind = .index)) ∧
      b = {
        output := (closingToken? scope.kind
          (if a.place = .opened then 0 else scope.commas + 1)).toList ++ output
        waiting := scope.outer
        scopes := scopes
        place := .operator } := by
  simp only [closing, bind, Except.bind] at h
  split at h
  · cases h
  · next hp =>
    cases he : emitAll a.waiting a.output with
    | error fault => rw [he] at h; cases h
    | ok output =>
      cases hs : a.scopes with
      | nil => simp only [he, hs] at h; cases h
      | cons scope scopes =>
        simp only [he, hs, mapError_ok] at h
        split at h
        · cases h
        · next hb =>
          split at h
          · cases h
          · next ho =>
            cases h
            exact ⟨output, scope, scopes, hp, rfl, rfl, Decidable.not_not.1 hb, ho, rfl⟩

theorem Coherent.keyDue_of_operator {scope : Scope} {scopes : List Scope} (h : a.Coherent)
    (hs : a.scopes = scope :: scopes) (hp : a.place = .operator) (hk : scope.kind = .object) :
    scope.keyDue = false := by
  cases hd : scope.keyDue with
  | false => rfl
  | true => exact absurd hp (h.due (by simp [keyDue, hs, hk, hd])).1

theorem Coherent.filled_closing {scope : Scope} {scopes : List Scope} {output : List Token}
    (h : a.Coherent) (hp : a.place ≠ .operand) (he : emitAll a.waiting a.output = .ok output)
    (hs : a.scopes = scope :: scopes)
    (ho : ¬(a.place = .opened ∧ (scope.kind = .group ∨ scope.kind = .index))) :
    Filled (scope.kind.elements (if a.place = .opened then 0 else scope.commas + 1) ++
      (scope.outer.flatMap Waiting.slots ++ scopes.flatMap Scope.slots)) output := by
  cases hplace : a.place with
  | operand => exact absurd hplace hp
  | opened =>
    obtain ⟨hw, s, rest, hs', hc, hk⟩ := h.opened hplace
    rw [hs] at hs'
    cases hs'
    rw [hw] at he
    cases he
    have hf := h.filled_operand (by rw [hplace]; nofun)
    have hcomma : scope.kind.allowsComma = true := by
      cases hkind : scope.kind with
      | group => exact absurd ⟨hplace, .inl hkind⟩ ho
      | index => exact absurd ⟨hplace, .inr hkind⟩ ho
      | _ => rfl
    rw [if_pos rfl, ← ScopeKind.slots_of_allowsComma 0 hcomma hk]
    simpa [inner, hw, hs, Scope.slots, hc] using hf
  | operator =>
    have hf := (h.filled_operator hplace).emitAll h.binds he
    rw [if_neg nofun, ← ScopeKind.operand_slots scope.commas (h.keyDue_of_operator hs hplace)]
    simpa [hs, Scope.slots] using hf

theorem Coherent.accept_closing {bracket : Bracket} (h : a.Coherent)
    (ha : a.closing bracket position = .ok b) : b.Coherent := by
  obtain ⟨output, scope, scopes, hp, he, hs, -, ho, rfl⟩ := closing_eq_ok ha
  have hf := h.filled_closing hp he hs ho
  have houter := h.outer
  have hsettled := h.settled
  rw [hs] at houter hsettled
  obtain ⟨hb, houter⟩ := List.forall_mem_cons.1 houter
  exact {
    filled := hf.closing
    binds := hb
    outer := houter
    opened := nofun
    due := by
      intro hk
      cases scopes with
      | nil => cases hk
      | cons t rest =>
        have ht := hsettled t List.mem_cons_self
        simp only [keyDue, Bool.and_eq_true, decide_eq_true_eq] at hk
        rw [ht hk.1] at hk
        exact absurd hk.2 nofun
    settled := fun s hs => hsettled s (List.mem_of_mem_tail hs) }

theorem comma_eq_ok (h : a.comma position = .ok b) :
    ∃ output scope scopes, a.place = .operator ∧ emitAll a.waiting a.output = .ok output ∧
      a.scopes = scope :: scopes ∧ scope.kind.allowsComma = true ∧
      b = {
        output
        waiting := []
        scopes := { scope with commas := scope.commas + 1, keyDue := scope.kind = .object } :: scopes
        place := .operand } := by
  simp only [comma, bind, Except.bind] at h
  split at h
  · cases h
  · next hp =>
    cases he : emitAll a.waiting a.output with
    | error fault => rw [he] at h; cases h
    | ok output =>
      cases hs : a.scopes with
      | nil => simp only [he, hs] at h; cases h
      | cons scope scopes =>
        simp only [he, hs, mapError_ok] at h
        split at h
        · cases h
        · next hc =>
          cases h
          exact ⟨output, scope, scopes, Decidable.not_not.1 hp, rfl, rfl, by simpa using hc, rfl⟩

theorem Coherent.accept_comma (h : a.Coherent) (ha : a.comma position = .ok b) : b.Coherent := by
  obtain ⟨output, scope, scopes, hp, he, hs, hc, rfl⟩ := comma_eq_ok ha
  have hf := (h.filled_operator hp).emitAll h.binds he
  have houter := h.outer
  have hsettled := h.settled
  rw [hs] at houter hsettled
  obtain ⟨hb, houter⟩ := List.forall_mem_cons.1 houter
  exact {
    filled := by
      have ho := ScopeKind.operand_slots scope.commas (h.keyDue_of_operator hs hp)
      have hn := ScopeKind.slots_of_allowsComma (scope.commas + 1) hc
        (fun hk => decide_eq_true hk)
      have hf : Filled ((.operand :: scope.kind.slots scope.commas scope.keyDue) ++
          (scope.outer.flatMap Waiting.slots ++ scopes.flatMap Scope.slots)) output := by
        simpa [hs, Scope.slots] using hf
      rw [ho, ← hn] at hf
      simpa [inner, Scope.slots] using hf
    binds := nofun
    outer := List.forall_mem_cons.2 ⟨hb, houter⟩
    opened := nofun
    due := fun _ => ⟨nofun, rfl⟩
    settled := hsettled }

theorem Coherent.accept_question (h : a.Coherent) (ha : a.question position = .ok b) :
    b.Coherent := by
  unfold question at ha
  split at ha
  · cases ha
  · next hp =>
    have hp := Decidable.not_not.1 hp
    cases ha
    obtain ⟨hf, hb⟩ := (h.filled_operator hp).emitWhile h.binds rfl
    exact {
      filled := hf
      binds := List.forall_mem_cons.2 ⟨trivial, hb⟩
      outer := h.outer
      opened := nofun
      due := fun hk => absurd hp (h.due hk).1
      settled := h.settled }

theorem Coherent.accept_colon (h : a.Coherent) (ha : a.colon position = .ok b) :
    b.Coherent := by
  simp only [colon, bind, Except.bind] at ha
  split at ha
  · cases ha
  · next hp =>
    have hp := Decidable.not_not.1 hp
    cases he : emitToQuestion position a.waiting a.output with
    | error fault => rw [he] at ha; cases ha
    | ok r =>
      rw [he] at ha
      cases ha
      obtain ⟨hf, hb⟩ := (h.filled_operator hp).emitToQuestion h.binds he
      exact {
        filled := hf
        binds := hb
        outer := h.outer
        opened := nofun
        due := fun hk => absurd hp (h.due hk).1
        settled := h.settled }

theorem operands_of_binary? {cs : List Char} {op : Operator} (h : Operator.binary? cs = some op) :
    op.operands = 2 := by
  unfold Operator.binary? at h
  split at h <;> cases h <;> rfl

theorem operands_of_unary? {cs : List Char} {op : Operator} (h : Operator.unary? cs = some op) :
    op.operands = 1 := by
  unfold Operator.unary? at h
  split at h <;> cases h <;> rfl

theorem Coherent.accept_symbol {cs : List Char} (h : a.Coherent) (hk : a.keyDue = false)
    (ha : a.symbol cs position = .ok b) : b.Coherent := by
  unfold symbol at ha
  split at ha
  · next hp =>
    split at ha
    · cases ha
    · next op hop =>
      cases ha
      have hop := operands_of_binary? hop
      obtain ⟨hf, hb⟩ := (h.filled_operator hp).emitWhile h.binds rfl
      exact {
        filled := by simpa [inner, Waiting.slots, hop] using hf
        binds := List.forall_mem_cons.2 ⟨.inr hop, hb⟩
        outer := h.outer
        opened := nofun
        due := fun hd => absurd (hd.symm.trans hk) nofun
        settled := h.settled }
  · next hp =>
    split at ha
    · cases ha
    · next op hop =>
      cases ha
      have hop := operands_of_unary? hop
      exact {
        filled := by simpa [inner, Waiting.slots, hop] using h.filled_operand hp
        binds := List.forall_mem_cons.2 ⟨.inl hop, h.binds⟩
        outer := h.outer
        opened := nofun
        due := fun hd => absurd (hd.symm.trans hk) nofun
        settled := h.settled }

theorem Coherent.accept {limits : Limits} {lexeme : Lexeme} (h : a.Coherent)
    (hs : lexeme.Suits a.expected) (ha : a.accept limits lexeme position = .ok b) :
    b.Coherent := by
  cases lexeme with
  | operand token => exact h.accept_operand hs.2 (expected_ne_key hs.1) ha
  | members names =>
    cases ha
    exact h.accept_members (place_of_expected hs.1) hs.2
  | key name =>
    cases ha
    refine h.accept_key ?_
    by_cases hk : a.keyDue = true
    · exact hk
    · simp only [Lexeme.Suits, expected, if_neg hk] at hs
      split at hs <;> cases hs
  | opening bracket => exact h.accept_opening (expected_ne_key hs) ha
  | closing bracket => exact h.accept_closing ha
  | comma => exact h.accept_comma ha
  | colon => exact h.accept_colon ha
  | question => exact h.accept_question ha
  | symbol cs => exact h.accept_symbol (expected_ne_key hs) ha

/-- The tokens at the end of a text are the listing of a construct. -/
theorem Coherent.finish {tokens : List Token} (h : a.Coherent)
    (hf : a.finish position = .ok tokens) :
    ∃ c : Construct, c.Regular false ∧ tokens = c.listing := by
  unfold Arrangement.finish at hf
  split at hf
  · split at hf <;> cases hf
  · next hp =>
    split at hf
    · cases hf
    · next hs =>
      obtain ⟨output, he, rfl⟩ := Lexeme.map_eq_ok_iff.1 hf
      have he := Lexeme.mapError_eq_ok_iff.1 he
      have hoperator : a.place = .operator := by
        cases hplace : a.place with
        | opened =>
          obtain ⟨-, s, rest, hs', -⟩ := h.opened hplace
          rw [hs] at hs'
          cases hs'
        | operand => exact absurd hplace hp
        | operator => rfl
      have hfilled := (h.filled_operator hoperator).emitAll h.binds he
      rw [hs] at hfilled
      cases hfilled with
      | @operand c _ rest hc hr =>
        cases hr
        exact ⟨c, hc, by simp⟩

theorem Coherent.run {limits : Limits} {c : Cursor} {tokens : List Token} (h : a.Coherent)
    (hr : a.run limits c = .ok tokens) : ∃ c : Construct, c.Regular false ∧ tokens = c.listing := by
  fun_induction Arrangement.run limits a c with
  | case1 => cases hr
  | case2 a c hn => exact h.finish hr
  | case3 => cases hr
  | case4 a c lexeme next hl b hb ih => exact ih (h.accept (Lexeme.suits_of_read? hl) hb) hr

end Arrangement

/-- The tokens of a source are the listing of a construct. -/
theorem exists_construct_of_arrange {limits : Limits} {source : String} {tokens : List Token}
    (h : arrange limits source = .ok tokens) :
    ∃ c : Construct, c.Regular false ∧ tokens = c.listing :=
  Arrangement.coherent_start.run h

theorem arrange_of_tokenize {limits : Limits} {source : String} {tokens : List Token}
    (h : tokenize limits source = .ok tokens) : arrange limits source = .ok tokens := by
  unfold tokenize at h
  split at h
  · cases h
  · exact h

end TemplateBinding
