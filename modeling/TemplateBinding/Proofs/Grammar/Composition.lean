import TemplateBinding.Proofs.Grammar.Nesting

set_option autoImplicit false

namespace TemplateBinding

/-- A source with the tokens that it has by itself, under limits of its own. -/
structure Snippet where
  source : String
  limits : Limits
  tokens : List Token
  tokenized : tokenize limits source = .ok tokens

namespace Snippet

def chars (s : Snippet) : List Char := s.source.toList

end Snippet

structure PlainPath where
  path : DottedPath
  plain : path.names ∉ [["true"], ["false"], ["null"], ["undefined"]]

namespace PlainPath

def text (p : PlainPath) : String := ".".intercalate p.path.names

theorem ofPath_names (p : PlainPath) :
    Lexeme.ofPath p.path.names = .operand (.of (.identifier p.text)) := by
  have hplain := p.plain
  unfold text
  generalize p.path.names = names at hplain
  unfold Lexeme.ofPath
  split <;> first | rfl | exact absurd (by simp) hplain

theorem reads (p : PlainPath) :
    Lexeme.Reads .operand p.text.toList (.operand (.of (.identifier p.text))) := by
  have hreads := Lexeme.reads_path p.path
  rwa [p.ofPath_names] at hreads

end PlainPath

/-- What can be put together from one or more sources. -/
inductive Composite where
  | group (inner : Snippet)
  | array (first : Snippet) (others : List Snippet)
  | call (callee : PlainPath) (first : Snippet) (others : List Snippet)
  | index (holder : PlainPath) (key : Snippet)
  | object (first : Name × Snippet) (others : List (Name × Snippet))
  | negation (inner : Snippet)
  | binary (op : Operator) (operands : op.operands = 2) (left right : Snippet)
  | conditional (condition yes no : Snippet)

namespace Composite

def text : Composite → String
  | group inner => "(" ++ inner.source ++ ")"
  | array first others => "[" ++ ",".intercalate ((first :: others).map Snippet.source) ++ "]"
  | call callee first others =>
    callee.text ++ "(" ++ ",".intercalate ((first :: others).map Snippet.source) ++ ")"
  | index holder key => holder.text ++ "[" ++ key.source ++ "]"
  | object first others =>
    "\x7b" ++ ",".intercalate ((first :: others).map fun e => e.1.text ++ ":" ++ e.2.source) ++
      "\x7d"
  | negation inner => "!(" ++ inner.source ++ ")"
  | binary op _ left right =>
    "(" ++ left.source ++ ") " ++ String.ofList op.symbol ++ " (" ++ right.source ++ ")"
  | conditional condition yes no =>
    "(" ++ condition.source ++ ") ? " ++ yes.source ++ " : " ++ no.source

def tokens : Composite → List Token
  | group inner => inner.tokens
  | array first others =>
    (first :: others).flatMap Snippet.tokens ++ [⟨.array, (first :: others).length⟩]
  | call callee first others =>
    ⟨.identifier callee.text, calleeArity⟩ :: (first :: others).flatMap Snippet.tokens ++
      [⟨.call, (first :: others).length⟩]
  | index holder key =>
    ⟨.identifier holder.text, referenceArity⟩ :: key.tokens ++ [.of .index]
  | object first others =>
    ((first :: others).flatMap fun e => .of (.key e.1.text) :: e.2.tokens) ++
      [⟨.object, (first :: others).length⟩]
  | negation inner => inner.tokens ++ [.of (.operator .not)]
  | binary op _ left right => left.tokens ++ right.tokens ++ [.of (.operator op)]
  | conditional condition yes no =>
    condition.tokens ++ yes.tokens ++ no.tokens ++ [.of (.operator .conditional)]

attribute [simp] text tokens

def parts : Composite → List Snippet
  | group inner => [inner]
  | array first others => first :: others
  | call _ first others => first :: others
  | index _ key => [key]
  | object first others => (first :: others).map Prod.snd
  | negation inner => [inner]
  | binary _ _ left right => [left, right]
  | conditional condition yes no => [condition, yes, no]

/-- How deep brackets are nested at most, where each part keeps to its own limit. -/
def nesting (c : Composite) : Nat := (c.parts.map fun s => s.limits.maxDepth).foldr max 0 + 1

theorem lt_nesting {c : Composite} {s : Snippet} (h : s ∈ c.parts) :
    s.limits.maxDepth < c.nesting := by
  unfold nesting
  generalize c.parts = parts at h
  induction parts with
  | nil => cases h
  | cons t parts ih =>
    rw [List.map_cons, List.foldr_cons]
    rcases List.mem_cons.1 h with rfl | h
    · exact Nat.lt_succ_of_le (Nat.le_max_left _ _)
    · exact Nat.lt_of_lt_of_le (ih h) (Nat.succ_le_succ (Nat.le_max_right _ _))

end Composite

namespace Arrangement

variable {limits : Limits} {a : Arrangement} {depth position : Nat} {text : List Char}
  {tokens : List Token}

theorem yields_opening (bracket : Bracket) (kind : ScopeKind) (he : a.expected ≠ .key)
    (ha : ∀ position,
      a.accept limits (.opening bracket) position = a.openScope limits kind position)
    (hd : a.scopes.length < depth)
    (h : ∀ position, Yields limits depth (a.inside kind position) text tokens) :
    Yields limits depth a (bracket.opener :: text) tokens := by
  refine yields_punctuation (Lexeme.punctuation?_opener bracket) he fun position => ?_
  rw [ha]
  by_cases hlt : a.scopes.length < limits.maxDepth
  · exact .inl ⟨_, openScope_eq hlt, h position⟩
  · refine .inr ⟨by omega, .nestingTooDeep limits.maxDepth position, ?_⟩
    rw [openScope, if_pos (by omega)]

theorem yields_closing {wait : List Waiting} {output : List Token} {scope : Scope}
    {scopes : List Scope} (hk : scope.keyDue = false) (hw : ∀ w ∈ wait, w.HoldsAt 0)
    (h : Yields limits depth (outside scope scopes (scope.commas + 1) (emitted wait output)) text
      tokens) :
    Yields limits depth ⟨output, wait, scope :: scopes, .operator⟩
      (scope.kind.bracket.closer :: text) tokens := by
  have hexpected : expected ⟨output, wait, scope :: scopes, .operator⟩ ≠ .key := by
    rw [expected_operator rfl (keyDue_scope hk)]
    exact nofun
  exact yields_punctuation (Lexeme.punctuation?_closer _) hexpected fun _ =>
    .inl ⟨_, accept_closing hw, h⟩

theorem delimits_closer (bracket : Bracket) (text : List Char) :
    Delimits (bracket.closer :: text) :=
  delimits_cons (by cases bracket <;> decide)

theorem Awaits.expected_eq (h : a.Awaits) : a.expected = .operand :=
  expected_operand h.place h.keyDue

theorem awaits_scope {output : List Token} {scope : Scope} {scopes : List Scope} {place : Place}
    (hp : place ≠ .operator) (hk : scope.keyDue = false) :
    Awaits ⟨output, [], scope :: scopes, place⟩ where
  place := hp
  keyDue := keyDue_scope hk
  admits := admits_nil 0

end Arrangement

open Arrangement

variable {limits : Limits} {a : Arrangement} {depth position : Nat} {text : List Char}
  {tokens : List Token}

namespace Snippet

theorem yields (s : Snippet) (h : a.Awaits) (hf : Delimits text)
    (hd : a.scopes.length + s.limits.maxDepth ≤ depth)
    (hk : ∀ wait output, (∀ w ∈ wait, w.HoldsAt 0) →
      emitted wait output = s.tokens.reverse ++ a.output →
        Yields limits depth (a.behind wait output) text tokens) :
    Yields limits depth a (s.chars ++ text) tokens :=
  yields_source s.tokenized h hf hd hk

theorem yields_closed (s : Snippet) {kind : ScopeKind} (ho : kind ≠ .object)
    (hd : a.scopes.length + s.limits.maxDepth < depth)
    (h : Yields limits depth (a.behind [] ((closingToken? kind 1).toList ++
      (s.tokens.reverse ++ (a.inside kind position).output))) text tokens) :
    Yields limits depth (a.inside kind position) (s.chars ++ kind.bracket.closer :: text)
      tokens := by
  have hk : decide (kind = .object) = false := decide_eq_false ho
  have hlength : (a.inside kind position).scopes.length + s.limits.maxDepth ≤ depth := by
    simp only [inside, List.length_cons]
    omega
  have hplace : Place.opened ≠ .operator := by decide
  refine s.yields (awaits_scope hplace hk) (delimits_closer _ _) hlength fun wait output hw he => ?_
  have hbehind : (a.inside kind position).behind wait output =
      ⟨output, wait, ⟨kind, position, 0, kind = .object, a.waiting⟩ :: a.scopes, .operator⟩ := by
    simp [behind, inside]
  rw [hbehind]
  refine yields_closing hk hw ?_
  rw [he]
  exact h

theorem yields_group (s : Snippet) (hp : a.place ≠ .operator) (hk : a.keyDue = false)
    (hd : a.scopes.length + s.limits.maxDepth < depth)
    (h : Yields limits depth (a.behind [] (s.tokens.reverse ++ a.output)) text tokens) :
    Yields limits depth a ('(' :: (s.chars ++ ')' :: text)) tokens := by
  have hkey : a.expected ≠ .key := by rw [expected_operand hp hk]; exact nofun
  have hopen : a.scopes.length < depth := by omega
  have hkind : ScopeKind.group ≠ .object := nofun
  exact yields_opening .round .group hkey (fun _ => accept_opening .round hp) hopen
    fun _ => s.yields_closed hkind hd h

end Snippet

section elements

open Phrase (due done)

variable {α : Type} {chars : α → List Char} {listing : α → List Token} {scope : Scope}
  {scopes : List Scope}

/-- The text of one element yields its tokens in the bracket. -/
def YieldsElement (limits : Limits) (depth : Nat) (chars : α → List Char)
    (listing : α → List Token) (scope : Scope) (scopes : List Scope) (x : α) : Prop :=
  ∀ (before : List Token) (commas : Nat) (place : Place) (text : List Char) (tokens : List Token),
    place ≠ .operator → Delimits text →
      (∀ wait output, (∀ w ∈ wait, w.HoldsAt 0) →
        emitted wait output = (listing x).reverse ++ before →
          Yields limits depth ⟨output, wait, done scope commas :: scopes, .operator⟩ text tokens) →
        Yields limits depth ⟨before, [], due scope commas :: scopes, place⟩ (chars x ++ text) tokens

theorem yields_separated (hc : scope.kind.allowsComma = true) {x : α} {xs : List α}
    (h : ∀ y ∈ x :: xs, YieldsElement limits depth chars listing scope scopes y)
    (before : List Token) (commas : Nat) {place : Place} (hp : place ≠ .operator)
    (hf : Delimits text)
    (hk : ∀ wait output, (∀ w ∈ wait, w.HoldsAt 0) →
      emitted wait output = ((x :: xs).flatMap listing).reverse ++ before →
        Yields limits depth
          ⟨output, wait, done scope (commas + xs.length) :: scopes, .operator⟩ text tokens) :
    Yields limits depth ⟨before, [], due scope commas :: scopes, place⟩
      ([','].intercalate ((x :: xs).map chars) ++ text) tokens := by
  obtain ⟨hx, hxs⟩ := List.forall_mem_cons.1 h
  induction xs generalizing x before commas place with
  | nil =>
    have helement := hx before commas place text tokens hp hf fun wait output hw he =>
      hk wait output hw (by simpa using he)
    simpa using helement
  | cons y xs ih =>
    have hcomma : Delimits (',' :: ([','].intercalate ((y :: xs).map chars) ++ text)) :=
      delimits_cons (by decide)
    have hwords : [','].intercalate ((x :: y :: xs).map chars) ++ text =
        chars x ++ ',' :: ([','].intercalate ((y :: xs).map chars) ++ text) := by
      rw [List.map_cons, List.map_cons, List.intercalate_cons_cons]
      simp
    rw [hwords]
    refine hx before commas place _ _ hp hcomma fun wait output hw he => ?_
    have hexpected : expected ⟨output, wait, done scope commas :: scopes, .operator⟩ ≠ .key := by
      rw [expected_operator rfl (keyDue_scope rfl)]
      exact nofun
    refine yields_punctuation rfl hexpected fun position => .inl ⟨_, accept_comma hc hw, ?_⟩
    rw [he]
    have hplace : Place.operand ≠ .operator := by decide
    obtain ⟨hy, hys⟩ := List.forall_mem_cons.1 hxs
    refine ih hxs ((listing x).reverse ++ before) (commas + 1) hplace ?_ hy hys
    intro wait output hw he
    have hcommas : commas + (y :: xs).length = commas + 1 + xs.length := by
      rw [List.length_cons, Nat.add_assoc, Nat.add_comm 1]
    rw [hcommas] at hk
    exact hk wait output hw (by rw [he]; simp)

theorem yields_elements {kind : ScopeKind} (hc : kind.allowsComma = true) {x : α} {xs : List α}
    (h : ∀ y ∈ x :: xs, YieldsElement limits depth chars listing
      ⟨kind, position, 0, kind = .object, a.waiting⟩ a.scopes y)
    (hk : Yields limits depth (a.behind [] ((closingToken? kind (x :: xs).length).toList ++
      (((x :: xs).flatMap listing).reverse ++ (a.inside kind position).output))) text tokens) :
    Yields limits depth (a.inside kind position)
      ([','].intercalate ((x :: xs).map chars) ++ kind.bracket.closer :: text) tokens := by
  have hplace : Place.opened ≠ .operator := by decide
  refine yields_separated hc h (a.inside kind position).output 0 hplace (delimits_closer _ _)
    fun wait output hw he => yields_closing rfl hw ?_
  rw [he]
  generalize (a.inside kind position).output = before at hk
  simpa [outside, done, behind] using hk

end elements

namespace Snippet

theorem yieldsElement {scope : Scope} {scopes : List Scope} (ho : scope.kind ≠ .object)
    (s : Snippet) (hd : scopes.length + s.limits.maxDepth < depth) :
    YieldsElement limits depth chars Snippet.tokens scope scopes s := by
  intro before commas place text tokens hp hf hk
  have hkey : (Phrase.due scope commas).keyDue = false := decide_eq_false ho
  have hlength : (Phrase.due scope commas :: scopes).length + s.limits.maxDepth ≤ depth := by
    rw [List.length_cons]
    omega
  refine s.yields (awaits_scope hp hkey) hf hlength fun wait output hw he => ?_
  have hbehind : behind ⟨before, [], Phrase.due scope commas :: scopes, place⟩ wait output =
      ⟨output, wait, Phrase.done scope commas :: scopes, .operator⟩ := by
    simp [behind, Phrase.due, Phrase.done, ho]
  rw [hbehind]
  exact hk wait output hw he

end Snippet

theorem Lexeme.read?_key (key : KeyWord) {c : Cursor} (hr : c.rest = key.chars ++ ':' :: text) :
    ∃ d, Lexeme.read? .key c.skipBlanks = .ok (some (.key key.text, d)) ∧ d.rest = text := by
  obtain ⟨ch, cs, hs, hb, hne⟩ := exists_chars_key key
  have hrest : c.rest = ch :: (cs ++ ':' :: text) := by rw [hr, hs]; rfl
  have hcurly : c.nextIs (· == '\x7d') = false := by
    rw [Cursor.nextIs_cons hrest]
    exact beq_eq_false_iff_ne.2 hne
  have hcolon : Delimits (':' :: text) := delimits_cons (by decide)
  have halone : Cursor.rest ⟨key.chars, 0⟩ = key.chars ++ [] := (List.append_nil _).symm
  obtain ⟨e, he, herest⟩ := readKeyName_key key halone nofun
  have hwithin : Cursor.within c.offset (':' :: text) ⟨key.chars, 0⟩ = c := by
    simp [Cursor.within, ← hr]
  have hname : readKeyName (Cursor.within c.offset (':' :: text) ⟨key.chars, 0⟩) =
      .ok (key.text, e.within c.offset (':' :: text)) := readKeyName_within hcolon he
  have hafter : (e.within c.offset (':' :: text)).rest = ':' :: text := by
    rw [Cursor.rest_within, herest]
    rfl
  rw [hwithin] at hname
  refine ⟨(e.within c.offset (':' :: text)).next, ?_, Cursor.rest_next hafter⟩
  have hskip := skipBlanks_of_visible hafter (by decide)
  have hnext : (e.within c.offset (':' :: text)).nextIs (· == ':') = true :=
    Cursor.nextIs_cons hafter
  rw [skipBlanks_of_visible hrest hb]
  unfold Lexeme.read? Lexeme.readKey
  rw [if_pos ⟨rfl, hcurly⟩, hname]
  dsimp only
  rw [hskip, if_pos hnext]
  rfl

namespace Arrangement

theorem yields_key (key : KeyWord) (hk : a.keyDue = true)
    (h : Yields limits depth (a.key key.text) text tokens) :
    Yields limits depth a (key.chars ++ ':' :: text) tokens := by
  have hread (c : Cursor) (hc : c.rest = (key.chars ++ [':']) ++ text) :
      ∃ d, Lexeme.read? a.expected c.skipBlanks = .ok (some (.key key.text, d)) ∧
        d.rest = text := by
    rw [expected_key hk]
    exact Lexeme.read?_key key (by rw [hc, List.append_assoc]; rfl)
  have hword := yields_lexeme hread fun _ => .inl ⟨_, rfl, h⟩
  rwa [List.append_assoc] at hword

theorem yieldsElement_entry {scope : Scope} {scopes : List Scope} (ho : scope.kind = .object)
    (e : Name × Snippet) (hd : scopes.length + e.2.limits.maxDepth < depth) :
    YieldsElement limits depth (fun e => e.1.text.toList ++ ':' :: e.2.chars)
      (fun e => .of (.key e.1.text) :: e.2.tokens) scope scopes e := by
  intro before commas place text tokens hp hf hk
  have hdue : keyDue ⟨before, [], Phrase.due scope commas :: scopes, place⟩ = true := by
    simp [keyDue, Phrase.due, ho]
  have hkey : key ⟨before, [], Phrase.due scope commas :: scopes, place⟩ (KeyWord.name e.1).text =
      ⟨.of (.key e.1.text) :: before, [], Phrase.done scope commas :: scopes, .operand⟩ := rfl
  have hlength : (Phrase.done scope commas :: scopes).length + e.2.limits.maxDepth ≤ depth := by
    rw [List.length_cons]
    omega
  rw [List.append_assoc]
  refine yields_key (.name e.1) hdue ?_
  rw [hkey]
  have hplace : Place.operand ≠ .operator := by decide
  refine e.2.yields (awaits_scope hplace rfl) hf hlength fun wait output hw he => ?_
  have hbehind : behind ⟨.of (.key e.1.text) :: before, [], Phrase.done scope commas :: scopes,
      .operand⟩ wait output = ⟨output, wait, Phrase.done scope commas :: scopes, .operator⟩ := by
    simp [behind]
  rw [hbehind]
  exact hk wait output hw (by rw [he]; simp)

end Arrangement

theorem PlainPath.yields (p : PlainPath) (h : a.Awaits) (hf : Delimits text)
    (hk : Yields limits depth (a.behind [] (.of (.identifier p.text) :: a.output)) text tokens) :
    Yields limits depth a (p.text.toList ++ text) tokens := by
  refine yields_word h.expected_eq p.reads hf fun position => ⟨_, ?_, hk⟩
  simp only [accept, operand, if_neg h.place]
  rfl

namespace Composite

theorem awaits_start : Awaits {} := ⟨nofun, rfl, admits_nil 0⟩

theorem yields_done {output : List Token} (h : output = tokens.reverse) :
    Yields limits depth ⟨output, [], [], .operator⟩ [] tokens :=
  yields_end (List.forall_mem_nil _) h

theorem yields_waiting {wait : List Waiting} {w : Waiting} {output : List Token}
    (hw : ∀ w ∈ wait, w.HoldsAt 0) (h : w.HoldsAt 0)
    (he : w.token :: emitted wait output = tokens.reverse) :
    Yields limits depth ⟨output, wait ++ [w], [], .operator⟩ [] tokens := by
  have hall : ∀ v ∈ wait ++ [w], v.HoldsAt 0 := by
    intro v hv
    rcases List.mem_append.1 hv with hv | hv
    · exact hw v hv
    · rwa [List.mem_singleton.1 hv]
  exact yields_end hall (by rw [emitted_concat, he])

theorem nesting_part {c : Composite} {s : Snippet} {scopes : List Scope} (h : s ∈ c.parts)
    (hs : scopes = []) : scopes.length + s.limits.maxDepth < c.nesting := by
  have := lt_nesting h
  simpa [hs] using this

theorem toList_listed {α : Type} (source : α → String) (xs : List α) :
    (",".intercalate (xs.map source)).toList =
      [','].intercalate (xs.map fun x => (source x).toList) := by
  rw [String.toList_intercalate, List.map_map]
  rfl

theorem yields_group (inner : Snippet) :
    Yields limits (group inner).nesting {} (group inner).text.toList (group inner).tokens := by
  have htext : (group inner).text.toList = '(' :: (inner.chars ++ ')' :: []) := by
    simp [Snippet.chars]
  rw [htext]
  exact inner.yields_group nofun rfl (nesting_part List.mem_cons_self rfl)
    (yields_done (List.append_nil _))

theorem yields_array (first : Snippet) (others : List Snippet) :
    Yields limits (array first others).nesting {} (array first others).text.toList
      (array first others).tokens := by
  have htext : (array first others).text.toList =
      '[' :: ([','].intercalate ((first :: others).map Snippet.chars) ++ ']' :: []) := by
    simp only [text, String.toList_append, toList_listed]
    rfl
  have hkind : ScopeKind.array ≠ .object := nofun
  rw [htext]
  refine yields_opening .square .array nofun (fun _ => accept_opening .square nofun)
    (Nat.succ_pos _) fun _ => ?_
  refine yields_elements rfl (fun s hs => s.yieldsElement hkind (nesting_part hs rfl)) ?_
  exact yields_done (by simp [closingToken?, inside])

theorem yields_call (callee : PlainPath) (first : Snippet) (others : List Snippet) :
    Yields limits (call callee first others).nesting {} (call callee first others).text.toList
      (call callee first others).tokens := by
  have htext : (call callee first others).text.toList = callee.text.toList ++
      '(' :: ([','].intercalate ((first :: others).map Snippet.chars) ++ ')' :: []) := by
    simp only [text, String.toList_append, toList_listed, List.append_assoc]
    rfl
  rw [htext]
  have hkind : ScopeKind.call ≠ .object := nofun
  refine callee.yields awaits_start (delimits_cons (by decide)) ?_
  refine yields_opening .round .call nofun (fun _ => accept_call rfl) (Nat.succ_pos _) fun _ => ?_
  refine yields_elements rfl (fun s hs => s.yieldsElement hkind (nesting_part hs rfl)) ?_
  refine yields_done ?_
  simp [closingToken?, inside, behind, markCallee, Token.of, Lexical.defaultArity]

theorem yields_index (holder : PlainPath) (key : Snippet) :
    Yields limits (index holder key).nesting {} (index holder key).text.toList
      (index holder key).tokens := by
  have htext : (index holder key).text.toList =
      holder.text.toList ++ '[' :: (key.chars ++ ']' :: []) := by
    simp [Snippet.chars]
  rw [htext]
  refine holder.yields awaits_start (delimits_cons (by decide)) ?_
  refine yields_opening .square .index nofun (fun _ => accept_index rfl) (Nat.succ_pos _)
    fun _ => ?_
  refine key.yields_closed nofun (nesting_part List.mem_cons_self rfl) (yields_done ?_)
  simp [closingToken?, inside, behind, Token.of, Lexical.defaultArity]

theorem yields_object (first : Name × Snippet) (others : List (Name × Snippet)) :
    Yields limits (object first others).nesting {} (object first others).text.toList
      (object first others).tokens := by
  have htext : (object first others).text.toList = '\x7b' ::
      ([','].intercalate ((first :: others).map fun e => e.1.text.toList ++ ':' :: e.2.chars) ++
        '\x7d' :: []) := by
    simp only [text, String.toList_append, toList_listed, List.append_assoc]
    rfl
  have hpart (e : Name × Snippet) (he : e ∈ first :: others) :
      e.2 ∈ (object first others).parts := List.mem_map_of_mem he
  rw [htext]
  refine yields_opening .curly .object nofun (fun _ => accept_opening .curly nofun)
    (Nat.succ_pos _) fun _ => ?_
  refine yields_elements rfl
    (fun e he => yieldsElement_entry rfl e (nesting_part (hpart e he) rfl)) (yields_done ?_)
  simp [closingToken?, inside]

theorem yields_negation (inner : Snippet) :
    Yields limits (negation inner).nesting {} (negation inner).text.toList
      (negation inner).tokens := by
  have htext : (negation inner).text.toList =
      Operator.not.symbol ++ '(' :: (inner.chars ++ ')' :: []) := by
    simp [Snippet.chars, Operator.symbol]
  have hreads : Lexeme.Reads .operand Operator.not.symbol (.symbol Operator.not.symbol) :=
    Lexeme.reads_symbol nofun nofun
  rw [htext]
  refine yields_word rfl hreads (delimits_cons (by decide)) fun _ =>
    ⟨_, accept_unary rfl nofun, ?_⟩
  refine inner.yields_group nofun rfl (nesting_part List.mem_cons_self rfl) ?_
  refine yields_waiting (List.forall_mem_nil _) (Nat.zero_le _) ?_
  simp [Waiting.token, Token.operator]

theorem yields_binary (op : Operator) (operands : op.operands = 2) (left right : Snippet) :
    Yields limits (binary op operands left right).nesting {}
      (binary op operands left right).text.toList (binary op operands left right).tokens := by
  have htext : (binary op operands left right).text.toList = '(' :: (left.chars ++ ')' ::
      ' ' :: (op.symbol ++ ' ' :: '(' :: (right.chars ++ ')' :: []))) := by
    simp [Snippet.chars]
  have hreads : Lexeme.Reads .operator op.symbol (.symbol op.symbol) :=
    Lexeme.reads_symbol nofun (Operator.ne_conditional (.inr operands))
  have hright : right ∈ (binary op operands left right).parts :=
    List.mem_cons_of_mem _ List.mem_cons_self
  have hnone : ∀ w ∈ ([] : List Waiting), w.HoldsAt op.leftLevel := List.forall_mem_nil _
  rw [htext]
  refine left.yields_group nofun rfl (nesting_part List.mem_cons_self rfl) (yields_blank ?_)
  refine yields_word rfl hreads (delimits_cons (by decide)) fun _ =>
    ⟨_, accept_binary operands (Nat.le_refl _) hnone (admits_nil _), yields_blank ?_⟩
  refine right.yields_group nofun rfl (nesting_part hright rfl) ?_
  refine yields_waiting (List.forall_mem_nil _) (Nat.zero_le _) ?_
  simp [Waiting.token, Token.operator]

theorem yields_conditional (condition yes no : Snippet) :
    Yields limits (conditional condition yes no).nesting {}
      (conditional condition yes no).text.toList (conditional condition yes no).tokens := by
  have htext : (conditional condition yes no).text.toList = '(' :: (condition.chars ++ ')' ::
      ' ' :: (['?'] ++ ' ' :: (yes.chars ++ ' ' :: ':' :: ' ' :: (no.chars ++ [])))) := by
    simp [Snippet.chars]
  have hyes : yes ∈ (conditional condition yes no).parts :=
    List.mem_cons_of_mem _ List.mem_cons_self
  have hno : no ∈ (conditional condition yes no).parts :=
    List.mem_cons_of_mem _ (List.mem_cons_of_mem _ List.mem_cons_self)
  have hnone : ∀ w ∈ ([] : List Waiting), w.HoldsAt 1 := List.forall_mem_nil _
  rw [htext]
  refine condition.yields_group nofun rfl (nesting_part List.mem_cons_self rfl) (yields_blank ?_)
  refine yields_word rfl Lexeme.reads_question (delimits_cons (by decide)) fun position =>
    ⟨_, accept_question (Nat.le_refl 1) hnone (admits_nil 0), yields_blank ?_⟩
  have hyesAwaits : Awaits ⟨condition.tokens.reverse ++ [], [.question position], [], .operand⟩ :=
    ⟨nofun, rfl, admits_question 0 position []⟩
  refine yes.yields hyesAwaits (delimits_cons (by decide)) (Nat.le_of_lt (nesting_part hyes rfl))
    fun wait output hw he => yields_blank ?_
  refine yields_punctuation rfl nofun fun _ => .inl ⟨_, accept_colon hw, yields_blank ?_⟩
  rw [he]
  have hnoAwaits : Awaits ⟨yes.tokens.reverse ++ (condition.tokens.reverse ++ []), [.colon], [],
      .operand⟩ := ⟨nofun, rfl, admits_colon 0 []⟩
  refine no.yields hnoAwaits delimits_nil (Nat.le_of_lt (nesting_part hno rfl))
    fun wait output hw he => yields_waiting hw rfl ?_
  rw [he]
  simp [Waiting.token, Token.operator]

theorem yields (c : Composite) : Yields limits c.nesting {} c.text.toList c.tokens := by
  cases c with
  | group inner => exact yields_group inner
  | array first others => exact yields_array first others
  | call callee first others => exact yields_call callee first others
  | index holder key => exact yields_index holder key
  | object first others => exact yields_object first others
  | negation inner => exact yields_negation inner
  | binary op operands left right => exact yields_binary op operands left right
  | conditional condition yes no => exact yields_conditional condition yes no

end Composite

/-- The tokens of a text that is put together from sources are those of its parts in order, with
the tokens of the composition. Only a limit can keep it from having them, and none does that has
room for the text and for the nesting of its parts in one more bracket. -/
theorem tokenize_composite (limits : Limits) (c : Composite) :
    (tokenize limits c.text = .ok c.tokens ∨
      ∃ fault, tokenize limits c.text = .error (.limit fault)) ∧
    (c.text.length ≤ limits.maxLength → c.nesting ≤ limits.maxDepth →
      tokenize limits c.text = .ok c.tokens) := by
  have hyields : arrange limits c.text = .ok c.tokens ∨
      TooDeep limits c.nesting (arrange limits c.text) := c.yields (Cursor.start c.text) rfl
  refine ⟨?_, fun hlength hnesting => ?_⟩
  · unfold tokenize
    split
    · exact .inr ⟨_, rfl⟩
    · exact hyields.imp_right And.right
  · rw [tokenize, if_neg (by omega)]
    refine hyields.resolve_right fun hdeep => ?_
    have := hdeep.1
    omega

theorem tokenize_composite_call : ∃ first second,
    tokenize { maxDepth := 1 } "a ? b : c" = .ok first ∧
    tokenize { maxDepth := 1 } "[]" = .ok second ∧
    tokenize {} "f(a ? b : c,[])" =
      .ok (⟨.identifier "f", -2⟩ :: (first ++ second) ++ [⟨.call, 2⟩]) := by
  obtain ⟨first, hfirst⟩ :=
    exists_eq_ok (x := tokenize { maxDepth := 1 } "a ? b : c") (by decide +kernel)
  obtain ⟨second, hsecond⟩ :=
    exists_eq_ok (x := tokenize { maxDepth := 1 } "[]") (by decide +kernel)
  let f : Name := ⟨"f", ⟨'f', [], rfl, by decide⟩, List.all_eq_true.1 (by decide)⟩
  let c : Composite := .call ⟨⟨f, []⟩, by decide⟩ ⟨_, _, first, hfirst⟩ [⟨_, _, second, hsecond⟩]
  have htext : c.text = "f(a ? b : c,[])" := rfl
  have hlength : c.text.length ≤ 65536 := by
    rw [htext]
    decide
  have hnesting : c.nesting ≤ 256 := by simp [c, Composite.nesting, Composite.parts]
  have hcall : tokenize {} c.text = .ok c.tokens := (tokenize_composite {} c).2 hlength hnesting
  rw [htext] at hcall
  have htokens : c.tokens = ⟨.identifier "f", -2⟩ :: (first ++ second) ++ [⟨.call, 2⟩] := by
    have hname : PlainPath.text ⟨⟨f, []⟩, by decide⟩ = "f" := rfl
    simp [c, Composite.tokens, hname, calleeArity]
  rw [htokens] at hcall
  exact ⟨first, second, hfirst, hsecond, hcall⟩

end TemplateBinding
