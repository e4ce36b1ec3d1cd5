import TemplateBinding.Proofs.Postfix.Construct

set_option autoImplicit false

namespace TemplateBinding.Construct

def token : Construct → Token
  | .literal lexical _ _ => ⟨lexical, 0⟩
  | .identifier text _ _ _ called => ⟨.identifier text, identifierArity called⟩
  | .property _ name => ⟨.property name, 0⟩
  | .index _ _ => ⟨.index, 0⟩
  | .call _ args => ⟨.call, args.length⟩
  | .array items => ⟨.array, if items.length = 0 then referenceArity else items.length⟩
  | .object entries => ⟨.object, entries.length⟩
  | .unary op _ _ | .binary op _ _ _ => .operator op
  | .conditional _ _ _ => .operator .conditional

abbrev Part := Option String × Construct

def parts : Construct → List Part
  | .literal _ _ _ | .identifier _ _ _ _ _ => []
  | .property holder _ => [(none, holder)]
  | .index holder key => [(none, holder), (none, key)]
  | .call callee args => (callee :: args).map (none, ·)
  | .array items => items.map (none, ·)
  | .object entries => entries.map fun e => (some e.1, e.2)
  | .unary _ _ operand => [(none, operand)]
  | .binary _ _ left right => [(none, left), (none, right)]
  | .conditional condition yes no => [(none, condition), (none, yes), (none, no)]

/-- The construct with the given token and parts, if there is one. -/
def assemble (t : Token) (parts : List Part) : Option Construct :=
  match t.lexical, parts with
  | .identifier text, [] =>
    match h : splitIdentifier text with
    | .ok (root, segments) => some (.identifier text root segments h (t.arity = calleeArity))
    | .error _ => none
  | .property name, [(_, holder)] => some (.property holder name)
  | .index, [(_, holder), (_, key)] => some (.index holder key)
  | .call, (_, callee) :: args => some (.call callee (args.map (·.2)))
  | .array, items => some (.array (items.map (·.2)))
  | .object, entries => some (.object (entries.map fun e => (e.1.getD "", e.2)))
  | .operator op, [(_, operand)] =>
    if h : op.operands = 1 then some (.unary op h operand) else none
  | .operator op, [(_, left), (_, right)] =>
    if h : op.operands = 2 then some (.binary op h left right) else none
  | .operator _, [(_, condition), (_, yes), (_, no)] => some (.conditional condition yes no)
  | l, [] =>
    match h : l.value? with
    | some v => some (.literal l v h)
    | none => none
  | _, _ => none

theorem assemble_token_parts (c : Construct) : assemble c.token c.parts = some c := by
  cases c with
  | literal l v hl => cases l <;> cases hl <;> rfl
  | identifier text root segments hi called =>
    simp only [assemble, token, parts]
    split
    · next h =>
      cases hi.symm.trans h
      cases called <;> rfl
    · next h => nomatch hi.symm.trans h
  | property | index | conditional => rfl
  | call callee args => simp [assemble, token, parts, Function.comp_def]
  | array items => simp [assemble, token, parts, Function.comp_def]
  | object entries => simp [assemble, token, parts, Function.comp_def]
  | unary op hop operand => exact dif_pos hop
  | binary op hop left right => exact dif_pos hop

def shape (t : Token) : List Bool :=
  match t.lexical with
  | .property _ => [false]
  | .index => [false, false]
  | .call => List.replicate (t.arity.toNat + 1) false
  | .array => List.replicate t.arity.toNat false
  | .object => List.replicate t.arity.toNat true
  | .operator op => List.replicate op.operands false
  | _ => []

theorem map_parts (c : Construct) : c.parts.map (·.1.isSome) = shape c.token := by
  cases c with
  | literal l v hl => cases l <;> cases hl <;> rfl
  | identifier | property | index | conditional => rfl
  | call callee args =>
    simp [parts, shape, token, List.replicate_succ, Function.comp_def, List.map_const']
  | array items =>
    simp only [shape, token, toNat_arrayArity]
    simp [parts, Function.comp_def, List.map_const']
  | object entries => simp [parts, shape, token, Function.comp_def, List.map_const']
  | unary op hop operand => simp [parts, shape, token, Token.operator, Token.of, hop]
  | binary op hop left right => simp [parts, shape, token, Token.operator, Token.of, hop]

def partListing : List Part → List Token
  | [] => []
  | (key, c) :: parts =>
    (key.map fun name => ⟨.key name, 0⟩).toList ++ c.listing ++ partListing parts

theorem partListing_items (cs : List Construct) :
    partListing (cs.map (none, ·)) = itemListing cs := by
  induction cs with
  | nil => rfl
  | cons c cs ih => simp [partListing, itemListing, ih]

theorem partListing_entries (entries : List (String × Construct)) :
    partListing (entries.map fun e => (some e.1, e.2)) = entryListing entries := by
  induction entries with
  | nil => rfl
  | cons e entries ih => simp [partListing, entryListing, ih]

theorem listing_eq (c : Construct) : c.listing = partListing c.parts ++ [c.token] := by
  cases c with
  | call callee args => simp only [listing, parts, partListing_items, itemListing, token]
  | array items => simp only [listing, parts, partListing_items, token]
  | object entries => simp only [listing, parts, partListing_entries, token]
  | _ => simp [listing, parts, partListing, token]

/-- At the end of a text, the listing of `c` is the listing of no other construct. -/
def Readable (c : Construct) : Prop :=
  ∀ (d : Construct) (xs ys : List Token), xs ++ c.listing = ys ++ d.listing → xs = ys ∧ c = d

theorem append_partListing_inj {ps qs : List Part} {xs ys : List Token}
    (h : ∀ p ∈ ps, p.2.Readable) (he : xs ++ partListing ps = ys ++ partListing qs)
    (hk : ps.map (·.1.isSome) = qs.map (·.1.isSome)) : xs = ys ∧ ps = qs := by
  induction ps generalizing qs xs ys with
  | nil =>
    cases qs with
    | nil => exact ⟨List.append_cancel_right he, rfl⟩
    | cons => cases hk
  | cons p ps ih =>
    cases qs with
    | nil => cases hk
    | cons q qs =>
      obtain ⟨key, c⟩ := p
      obtain ⟨key', d⟩ := q
      obtain ⟨hc, hps⟩ := List.forall_mem_cons.1 h
      obtain ⟨hkey, hks⟩ := List.cons.inj hk
      simp only [partListing, ← List.append_assoc] at he
      obtain ⟨hlast, rfl⟩ := ih hps he hks
      obtain ⟨hfirst, rfl⟩ := hc d _ _ hlast
      cases key with
      | none =>
        cases key' with
        | none => exact ⟨by simpa using hfirst, rfl⟩
        | some => cases hkey
      | some name =>
        cases key' with
        | none => cases hkey
        | some name' =>
          obtain ⟨rfl, hname⟩ := List.append_inj' hfirst rfl
          cases hname
          exact ⟨rfl, rfl⟩

theorem readable_of_parts {c : Construct} (h : ∀ p ∈ c.parts, p.2.Readable) : c.Readable := by
  intro d xs ys he
  rw [listing_eq, listing_eq, ← List.append_assoc, ← List.append_assoc] at he
  obtain ⟨hparts, ht⟩ := List.append_inj' he rfl
  have ht : c.token = d.token := (List.cons.inj ht).1
  obtain ⟨hxy, hp⟩ := append_partListing_inj h hparts (by rw [map_parts, map_parts, ht])
  refine ⟨hxy, Option.some.inj ?_⟩
  rw [← assemble_token_parts c, ← assemble_token_parts d, ht, hp]

theorem readable (c : Construct) : c.Readable := by
  refine readable_of_parts ?_
  induction c with
  | literal | identifier => exact nofun
  | property holder name ih => simpa [parts] using readable_of_parts ih
  | index holder key ihh ihk =>
    simpa [parts] using ⟨readable_of_parts ihh, readable_of_parts ihk⟩
  | call callee args ihc iha =>
    simpa [parts] using ⟨readable_of_parts ihc, fun arg ha => readable_of_parts (iha arg ha)⟩
  | array items ih => simpa [parts] using fun item hi => readable_of_parts (ih item hi)
  | object entries ih =>
    intro p hp
    obtain ⟨e, he, rfl⟩ := List.mem_map.1 hp
    exact readable_of_parts (ih e he)
  | unary op hop operand ih => simpa [parts] using readable_of_parts ih
  | binary op hop left right ihl ihr =>
    simpa [parts] using ⟨readable_of_parts ihl, readable_of_parts ihr⟩
  | conditional condition yes no ihc ihy ihn =>
    simpa [parts] using ⟨readable_of_parts ihc, readable_of_parts ihy, readable_of_parts ihn⟩

theorem eq_of_listing_eq {c d : Construct} (h : c.listing = d.listing) : c = d :=
  (c.readable d [] [] h).2

end TemplateBinding.Construct
