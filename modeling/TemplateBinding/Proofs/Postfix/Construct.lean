import TemplateBinding.Proofs.Outcome
import TemplateBinding.Tree.Fragment

set_option autoImplicit false

namespace TemplateBinding

def Lexical.value? : Lexical → Option Value
  | .integer n => some (.integer n)
  | .float x => some (.float x)
  | .string s => some (.string s)
  | .boolean b => some (.boolean b)
  | .null => some .null
  | .undefined => some .undefined
  | _ => none

inductive Construct where
  | literal (lexical : Lexical) (value : Value) (isLiteral : lexical.value? = some value)
  | identifier (text : String) (root : Root) (segments : List String)
      (isPath : splitIdentifier text = .ok (root, segments)) (called : Bool)
  | property (holder : Construct) (name : String)
  | index (holder key : Construct)
  | call (callee : Construct) (args : List Construct)
  | array (items : List Construct)
  | object (entries : List (String × Construct))
  | unary (op : Operator) (takesOne : op.operands = 1) (operand : Construct)
  | binary (op : Operator) (takesTwo : op.operands = 2) (left right : Construct)
  | conditional (condition yes no : Construct)

namespace Construct

@[induction_eliminator]
theorem ind {motive : Construct → Prop}
    (literal : ∀ l v h, motive (.literal l v h))
    (identifier : ∀ text root segments h called,
      motive (.identifier text root segments h called))
    (property : ∀ holder name, motive holder → motive (.property holder name))
    (index : ∀ holder key, motive holder → motive key → motive (.index holder key))
    (call : ∀ callee args, motive callee → (∀ arg ∈ args, motive arg) →
      motive (.call callee args))
    (array : ∀ items, (∀ item ∈ items, motive item) → motive (.array items))
    (object : ∀ entries, (∀ e ∈ entries, motive e.2) → motive (.object entries))
    (unary : ∀ op h operand, motive operand → motive (.unary op h operand))
    (binary : ∀ op h left right, motive left → motive right → motive (.binary op h left right))
    (conditional : ∀ condition yes no, motive condition → motive yes → motive no →
      motive (.conditional condition yes no))
    (c : Construct) : motive c :=
  Construct.rec (motive_1 := motive) (motive_2 := fun cs => ∀ c ∈ cs, motive c)
    (motive_3 := fun es => ∀ e ∈ es, motive e.2) (motive_4 := fun e => motive e.2)
    literal identifier property index call array object unary binary conditional
    (fun _ h => nomatch h)
    (fun _ _ head tail => List.forall_mem_cons.2 ⟨head, tail⟩)
    (fun _ h => nomatch h)
    (fun _ _ head tail => List.forall_mem_cons.2 ⟨head, tail⟩)
    (fun _ _ h => h) c

def identifierArity (called : Bool) : Int := if called then calleeArity else referenceArity

theorem toNat_arrayArity (n : Nat) : (if n = 0 then referenceArity else (n : Int)).toNat = n := by
  split
  · next h => rw [h]; rfl
  · rfl

mutual

def listing : Construct → List Token
  | .literal lexical _ _ => [⟨lexical, 0⟩]
  | .identifier text _ _ _ called => [⟨.identifier text, identifierArity called⟩]
  | .property holder name => listing holder ++ [⟨.property name, 0⟩]
  | .index holder key => listing holder ++ listing key ++ [⟨.index, 0⟩]
  | .call callee args => listing callee ++ itemListing args ++ [⟨.call, args.length⟩]
  | .array items => itemListing items ++
      [⟨.array, if items.length = 0 then referenceArity else items.length⟩]
  | .object entries => entryListing entries ++ [⟨.object, entries.length⟩]
  | .unary op _ operand => listing operand ++ [.operator op]
  | .binary op _ left right => listing left ++ listing right ++ [.operator op]
  | .conditional condition yes no =>
      listing condition ++ listing yes ++ listing no ++ [.operator .conditional]

def itemListing : List Construct → List Token
  | [] => []
  | c :: cs => listing c ++ itemListing cs

def entryListing : List (String × Construct) → List Token
  | [] => []
  | (name, c) :: entries => ⟨.key name, 0⟩ :: (listing c ++ entryListing entries)

end

theorem infix_itemListing {c : Construct} {cs : List Construct} (h : c ∈ cs) :
    c.listing <:+: itemListing cs := by
  induction h with
  | head cs => exact ⟨[], itemListing cs, rfl⟩
  | @tail d cs _ ih => exact ih.trans ⟨d.listing, [], by simp [itemListing]⟩

theorem infix_entryListing {e : String × Construct} {entries : List (String × Construct)}
    (h : e ∈ entries) : e.2.listing <:+: entryListing entries := by
  induction h with
  | head entries => exact ⟨[⟨.key e.1, 0⟩], entryListing entries, by simp [entryListing]⟩
  | @tail d entries _ ih =>
    exact ih.trans ⟨⟨.key d.1, 0⟩ :: d.2.listing, [], by simp [entryListing]⟩

def size (c : Construct) : Nat := c.listing.length

def isCalled : Construct → Bool
  | .identifier _ _ _ _ called => called
  | _ => false

end Construct

namespace Tree

def literalName? : Tree → Option String
  | .literal (.string s) => some s
  | .literal (.integer n) =>
    if 0 ≤ n.toInt then some (String.ofList (Number.whole n.toInt)) else none
  | _ => none

theorem eq_literal_of_literalName? {t : Tree} {name : String} (h : t.literalName? = some name) :
    ∃ v, t = .literal v := by
  cases t with
  | literal v => exact ⟨v, rfl⟩
  | _ => cases h

def isPath : Tree → Bool
  | .path _ _ => true
  | _ => false

/-- A member of an object. A path that may grow grows by a literal name, and anything else is
indexed. -/
def member (grows : Bool) (holder key : Tree) : Tree :=
  match grows, holder, key.literalName? with
  | true, .path root segments, some name => .path root (segments ++ [name])
  | _, holder, _ => .index holder key

theorem member_cases (grows : Bool) (holder key : Tree) :
    (∃ root segments name, grows = true ∧ holder = .path root segments ∧
      key.literalName? = some name ∧
        member grows holder key = .path root (segments ++ [name])) ∨
      member grows holder key = .index holder key := by
  unfold member
  split
  · next root segments name hk => exact .inl ⟨root, segments, name, rfl, rfl, hk, rfl⟩
  · exact .inr rfl

mutual

/-- A literal and a path have height one, and any other tree one more than its highest part. -/
def height : Tree → Nat
  | .literal _ | .path _ _ => 1
  | .index holder key => max (height holder) (height key) + 1
  | .unary _ operand => height operand + 1
  | .binary _ left right => max (height left) (height right) + 1
  | .conditional condition yes no => max (height condition) (max (height yes) (height no)) + 1
  | .call callee args => max (height callee) (itemHeight args) + 1
  | .array items => itemHeight items + 1
  | .object entries => entryHeight entries + 1

def itemHeight : List Tree → Nat
  | [] => 0
  | t :: ts => max (height t) (itemHeight ts)

def entryHeight : List (String × Tree) → Nat
  | [] => 0
  | (_, t) :: entries => max (height t) (entryHeight entries)

end

/-- Whether a tree stays within a limit of depth. Literals and paths always do. -/
def fits (maxDepth : Nat) : Tree → Bool
  | .literal _ | .path _ _ => true
  | t => t.height ≤ maxDepth

theorem fits_of_height_le {maxDepth : Nat} {t : Tree} (h : t.height ≤ maxDepth) :
    t.fits maxDepth = true := by
  cases t <;> simp_all [fits]

theorem fits_of_fits_member {maxDepth : Nat} {grows : Bool} {holder key : Tree}
    (h : (member grows holder key).fits maxDepth = true) :
    holder.fits maxDepth = true ∧ key.fits maxDepth = true := by
  obtain ⟨root, segments, name, -, rfl, hk, -⟩ | hm := member_cases grows holder key
  · refine ⟨rfl, ?_⟩
    cases key with
    | literal v => rfl
    | _ => cases hk
  · rw [hm] at h
    have hd : max holder.height key.height + 1 ≤ maxDepth := of_decide_eq_true h
    exact ⟨fits_of_height_le (by omega), fits_of_height_le (by omega)⟩

end Tree

namespace Construct

mutual

def tree : Construct → Tree
  | .literal _ value _ => .literal value
  | .identifier _ root segments _ _ => .path root segments
  | .property holder name => .member (!holder.isCalled) (tree holder) (.literal (.string name))
  | .index holder key => .member (!holder.isCalled) (tree holder) (tree key)
  | .call callee args => .call (tree callee) (itemTrees args)
  | .array items => .array (itemTrees items)
  | .object entries => .object (entryTrees entries)
  | .unary op _ operand => .unary op (tree operand)
  | .binary op _ left right => .binary op (tree left) (tree right)
  | .conditional condition yes no => .conditional (tree condition) (tree yes) (tree no)

def itemTrees : List Construct → List Tree
  | [] => []
  | c :: cs => tree c :: itemTrees cs

def entryTrees : List (String × Construct) → List (String × Tree)
  | [] => []
  | (name, c) :: entries => (name, tree c) :: entryTrees entries

end

mutual

/-- The constructs that a source can hold. An identifier is marked as called where it is called
at once, and nowhere else; `called` tells whether it is the construct itself that is called. The
name of a property holds no dot. -/
def Regular (called : Bool) : Construct → Prop
  | .literal _ _ _ => True
  | .identifier _ _ _ _ marked => marked = called
  | .property holder name => Regular false holder ∧ '.' ∉ name.toList
  | .index holder key => Regular false holder ∧ Regular false key
  | .call callee args => Regular true callee ∧ ItemsRegular args
  | .array items => ItemsRegular items
  | .object entries => EntriesRegular entries
  | .unary _ _ operand => Regular false operand
  | .binary _ _ left right => Regular false left ∧ Regular false right
  | .conditional condition yes no =>
      Regular false condition ∧ Regular false yes ∧ Regular false no

def ItemsRegular : List Construct → Prop
  | [] => True
  | c :: cs => Regular false c ∧ ItemsRegular cs

def EntriesRegular : List (String × Construct) → Prop
  | [] => True
  | (_, c) :: entries => Regular false c ∧ EntriesRegular entries

end

theorem isCalled_of_regular {c : Construct} (h : c.Regular false) : c.isCalled = false := by
  cases c with
  | identifier text root segments hp called => exact h
  | _ => rfl

end Construct

end TemplateBinding
