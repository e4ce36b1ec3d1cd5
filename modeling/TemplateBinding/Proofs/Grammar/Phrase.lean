import TemplateBinding.Proofs.Postfix.Construct
import TemplateBinding.Source.Literal

/-!
The grammar of binding expressions. A phrase is a derivation: its words are what is derived, and
its tree is what the derivation means. Operators are on levels, of which a greater one binds more
tightly; a phrase stands where its level is great enough.
-/

set_option autoImplicit false

namespace TemplateBinding

structure Name where
  text : String
  start : ∃ c cs, text.toList = c :: cs ∧ isNameStart c = true
  parts : ∀ c ∈ text.toList, isNamePart c = true

structure DottedPath where
  first : Name
  others : List Name

namespace DottedPath

def names (p : DottedPath) : List String := (p.first :: p.others).map Name.text

def chars (p : DottedPath) : List Char := (".".intercalate p.names).toList

end DottedPath

/-- Digits, a fraction or none, and an exponent or none. A fraction may stand alone. -/
structure NumberWord where
  numeral : Number.Numeral
  whole : ∀ c ∈ numeral.whole, c.isDigit = true
  fraction : ∀ digits, numeral.fraction = some digits →
    digits ≠ [] ∧ ∀ c ∈ digits, c.isDigit = true
  exponent : ∀ x, numeral.exponent = some x → (x.marker = 'e' ∨ x.marker = 'E') ∧
    (x.sign = none ∨ x.sign = some '+' ∨ x.sign = some '-') ∧
      x.digits ≠ [] ∧ ∀ c ∈ x.digits, c.isDigit = true
  nonempty : numeral.whole ≠ [] ∨ numeral.fraction ≠ none

namespace NumberWord

def integer? (n : NumberWord) : Option Int64 :=
  if n.numeral.isIntegral then Number.word? (Number.digitsValue n.numeral.whole) else none

def value (n : NumberWord) : Value :=
  match n.integer? with
  | some w => .integer w
  | none => .float n.numeral.value

end NumberWord

/-- How one character of a quoted text is written. -/
inductive Stroke (quote : Char) where
  | plain (c : Char) (other : c ≠ quote ∧ c ≠ '\\')
  | escape (c : Char) (other : c ≠ 'u')
  | code (digits : List Char) (four : digits.length = 4)
      (hex : ∀ d ∈ digits, Cursor.isHexDigit d = true)
      (valid : (Cursor.hexValue digits).isValidChar)

namespace Stroke

variable {quote : Char}

def chars : Stroke quote → List Char
  | .plain c _ => [c]
  | .escape c _ => ['\\', c]
  | .code digits _ _ _ => '\\' :: 'u' :: digits

def value : Stroke quote → Char
  | .plain c _ => c
  | .escape c _ => Cursor.namedEscape c
  | .code digits _ _ _ => Char.ofNat (Cursor.hexValue digits)

end Stroke

structure Quotation where
  quote : Char
  isQuote : quote = '\"' ∨ quote = '\''
  strokes : List (Stroke quote)

namespace Quotation

def chars (q : Quotation) : List Char := q.quote :: (q.strokes.flatMap Stroke.chars ++ [q.quote])

def text (q : Quotation) : String := String.ofList (q.strokes.map Stroke.value)

end Quotation

inductive KeyWord where
  | name (n : Name)
  | quoted (q : Quotation)
  | number (n : NumberWord) (start : n.numeral.whole ≠ [])

namespace KeyWord

def chars : KeyWord → List Char
  | .name n => n.text.toList
  | .quoted q => q.chars
  | .number n _ => n.numeral.spelling

def text : KeyWord → String
  | .name n => n.text
  | .quoted q => q.text
  | .number n _ => n.value.text

end KeyWord

namespace Operator

def level : Operator → Nat
  | .conditional => 0
  | .or | .coalesce => 1
  | .and => 2
  | .equal | .notEqual | .strictEqual | .strictNotEqual => 3
  | .lessThan | .lessEqual | .greaterThan | .greaterEqual => 4
  | .add | .subtract => 5
  | .multiply | .divide | .remainder => 6
  | .power => 7
  | .not | .negate | .positive => 8

def groupsRight : Operator → Bool
  | .power | .not | .negate | .positive | .conditional => true
  | _ => false

def leftLevel (op : Operator) : Nat := if op.groupsRight then op.level + 1 else op.level

def rightLevel (op : Operator) : Nat := if op.groupsRight then op.level else op.level + 1

end Operator

inductive Phrase where
  | number (n : NumberWord)
  | quoted (q : Quotation)
  | path (p : DottedPath)
  | aliased (p : DottedPath)
  | group (inner : Phrase)
  | array (items : List Phrase)
  | object (entries : List (KeyWord × Phrase))
  | member (holder : Phrase) (p : DottedPath)
  | call (callee : Phrase) (args : List Phrase)
  | index (holder key : Phrase)
  | unary (op : Operator) (operand : Phrase)
  | binary (op : Operator) (left right : Phrase)
  | conditional (condition yes no : Phrase)

namespace Phrase

@[induction_eliminator]
theorem ind {motive : Phrase → Prop}
    (number : ∀ n, motive (.number n))
    (quoted : ∀ q, motive (.quoted q))
    (path : ∀ p, motive (.path p))
    (aliased : ∀ p, motive (.aliased p))
    (group : ∀ inner, motive inner → motive (.group inner))
    (array : ∀ items, (∀ item ∈ items, motive item) → motive (.array items))
    (object : ∀ entries, (∀ e ∈ entries, motive e.2) → motive (.object entries))
    (member : ∀ holder p, motive holder → motive (.member holder p))
    (call : ∀ callee args, motive callee → (∀ arg ∈ args, motive arg) →
      motive (.call callee args))
    (index : ∀ holder key, motive holder → motive key → motive (.index holder key))
    (unary : ∀ op operand, motive operand → motive (.unary op operand))
    (binary : ∀ op left right, motive left → motive right → motive (.binary op left right))
    (conditional : ∀ condition yes no, motive condition → motive yes → motive no →
      motive (.conditional condition yes no))
    (p : Phrase) : motive p :=
  Phrase.rec (motive_1 := motive) (motive_2 := fun ps => ∀ p ∈ ps, motive p)
    (motive_3 := fun es => ∀ e ∈ es, motive e.2) (motive_4 := fun e => motive e.2)
    number quoted path aliased group array object member call index unary binary conditional
    (fun _ h => nomatch h)
    (fun _ _ head tail => List.forall_mem_cons.2 ⟨head, tail⟩)
    (fun _ h => nomatch h)
    (fun _ _ head tail => List.forall_mem_cons.2 ⟨head, tail⟩)
    (fun _ _ h => h) p

/-- The level on which a phrase stands: conditionals on 0, binary operators on 1 to 7, unary ones
on 8, suffixes on 9, and what is complete by itself on 10. -/
def level : Phrase → Nat
  | .conditional _ _ _ => 0
  | .binary op _ _ => op.level
  | .unary _ _ => 8
  | .member _ _ | .call _ _ | .index _ _ => 9
  | _ => 10

mutual

/-- Each part of a phrase stands on a level that the grammar allows there. -/
def Grammatical : Phrase → Prop
  | .number _ | .quoted _ | .path _ | .aliased _ => True
  | .group inner => Grammatical inner
  | .array items => ItemsGrammatical items
  | .object entries => EntriesGrammatical entries
  | .member holder _ => 9 ≤ holder.level ∧ Grammatical holder
  | .call callee args => 9 ≤ callee.level ∧ Grammatical callee ∧ ItemsGrammatical args
  | .index holder key => 9 ≤ holder.level ∧ Grammatical holder ∧ Grammatical key
  | .unary op operand => op.operands = 1 ∧ op.rightLevel ≤ operand.level ∧ Grammatical operand
  | .binary op left right => op.operands = 2 ∧ op.leftLevel ≤ left.level ∧
      op.rightLevel ≤ right.level ∧ Grammatical left ∧ Grammatical right
  | .conditional condition yes no =>
      1 ≤ condition.level ∧ Grammatical condition ∧ Grammatical yes ∧ Grammatical no

def ItemsGrammatical : List Phrase → Prop
  | [] => True
  | p :: ps => Grammatical p ∧ ItemsGrammatical ps

def EntriesGrammatical : List (KeyWord × Phrase) → Prop
  | [] => True
  | (_, p) :: entries => Grammatical p ∧ EntriesGrammatical entries

end

def separated : List (List (List Char)) → List (List Char)
  | [] => []
  | [words] => words
  | words :: next :: elements => words ++ [','] :: separated (next :: elements)

mutual

def words : Phrase → List (List Char)
  | .number n => [n.numeral.spelling]
  | .quoted q => [q.chars]
  | .path p => [p.chars]
  | .aliased p => ['@' :: p.chars]
  | .group inner => ['('] :: (words inner ++ [[')']])
  | .array items => ['['] :: (separated (itemWords items) ++ [[']']])
  | .object entries => ['\x7b'] :: (separated (entryWords entries) ++ [['\x7d']])
  | .member holder p => words holder ++ [['.'], p.chars]
  | .call callee args => words callee ++ ['('] :: (separated (itemWords args) ++ [[')']])
  | .index holder key => words holder ++ ['['] :: (words key ++ [[']']])
  | .unary op operand => op.symbol :: words operand
  | .binary op left right => words left ++ op.symbol :: words right
  | .conditional condition yes no => words condition ++ ['?'] :: (words yes ++ [':'] :: words no)

def itemWords : List Phrase → List (List (List Char))
  | [] => []
  | p :: ps => words p :: itemWords ps

def entryWords : List (KeyWord × Phrase) → List (List (List Char))
  | [] => []
  | (key, p) :: entries => (key.chars :: [':'] :: words p) :: entryWords entries

end

def pathTree (names : List String) : Tree :=
  match names with
  | ["true"] => .literal (.boolean true)
  | ["false"] => .literal (.boolean false)
  | ["null"] => .literal .null
  | ["undefined"] => .literal .undefined
  | names => .path .context names

def memberTree (holder : Tree) (names : List String) : Tree :=
  names.foldl (fun t name => Tree.member true t (.literal (.string name))) holder

mutual

/-- What a phrase means. A member of a path with a literal name extends the path. -/
def tree : Phrase → Tree
  | .number n => .literal n.value
  | .quoted q => .literal (.string q.text)
  | .path p => pathTree p.names
  | .aliased p => .path (.alias p.first.text) (p.others.map Name.text)
  | .group inner => tree inner
  | .array items => .array (itemTrees items)
  | .object entries => .object (entryTrees entries)
  | .member holder p => memberTree (tree holder) p.names
  | .call callee args => .call (tree callee) (itemTrees args)
  | .index holder key => Tree.member true (tree holder) (tree key)
  | .unary op operand => .unary op (tree operand)
  | .binary op left right => .binary op (tree left) (tree right)
  | .conditional condition yes no => .conditional (tree condition) (tree yes) (tree no)

def itemTrees : List Phrase → List Tree
  | [] => []
  | p :: ps => tree p :: itemTrees ps

def entryTrees : List (KeyWord × Phrase) → List (String × Tree)
  | [] => []
  | (key, p) :: entries => (key.text, tree p) :: entryTrees entries

end

mutual

def nesting : Phrase → Nat
  | .number _ | .quoted _ | .path _ | .aliased _ => 0
  | .group inner => nesting inner + 1
  | .array items => itemNesting items + 1
  | .object entries => entryNesting entries + 1
  | .member holder _ => nesting holder
  | .call callee args => max (nesting callee) (itemNesting args + 1)
  | .index holder key => max (nesting holder) (nesting key + 1)
  | .unary _ operand => nesting operand
  | .binary _ left right => max (nesting left) (nesting right)
  | .conditional condition yes no => max (nesting condition) (max (nesting yes) (nesting no))

def itemNesting : List Phrase → Nat
  | [] => 0
  | p :: ps => max (nesting p) (itemNesting ps)

def entryNesting : List (KeyWord × Phrase) → Nat
  | [] => 0
  | (_, p) :: entries => max (nesting p) (entryNesting entries)

end

end Phrase

end TemplateBinding
