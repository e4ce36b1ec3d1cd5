import TemplateBinding.Fault
import TemplateBinding.Limits
import TemplateBinding.Token
import TemplateBinding.Tree

set_option autoImplicit false

namespace TemplateBinding

inductive Fragment where
  /-- A path that may still grow. `ordinal` is the position of its first token; a callee does
  not grow. -/
  | path (root : Root) (segments : List String) (ordinal : Nat) (callee : Bool)
  | key (name : String)
  | node (tree : Tree) (depth : Nat)

/-- A path that a tree reads: names with dots between them, at the position of the path's first
token. -/
structure Read where
  ordinal : Nat
  path : String
  deriving DecidableEq, Repr

structure Reads where
  context : List Read := []
  aliases : List Read := []

/-- Records a path. A callee is read through its receiver, unless it has none. -/
def Reads.record (reads : Reads) (root : Root) (segments : List String) (ordinal : Nat)
    (callee : Bool) : Reads :=
  let names := match root with
    | .context => segments
    | .alias name => name :: segments
  let watched := if callee && 1 < names.length then names.dropLast else names
  let read : Read := ⟨ordinal, ".".intercalate watched⟩
  match root with
  | .context => { reads with context := read :: reads.context }
  | .alias _ => { reads with aliases := read :: reads.aliases }

/-- The recorded paths in the order of their first tokens, each once. -/
def inOrder (reads : List Read) : List String :=
  ((reads.mergeSort (fun a b => a.ordinal ≤ b.ordinal)).map Read.path).eraseDups

namespace Fragment

def literalName? : Fragment → Option String
  | .node (.literal (.string s)) _ => some s
  | .node (.literal (.integer n)) _ =>
    if 0 ≤ n.toInt then some (String.ofList (Number.whole n.toInt)) else none
  | _ => none

/-- Completes a fragment: its tree, the depth of that, and the reads with those of the path. -/
def settle (reads : Reads) : Fragment → Except StreamFault (Tree × Nat × Reads)
  | .node tree depth => .ok (tree, depth, reads)
  | .key name => .error (.misplacedKey name)
  | .path root segments ordinal callee =>
    .ok (.path root segments, 1, reads.record root segments ordinal callee)

def settleAll (reads : Reads) : List Fragment → Except StreamFault (List Tree × Nat × Reads)
  | [] => .ok ([], 0, reads)
  | f :: fs => do
    let (tree, depth, reads) ← f.settle reads
    let (trees, depths, reads) ← settleAll reads fs
    return (tree :: trees, max depth depths, reads)

def settleEntries (reads : Reads) (entry : Nat) :
    List Fragment → Except StreamFault (List (String × Tree) × Nat × Reads)
  | [] => .ok ([], 0, reads)
  | .key name :: value :: fs => do
    let (tree, depth, reads) ← value.settle reads
    let (entries, depths, reads) ← settleEntries reads (entry + 1) fs
    return ((name, tree) :: entries, max depth depths, reads)
  | _ :: _ => .error (.missingKey entry)

def asCallee : Fragment → Fragment
  | .path root segments ordinal _ => .path root segments ordinal true
  | f => f

end Fragment

/-- The root and the names of an identifier: names with dots between them, in the aliases
behind an `@`. No name is empty. -/
def splitIdentifier (text : String) : Except StreamFault (Root × List String) :=
  let (isAlias, body) := match text.toList with
    | '@' :: cs => (true, cs)
    | cs => (false, cs)
  let names := Text.split ['.'] body
  if names.any List.isEmpty then .error (.invalidIdentifier text)
  else match isAlias, names.map String.ofList with
    | true, name :: names => .ok (.alias name, names)
    | true, [] => .error (.invalidIdentifier text)
    | false, names => .ok (.context, names)

structure Builder where
  stack : List Fragment := []
  reads : Reads := {}

namespace Builder

def invalidArity (token : Token) : ParseFault :=
  .stream (.invalidArity token.lexical.text token.arity)

def expectArity (token : Token) (arity : Int) : Except ParseFault Unit :=
  if token.arity = arity then .ok () else .error (invalidArity token)

def count (token : Token) : Except ParseFault Nat :=
  if 0 ≤ token.arity then .ok token.arity.toNat else .error (invalidArity token)

def pop (b : Builder) (token : Token) (n : Nat) : Except ParseFault (List Fragment × Builder) :=
  if b.stack.length < n then
    .error (.stream (.missingOperands token.lexical.text n b.stack.length))
  else .ok ((b.stack.take n).reverse, { b with stack := b.stack.drop n })

def push (b : Builder) (f : Fragment) : Builder := { b with stack := f :: b.stack }

def pushLeaf (b : Builder) (token : Token) (v : Value) : Except ParseFault Builder := do
  expectArity token 0
  return b.push (.node (.literal v) 1)

def pushNode (b : Builder) (maxDepth : Nat) (tree : Tree) (depth : Nat) (reads : Reads) :
    Except ParseFault Builder :=
  if maxDepth < depth + 1 then .error (.limit (.expressionTooDeep maxDepth))
  else .ok { stack := .node tree (depth + 1) :: b.stack, reads }

/-- A member of an object: a path grows by a literal name, and anything else is indexed. -/
def member (b : Builder) (maxDepth : Nat) (object key : Fragment) : Except ParseFault Builder :=
  match object, key.literalName? with
  | .path root segments ordinal false, some name =>
    .ok (b.push (.path root (segments ++ [name]) ordinal false))
  | object, _ => do
    let (object, objectDepth, reads) ← (object.settle b.reads).mapError .stream
    let (key, keyDepth, reads) ← (key.settle reads).mapError .stream
    b.pushNode maxDepth (.index object key) (max objectDepth keyDepth) reads

def step (maxDepth : Nat) (b : Builder) (ordinal : Nat) (token : Token) :
    Except ParseFault Builder :=
  match token.lexical with
  | .integer n => b.pushLeaf token (.integer n)
  | .float x => b.pushLeaf token (.float x)
  | .string s => b.pushLeaf token (.string s)
  | .boolean v => b.pushLeaf token (.boolean v)
  | .null => b.pushLeaf token .null
  | .undefined => b.pushLeaf token .undefined
  | .identifier text => do
    if token.arity ≠ referenceArity ∧ token.arity ≠ calleeArity then throw (invalidArity token)
    let (root, segments) ← (splitIdentifier text).mapError .stream
    return b.push (.path root segments ordinal (token.arity = calleeArity))
  | .key name => do
    expectArity token 0
    return b.push (.key name)
  | .property name => do
    expectArity token 0
    match ← b.pop token 1 with
    | ([object], b) => b.member maxDepth object (.node (.literal (.string name)) 1)
    | _ => throw (invalidArity token)
  | .index => do
    expectArity token 0
    match ← b.pop token 2 with
    | ([object, key], b) => b.member maxDepth object key
    | _ => throw (invalidArity token)
  | .call => do
    let n ← count token
    match ← b.pop token (n + 1) with
    | (callee :: args, b) =>
      let (callee, calleeDepth, reads) ← (callee.asCallee.settle b.reads).mapError .stream
      let (args, depth, reads) ← (Fragment.settleAll reads args).mapError .stream
      b.pushNode maxDepth (.call callee args) (max depth calleeDepth) reads
    | _ => throw (invalidArity token)
  | .array => do
    let n ← if token.arity = referenceArity then .ok 0
      else if 0 < token.arity then .ok token.arity.toNat
      else .error (invalidArity token)
    let (items, b) ← b.pop token n
    let (items, depth, reads) ← (Fragment.settleAll b.reads items).mapError .stream
    b.pushNode maxDepth (.array items) depth reads
  | .object => do
    let n ← count token
    let (parts, b) ← b.pop token (2 * n)
    let (entries, depth, reads) ← (Fragment.settleEntries b.reads 0 parts).mapError .stream
    b.pushNode maxDepth (.object entries) depth reads
  | .operator op => do
    expectArity token op.operands
    let (operands, b) ← b.pop token op.operands
    let (operands, depth, reads) ← (Fragment.settleAll b.reads operands).mapError .stream
    match operands with
    | [a] => b.pushNode maxDepth (.unary op a) depth reads
    | [a, c] => b.pushNode maxDepth (.binary op a c) depth reads
    | [a, c, d] => b.pushNode maxDepth (.conditional a c d) depth reads
    | _ => throw (invalidArity token)

def run (maxDepth : Nat) (b : Builder) (ordinal : Nat) : List Token → Except ParseFault Builder
  | [] => .ok b
  | token :: tokens => do
    let b ← b.step maxDepth ordinal token
    run maxDepth b (ordinal + 1) tokens

def finish (b : Builder) : Except StreamFault (Tree × Reads) :=
  match b.stack with
  | [] => .error .emptyStream
  | [f] => do
    let (tree, _, reads) ← f.settle b.reads
    return (tree, reads)
  | _ :: fs => .error (.leftoverOperands fs.length)

end Builder

def build (limits : Limits) (tokens : List Token) : Except ParseFault (Tree × Reads) := do
  let b ← Builder.run limits.maxDepth {} 0 tokens
  b.finish.mapError .stream

end TemplateBinding
