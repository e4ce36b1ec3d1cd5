import TemplateBinding.Operator
import TemplateBinding.Value.Equality

set_option autoImplicit false

namespace TemplateBinding

inductive Root where
  | context
  | alias (name : String)
  deriving DecidableEq, Repr

inductive Tree where
  | literal (v : Value)
  /-- A walk along members, safe against missing ones. -/
  | path (root : Root) (segments : List String)
  | index (object key : Tree)
  | unary (op : Operator) (operand : Tree)
  | binary (op : Operator) (left right : Tree)
  | conditional (condition yes no : Tree)
  | call (callee : Tree) (args : List Tree)
  | array (items : List Tree)
  /-- Keys may repeat, and stand in the order of the source. -/
  | object (entries : List (String × Tree))
  deriving Inhabited

namespace Tree

mutual

def same : Tree → Tree → Bool
  | .literal v, .literal w => v.same w
  | .path r ss, .path q ts => r == q && ss == ts
  | .index a b, .index c d => same a c && same b d
  | .unary op a, .unary op' b => op == op' && same a b
  | .binary op a b, .binary op' c d => op == op' && same a c && same b d
  | .conditional a b c, .conditional d e f => same a d && same b e && same c f
  | .call a as, .call b bs => same a b && sameItems as bs
  | .array as, .array bs => sameItems as bs
  | .object es, .object fs => sameEntries es fs
  | _, _ => false

def sameItems : List Tree → List Tree → Bool
  | [], [] => true
  | a :: as, b :: bs => same a b && sameItems as bs
  | _, _ => false

def sameEntries : List (String × Tree) → List (String × Tree) → Bool
  | [], [] => true
  | (k, a) :: es, (l, b) :: fs => k == l && same a b && sameEntries es fs
  | _, _ => false

end

end Tree

end TemplateBinding
