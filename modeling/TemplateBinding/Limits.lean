set_option autoImplicit false

namespace TemplateBinding

/-- `maxLength` counts the characters of a source; `maxDepth` bounds the nesting of its brackets
and the depth of its tree. -/
structure Limits where
  maxLength : Nat := 65536
  maxDepth : Nat := 256
  deriving DecidableEq, Repr

end TemplateBinding
