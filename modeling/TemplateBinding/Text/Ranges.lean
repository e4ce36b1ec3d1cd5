set_option autoImplicit false

namespace TemplateBinding.Text

/-- Ranges of code points; both ends belong to a range. -/
abbrev Ranges := Array (Nat × Nat)

/-- The row between `low` and `high` whose bounds enclose `n`, in a table sorted by bounds. -/
def seek {α : Type} (bounds : α → Nat × Nat) (rows : Array α) (n low high : Nat) : Option α :=
  if low < high then
    match rows[(low + high) / 2]? with
    | none => none
    | some row =>
      if n < (bounds row).1 then seek bounds rows n low ((low + high) / 2)
      else if (bounds row).2 < n then seek bounds rows n ((low + high) / 2 + 1) high
      else some row
  else none
termination_by high - low

def Ranges.contains (ranges : Ranges) (c : Char) : Bool :=
  (seek id ranges c.toNat 0 ranges.size).isSome

end TemplateBinding.Text
