import TemplateBinding.Expression

set_option autoImplicit false

namespace TemplateBinding

/-- An instance of an expression, as its holders share it. -/
structure Instance where
  serial : Nat
  /-- The serial of the instance that the tree was compiled with. -/
  tree : Nat
  expression : Expression

def Instance.isSame (x y : Instance) : Bool := x.serial == y.serial

def Instance.sharesTree (x y : Instance) : Bool := x.tree == y.tree

structure Cache where
  limits : Limits := {}
  entries : Entries Instance := []
  /-- The number of instances made so far; it is the serial of the next. -/
  issued : Nat := 0

namespace Cache

def issue (c : Cache) (e : Expression) : Instance × Cache :=
  (⟨c.issued, c.issued, e⟩, { c with issued := c.issued + 1 })

def derive (c : Cache) (x : Instance) (e : Expression) : Instance × Cache :=
  (⟨c.issued, x.tree, e⟩, { c with issued := c.issued + 1 })

def oneTime (c : Cache) (x : Instance) : Instance × Cache := c.derive x x.expression.asOneTime

def get? (c : Cache) (source : String) : Option Instance := Entries.get? c.entries source

def contains (c : Cache) (source : String) : Bool := (c.get? source).isSome

def size (c : Cache) : Nat := c.entries.length

/-- Stores a copy under its source, unless there is an entry; what is stored then is returned. -/
def put (c : Cache) (x : Instance) : Instance × Cache :=
  match c.get? x.expression.source with
  | some entry => (entry, c)
  | none =>
    let (y, c) := c.derive x x.expression
    (y, { c with entries := Entries.insert c.entries x.expression.source y })

/-- The instance of a source, parsed and stored if there is none. A source that cannot be parsed
leaves no trace. -/
def parse (c : Cache) (source : String) : Except ParseFault Instance × Cache :=
  match c.get? source with
  | some entry => (.ok entry, c)
  | none =>
    match Expression.parse c.limits source with
    | .error fault => (.error fault, c)
    | .ok e =>
      let (x, c) := c.issue e
      let (y, c) := c.put x
      (.ok y, c)

def clear (c : Cache) (source : Option String) : Cache :=
  match source with
  | some source => { c with entries := Entries.erase c.entries source }
  | none => { c with entries := [] }

@[simp] theorem get?_put_self (c : Cache) (x : Instance) :
    (c.put x).2.get? x.expression.source = some (c.put x).1 := by
  unfold put
  split
  · assumption
  · simp [get?, derive]

end Cache

end TemplateBinding
