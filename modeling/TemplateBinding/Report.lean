import TemplateBinding.Expression
import TemplateBinding.Json.Printer
import TemplateBinding.Json.Reader
import TemplateBinding.Value.Json

set_option autoImplicit false

namespace TemplateBinding

structure Check where
  source : String
  input : Option String := none
  aliases : Option String := none
  /-- The expression is not evaluated, and the documents are not read. -/
  syntaxOnly : Bool := false
  limits : Limits := {}

structure Report where
  identifiers : List String
  aliases : List String
  output : Option Json

inductive CheckFault where
  | parse (fault : ParseFault)
  | eval (fault : EvalFault)
  | json
  | aliasesNotObject (typeName : String)

def CheckFault.message : CheckFault → String
  | .parse fault => "Parse error: " ++ fault.message
  | .eval fault => "Evaluation error: " ++ fault.message
  | .json => "Invalid JSON"
  | .aliasesNotObject typeName => "Aliases must be a JSON object, got " ++ typeName

def Report.toJson (r : Report) : Json :=
  let names (ns : List String) : Json := .array (ns.map .string)
  let entries := [("identifiers", names r.identifiers), ("aliases", names r.aliases)]
  .object (Entries.ofList (entries ++ (r.output.map (("output", ·))).toList))

def readDocument (text : String) : Except CheckFault Value :=
  match Json.parse? Json.maxLevels text with
  | some j => .ok (.ofJson j)
  | none => .error .json

def readAliases (text : String) : Except CheckFault (Entries Value) := do
  match ← readDocument text with
  | .object entries => return entries
  | v => throw (.aliasesNotObject v.typeName)

/-- A host that lends no functions. Documents hold none, so it is never asked. -/
def Host.none : Host := fun _ _ => .ok .undefined

namespace Check

/-- Parses the expression, reads the documents, and evaluates; the first fault is reported. -/
def run (c : Check) : Except CheckFault Report := do
  let e ← (Expression.parse c.limits c.source).mapError .parse
  if c.syntaxOnly then return ⟨e.identifiers, e.aliases, .none⟩
  let context ← c.input.elim (.ok .undefined) readDocument
  let aliases ← c.aliases.elim (.ok []) readAliases
  let v ← (e.evaluate ⟨Host.none, context, aliases⟩).outcome.mapError .eval
  return ⟨e.identifiers, e.aliases, some v.toJson⟩

end Check

end TemplateBinding
