import TemplateBinding.Source.Arrangement
import TemplateBinding.Tree.Evaluation
import TemplateBinding.Tree.Fragment

set_option autoImplicit false

namespace TemplateBinding

structure Expression where
  source : String
  root : Tree
  /-- The paths read from the context, in the order of the source, each once. -/
  identifiers : List String
  /-- The paths read from the aliases, which start with the alias. -/
  aliases : List String
  /-- The holder of this copy wants its value only once. -/
  oneTime : Bool := false

namespace Expression

def compile (limits : Limits) (source : String) (tokens : List Token) :
    Except ParseFault Expression := do
  let (root, reads) ← build limits tokens
  return {
    source, root
    identifiers := inOrder reads.context
    aliases := inOrder reads.aliases }

def parse (limits : Limits) (source : String) : Except ParseFault Expression := do
  compile limits source (← tokenize limits source)

def evaluate (e : Expression) (env : Environment) : Run Value := e.root.eval env

def asOneTime (e : Expression) : Expression := { e with oneTime := true }

end Expression

def listing (limits : Limits) (source : String) : Except ParseFault String := do
  let tokens ← tokenize limits source
  return String.join (tokens.map fun token => token.text ++ "\n")

end TemplateBinding
