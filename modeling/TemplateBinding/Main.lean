import TemplateBinding.CommandLine

set_option autoImplicit false

open TemplateBinding in
def main (args : List String) : IO UInt32 := do
  let outcome ← match CommandLine.command args with
    | .error stop => pure stop.outcome
    | .ok command => do
      let input ← if command.readsInput then (← IO.getStdin).readToEnd else pure ""
      pure (command.run input)
  IO.print outcome.stdout
  IO.eprint outcome.stderr
  return outcome.exit.toUInt32
