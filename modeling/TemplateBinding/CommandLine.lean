import TemplateBinding.Report

set_option autoImplicit false

namespace TemplateBinding.CommandLine

inductive Switch where
  | verbose
  | maxLength
  | maxDepth
  | help
  | version
  | input
  | aliases
  | pretty
  | syntaxOnly
  deriving DecidableEq, Repr

structure Declaration where
  switch : Switch
  long : List Char
  short : Option Char
  takesValue : Bool

def shared : List Declaration :=
  [⟨.verbose, "verbose".toList, some 'v', false⟩,
   ⟨.maxLength, "max-length".toList, none, true⟩,
   ⟨.maxDepth, "max-depth".toList, none, true⟩,
   ⟨.help, "help".toList, some 'h', false⟩]

def general : List Declaration := ⟨.version, "version".toList, some 'V', false⟩ :: shared

def ofCheck : List Declaration :=
  [⟨.input, "input".toList, some 'i', true⟩,
   ⟨.aliases, "aliases".toList, some 'a', true⟩,
   ⟨.pretty, "pretty".toList, some 'p', false⟩,
   ⟨.syntaxOnly, "syntax-only".toList, none, false⟩] ++ shared

inductive Stop where
  | usage
  | help
  | version
  deriving DecidableEq, Repr

/-- A count below `2 ^ 64`, in digits and with a plus sign or none. -/
def count? (cs : List Char) : Option Nat :=
  let ds := match cs with
    | '+' :: r => r
    | r => r
  let n := Number.digitsValue ds
  if ds ≠ [] ∧ ds.all Char.isDigit ∧ n < 2 ^ 64 then some n else none

structure Reading where
  switches : List (Switch × List Char) := []
  words : List String := []

namespace Reading

def value? (r : Reading) (s : Switch) : Option (List Char) := r.switches.lookup s

def has (r : Reading) (s : Switch) : Bool := (r.value? s).isSome

/-- Takes up a switch. None may repeat, limits are counts, and two switches end the reading. -/
def record (r : Reading) (s : Switch) (value : List Char) : Except Stop Reading :=
  match s with
  | .help => .error .help
  | .version => .error .version
  | s =>
    if r.has s then .error .usage
    else if (s = .maxLength ∨ s = .maxDepth) ∧ (count? value).isNone then .error .usage
    else .ok { r with switches := (s, value) :: r.switches }

end Reading

def isDashed : List Char → Bool
  | '-' :: _ :: _ => true
  | _ => false

/-- Takes up the switches of a cluster of letters. The rest of the cluster is the value of a
switch that takes one; if nothing is left, the switch is returned. -/
def readCluster (known : List Declaration) (r : Reading) :
    List Char → Except Stop (Reading × Option Switch)
  | [] => .ok (r, none)
  | c :: cs =>
    match known.find? (·.short = some c) with
    | none => .error .usage
    | some d =>
      if d.takesValue then
        match cs with
        | [] => .ok (r, some d.switch)
        | '=' :: value => (r.record d.switch value).map (·, none)
        | value => (r.record d.switch value).map (·, none)
      else do readCluster known (← r.record d.switch []) cs

def readLong (known : List Declaration) (r : Reading) (cs : List Char) :
    Except Stop (Reading × Option Switch) :=
  match known.find? (·.long = cs.takeWhile (· ≠ '=')), cs.dropWhile (· ≠ '=') with
  | none, _ => .error .usage
  | some d, [] =>
    if d.takesValue then .ok (r, some d.switch) else (r.record d.switch []).map (·, none)
  | some d, _ :: value =>
    if d.takesValue then (r.record d.switch value).map (·, none) else .error .usage

/-- Reads arguments: up to the first word, or else all of them with at most one word. Behind two
dashes everything is a word. -/
def read (known : List Declaration) (toWord : Bool) (r : Reading) :
    List String → Except Stop (Reading × List String)
  | [] => .ok (r, [])
  | arg :: args =>
    match arg.toList with
    | ['-', '-'] =>
      if toWord ∨ 1 < (r.words ++ args).length then .error .usage
      else .ok ({ r with words := r.words ++ args }, [])
    | cs =>
      if isDashed cs then
        let one := match cs with
          | '-' :: '-' :: name => readLong known r name
          | cs => readCluster known r cs.tail
        match one, args with
        | .error stop, _ => .error stop
        | .ok (r, none), args => read known toWord r args
        | .ok (_, some _), [] => .error .usage
        | .ok (r, some s), value :: args =>
          if isDashed value.toList then .error .usage
          else
            match r.record s value.toList with
            | .error stop => .error stop
            | .ok r => read known toWord r args
      else if toWord then .ok (r, arg :: args)
      else if r.words.isEmpty then read known toWord { r with words := [arg] } args
      else .error .usage

inductive Command where
  /-- A check without an input reads one from standard input, unless only the syntax counts. -/
  | check (check : Check) (pretty : Bool)
  | tokens (source : String) (limits : Limits)

def limitsOf (before behind : Reading) : Limits :=
  let default : Limits := {}
  let limit (s : Switch) : Option Nat := (behind.value? s <|> before.value? s).bind count?
  { maxLength := (limit .maxLength).getD default.maxLength
    maxDepth := (limit .maxDepth).getD default.maxDepth }

def isTopic : List String → Bool
  | [] => true
  | [name] => name == "check" || name == "tokens" || name == "help"
  | _ => false

def command (args : List String) : Except Stop Command := do
  match ← read general true {} args with
  | (before, "check" :: args) =>
    let (behind, _) ← read ofCheck false {} args
    let some source := behind.words.head? | throw .usage
    return .check {
      source
      input := (behind.value? .input).map String.ofList
      aliases := (behind.value? .aliases).map String.ofList
      syntaxOnly := behind.has .syntaxOnly
      limits := limitsOf before behind } (behind.has .pretty)
  | (before, "tokens" :: args) =>
    let (behind, _) ← read shared false {} args
    let some source := behind.words.head? | throw .usage
    return .tokens source (limitsOf before behind)
  | (_, "help" :: topic) => throw (if isTopic topic then .help else .usage)
  | _ => throw .usage

def Command.readsInput : Command → Bool
  | .check c _ => c.input.isNone && !c.syntaxOnly
  | .tokens _ _ => false

structure Outcome where
  exit : Nat
  stdout : String
  stderr : String

def Command.run (stdin : String) (command : Command) : Outcome :=
  let result : Except CheckFault String :=
    match command with
    | .check c pretty => do
      let c := if command.readsInput then { c with input := some stdin } else c
      let j := (← c.run).toJson
      return String.ofList (if pretty then j.pretty 0 else j.compact) ++ "\n"
    | .tokens source limits => (listing limits source).mapError .parse
  match result with
  | .ok out => ⟨0, out, ""⟩
  | .error fault => ⟨1, "", fault.message ++ "\n"⟩

def Stop.outcome : Stop → Outcome
  | .usage => ⟨2, "", "error: these arguments are not understood\n"⟩
  | .help => ⟨0, "Commands: check <EXPRESSION>, tokens <EXPRESSION>\n", ""⟩
  | .version => ⟨0, "bindexpr 0.1.0\n", ""⟩

def run (args : List String) (stdin : String) : Outcome :=
  match command args with
  | .ok command => command.run stdin
  | .error stop => stop.outcome

end TemplateBinding.CommandLine
