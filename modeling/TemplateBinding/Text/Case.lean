import TemplateBinding.Text.CaseTable

set_option autoImplicit false

namespace TemplateBinding.Text

def mapCase (runs : Array CaseRun) (long : Array (Nat × List Nat)) (c : Char) : List Char :=
  match seek (fun row => (row.1, row.1)) long c.toNat 0 long.size with
  | some row => row.2.map Char.ofNat
  | none =>
    match seek (fun run => (run.first, run.last)) runs c.toNat 0 runs.size with
    | some run =>
      if (c.toNat - run.first) % run.step = 0 then [Char.ofNat (c.toNat + run.shift).toNat] else [c]
    | none => [c]

def upperChar (c : Char) : List Char :=
  if c.toNat < 0x80 then [c.toUpper] else mapCase upperRuns upperLong c

def lowerChar (c : Char) : List Char :=
  if c.toNat < 0x80 then [c.toLower] else mapCase lowerRuns lowerLong c

def isCased (c : Char) : Bool :=
  if c.toNat < 0x80 then c.isAlpha else casedRanges.contains c

def isCaseIgnorable (c : Char) : Bool :=
  if c.toNat < 0x80 then c == '\'' || c == '.' || c == ':' || c == '^' || c.toNat == 0x60
  else caseIgnorableRanges.contains c

def meetsCased : List Char → Bool
  | [] => false
  | c :: cs => if isCaseIgnorable c then meetsCased cs else isCased c

def upper (cs : List Char) : List Char := cs.flatMap upperChar

/-- Lowers a text that follows `before`, which is given last character first. A capital sigma
is final when a cased character precedes it and none follows. -/
def lowerAfter (before : List Char) : List Char → List Char
  | [] => []
  | c :: cs =>
    (if c = 'Σ' then (if meetsCased before && !meetsCased cs then ['ς'] else ['σ'])
     else lowerChar c) ++ lowerAfter (c :: before) cs

def lower (cs : List Char) : List Char := lowerAfter [] cs

end TemplateBinding.Text
