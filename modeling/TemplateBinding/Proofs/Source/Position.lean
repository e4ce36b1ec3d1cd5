import TemplateBinding.Proofs.Outcome
import TemplateBinding.Source.Lexeme

set_option autoImplicit false

namespace TemplateBinding

def LexicalFault.position : LexicalFault → Nat
  | .unterminatedString position | .invalidEscape _ position | .unexpectedCharacter _ position
  | .invalidNumber _ position | .danglingPath _ position | .unnamedMember position
  | .unnamedAlias position | .mismatchedBracket _ _ position | .unclosedBracket _ position
  | .unexpectedCloser _ position => position

def GrammarFault.position? : GrammarFault → Option Nat
  | .emptyExpression => none
  | .unexpectedOperand position | .expectedOperand _ position | .unexpectedToken _ position
  | .danglingColon position | .missingColon position | .unexpectedComma position
  | .expectedObjectKey position | .missingKeyColon _ position => some position

def LimitFault.position? : LimitFault → Option Nat
  | .nestingTooDeep _ position => some position
  | .inputTooLong _ _ | .expressionTooDeep _ => none

def ParseFault.position? : ParseFault → Option Nat
  | .lexical fault => some fault.position
  | .grammar fault => fault.position?
  | .stream _ => none
  | .limit fault => fault.position?

def Tells (text : String) (position : Nat) : Prop :=
  ∃ before after, text = before ++ atPosition position ++ after

theorem tells_atPosition (position : Nat) : Tells (atPosition position) position :=
  ⟨"", "", by rw [String.empty_append, String.append_empty]⟩

theorem Tells.before {text : String} {position : Nat} (h : Tells text position) (s : String) :
    Tells (s ++ text) position := by
  obtain ⟨before, after, rfl⟩ := h
  exact ⟨s ++ before, after, by simp only [String.append_assoc]⟩

theorem Tells.behind {text : String} {position : Nat} (h : Tells text position) (s : String) :
    Tells (text ++ s) position := by
  obtain ⟨before, after, rfl⟩ := h
  exact ⟨before, after ++ s, by simp only [String.append_assoc]⟩

theorem LexicalFault.tells_message (fault : LexicalFault) :
    Tells fault.message fault.position := by
  have h := (tells_atPosition fault.position).before
  cases fault with
  | danglingPath => exact (((h _).behind _).behind _).behind _
  | unnamedMember | unnamedAlias | unclosedBracket | unexpectedCloser => exact (h _).behind _
  | _ => exact h _

theorem GrammarFault.tells_message {fault : GrammarFault} {position : Nat}
    (h : fault.position? = some position) : Tells fault.message position := by
  have ht := (tells_atPosition position).before
  cases fault with
  | emptyExpression => cases h
  | unexpectedOperand | danglingColon | missingColon | unexpectedComma =>
    cases h
    exact (ht _).behind _
  | _ =>
    cases h
    exact ht _

theorem LimitFault.tells_message {fault : LimitFault} {position : Nat}
    (h : fault.position? = some position) : Tells fault.message position := by
  cases fault with
  | nestingTooDeep =>
    cases h
    exact (tells_atPosition position).before _
  | _ => cases h

theorem ParseFault.tells_message {fault : ParseFault} {position : Nat}
    (h : fault.position? = some position) : Tells fault.message position := by
  cases fault with
  | lexical fault =>
    cases h
    exact fault.tells_message.before _
  | grammar fault => exact (GrammarFault.tells_message h).before _
  | stream fault => cases h
  | limit fault => exact (LimitFault.tells_message h).before _

/-- A character of the source begins so many bytes behind its start, or the source ends there. -/
def Boundary (source : String) (position : Nat) : Prop :=
  (String.Pos.Raw.mk position).IsValid source

theorem Boundary.le {source : String} {position : Nat} (h : Boundary source position) :
    position ≤ source.utf8ByteSize :=
  String.Pos.Raw.IsValid.le_utf8ByteSize h

def LexicalFault.LiesIn (fault : LexicalFault) (source : String) : Prop :=
  Boundary source fault.position

def ParseFault.LiesIn (fault : ParseFault) (source : String) : Prop :=
  ∃ position, fault.position? = some position ∧ Boundary source position

theorem LexicalFault.LiesIn.parse {fault : LexicalFault} {source : String}
    (h : fault.LiesIn source) : ParseFault.LiesIn (.lexical fault) source :=
  ⟨fault.position, rfl, h⟩

theorem byteLength_eq (cs : List Char) : byteLength cs = (String.ofList cs).utf8ByteSize := by
  induction cs with
  | nil => rfl
  | cons c cs ih =>
    rw [byteLength, ih, String.ofList_cons, String.utf8ByteSize_append, String.utf8ByteSize_singleton]

theorem byteLength_toList (s : String) : byteLength s.toList = s.utf8ByteSize := by
  rw [byteLength_eq, String.ofList_toList]

theorem byteLength_pos {cs : List Char} (h : cs ≠ []) : 0 < byteLength cs := by
  obtain ⟨c, cs, rfl⟩ := List.exists_cons_of_ne_nil h
  have := c.utf8Size_pos
  rw [byteLength]
  omega

namespace Cursor

variable {source : String} {c d : Cursor}

def LiesIn (c : Cursor) (source : String) : Prop := ∃ read, (start source).Leads read c

theorem liesIn_start (source : String) : (start source).LiesIn source := ⟨[], .refl _⟩

namespace LiesIn

theorem boundary (h : c.LiesIn source) : Boundary source c.offset := by
  obtain ⟨read, hrest, hoffset⟩ := h
  refine String.Pos.Raw.isValid_iff_exists_append.2 ⟨String.ofList read, String.ofList c.rest, ?_, ?_⟩
  · rw [← String.ofList_append, ← hrest, start, String.ofList_toList]
  · rw [hoffset, start, Nat.zero_add, byteLength_eq]
    rfl

theorem of_leads {s : List Char} (h : c.LiesIn source) (hs : c.Leads s d) : d.LiesIn source := by
  obtain ⟨read, hread⟩ := h
  exact ⟨read ++ s, hread.trans hs⟩

theorem takeWhile (h : c.LiesIn source) (p : Char → Bool) : (c.takeWhile p).2.LiesIn source :=
  h.of_leads (leads_takeWhile p c)

theorem skipBlanks (h : c.LiesIn source) : c.skipBlanks.LiesIn source := h.takeWhile _

theorem readName (h : c.LiesIn source) : c.readName.2.LiesIn source := h.takeWhile _

theorem skip (h : c.LiesIn source) (n : Nat) : (c.skip n).LiesIn source :=
  h.of_leads (leads_skip c n)

theorem next (h : c.LiesIn source) : c.next.LiesIn source := h.skip 1

theorem readPathAfter (h : c.LiesIn source) (names : List String) :
    Ends (·.LiesIn source) (·.2.LiesIn source) (readPathAfter names c) := by
  fun_induction Cursor.readPathAfter names c with
  | case1 names c _ _ ih => exact ih h.next.readName
  | case2 names c => exact h.boundary
  | case3 names c => exact h

theorem readPath (h : c.LiesIn source) :
    Ends (·.LiesIn source) (·.2.LiesIn source) c.readPath :=
  h.readName.readPathAfter _

theorem readTextAfter {start : Nat} (h : c.LiesIn source) (hstart : Boundary source start)
    (quote : Char) (read : List Char) :
    Ends (·.LiesIn source) (·.2.LiesIn source) (readTextAfter quote start read c) := by
  fun_induction Cursor.readTextAfter quote start read c with
  | case1 read c next hp =>
    obtain ⟨s, -, hs⟩ := leads_of_readPiece (Or.inr hp : _ = Piece.character 'x' next ∨ _)
    exact h.of_leads hs
  | case2 read c ch next hp ih =>
    obtain ⟨s, -, hs⟩ := leads_of_readPiece (.inl hp)
    exact ih (h.of_leads hs)
  | case3 read c => exact h.boundary
  | case4 => exact hstart

theorem readText (h : c.LiesIn source) (quote : Char) :
    Ends (·.LiesIn source) (·.2.LiesIn source) (c.readText quote) :=
  h.next.readTextAfter h.boundary quote []

theorem readNumber (h : c.LiesIn source) :
    Ends (·.LiesIn source) (·.2.LiesIn source) c.readNumber := by
  cases hread : c.readNumber with
  | ok r => exact h.of_leads (leads_of_readNumber hread)
  | error fault =>
    simp only [Cursor.readNumber] at hread
    split at hread
    · cases hread
      exact h.boundary
    · split at hread <;> cases hread

end LiesIn

end Cursor

namespace Lexeme

variable {source : String} {c : Cursor}

theorem ends_readKeyName (h : c.LiesIn source) :
    Ends (·.LiesIn source) (·.2.LiesIn source) (readKeyName c) := by
  have htext (quote : Char) : Ends (ParseFault.LiesIn · source) (·.2.LiesIn source)
      ((c.readText quote).mapError .lexical) :=
    (h.readText quote).mapError fun _ => LexicalFault.LiesIn.parse
  refine .ite (fun _ => h.readName) fun _ => .ite (fun _ => htext _) fun _ =>
    .ite (fun _ => htext _) fun _ => .ite (fun _ => ?_) fun _ => ⟨c.offset, rfl, h.boundary⟩
  split
  · next hread => exact h.readNumber.of_ok hread
  · next hread => exact h.readNumber.of_ok hread
  · next hread => exact (h.readNumber.of_error hread).parse

theorem ends_readKey (h : c.LiesIn source) :
    Ends (·.LiesIn source) (·.2.LiesIn source) (readKey c) := by
  unfold readKey
  split
  · next hread => exact (ends_readKeyName h).of_error hread
  · next name d hread =>
    have hname : d.LiesIn source := (ends_readKeyName h).of_ok hread
    have hd := hname.skipBlanks
    exact .ite (fun _ => hd.next) fun _ => ⟨d.skipBlanks.offset, rfl, hd.boundary⟩

theorem ends_readAt (h : c.LiesIn source) (operandExpected : Bool) (ch : Char) :
    Ends (·.LiesIn source) (·.2.LiesIn source) (readAt operandExpected ch c) := by
  have hnumber : Ends (·.LiesIn source) (·.2.LiesIn source)
      (c.readNumber.map fun r => (Lexeme.operand (.of r.1), r.2)) :=
    h.readNumber.map fun _ hd => hd
  refine .ite (fun _ => (h.readText ch).map fun _ hd => hd) fun _ =>
    .ite (fun _ => hnumber) fun _ =>
    .ite (fun _ => .ite (fun _ => .ite (fun _ => hnumber) fun _ => h.boundary) fun _ =>
      .ite (fun _ => h.next.skipBlanks.readPath.map fun _ hd => hd) fun _ => h.boundary) fun _ =>
    .ite (fun _ => .ite (fun _ => h.next.readPath.map fun _ hd => hd) fun _ => h.boundary) fun _ =>
    .ite (fun _ => h.readPath.map fun _ hd => hd) fun _ => ?_
  split
  · exact h.next
  · refine .ite (fun _ => h.next) fun _ => ?_
    split
    · exact h.skip _
    · exact h.boundary

/-- Where a lexeme ends, and where none can be read, is a position in the source. -/
theorem ends_read? (h : c.LiesIn source) (expected : Expected) :
    Ends (·.LiesIn source) (∀ r ∈ ·, r.2.LiesIn source) (read? expected c) := by
  refine .ite (fun _ => (ends_readKey h).map fun r hr => ?_) fun _ => ?_
  · rintro _ ⟨⟩
    exact hr
  · split
    · exact nofun
    · refine .map ((ends_readAt h _ _).mapError fun _ => LexicalFault.LiesIn.parse) fun r hr => ?_
      rintro _ ⟨⟩
      exact hr

end Lexeme

end TemplateBinding
