import Mathlib.Data.List.TakeWhile
import TemplateBinding.Proofs.Grammar.Nesting
import TemplateBinding.Proofs.Source.Position

set_option autoImplicit false

namespace TemplateBinding

namespace Arrangement

def QuestionsIn (source : String) (ws : List Waiting) : Prop :=
  ∀ position, .question position ∈ ws → Boundary source position

structure LiesIn (a : Arrangement) (source : String) : Prop where
  waiting : QuestionsIn source a.waiting
  scopes : ∀ scope ∈ a.scopes, Boundary source scope.position ∧ QuestionsIn source scope.outer

variable {source : String} {limits : Limits} {a b : Arrangement} {c d : Cursor} {position : Nat}
  {ws : List Waiting} {output : List Token}

theorem liesIn_start (source : String) : LiesIn {} source := ⟨nofun, nofun⟩

theorem QuestionsIn.mono {vs : List Waiting} (h : QuestionsIn source ws) (hs : vs ⊆ ws) :
    QuestionsIn source vs :=
  fun position hm => h position (hs hm)

theorem QuestionsIn.cons {w : Waiting} (h : QuestionsIn source ws)
    (hw : ∀ position, w = .question position → Boundary source position) :
    QuestionsIn source (w :: ws) := by
  intro position hm
  obtain heq | hm := List.mem_cons.1 hm
  · exact hw position heq.symm
  · exact h position hm

theorem QuestionsIn.emitAll (h : QuestionsIn source ws) (output : List Token) :
    Ends (ParseFault.LiesIn · source) (fun _ => True)
      ((emitAll ws output).mapError ParseFault.grammar) := by
  fun_induction Arrangement.emitAll ws output with
  | case1 => trivial
  | case2 output op ws ih => exact ih (h.mono (List.subset_cons_self _ _))
  | case3 output ws ih => exact ih (h.mono (List.subset_cons_self _ _))
  | case4 position => exact ⟨position, rfl, h position List.mem_cons_self⟩

theorem emitWhile_subset (p : Operator → Bool) (ws : List Waiting) (output : List Token) :
    (emitWhile p ws output).1 ⊆ ws := by
  fun_induction emitWhile p ws output with
  | case1 op ws output hp ih => exact List.subset_cons_of_subset _ ih
  | case2 | case3 => exact List.Subset.refl _

theorem QuestionsIn.emitToQuestion (h : QuestionsIn source ws) (hp : Boundary source position)
    (output : List Token) :
    Ends (ParseFault.LiesIn · source) (fun r => QuestionsIn source r.1)
      ((emitToQuestion position ws output).mapError ParseFault.grammar) := by
  fun_induction Arrangement.emitToQuestion position ws output with
  | case1 => exact ⟨position, rfl, hp⟩
  | case2 output op ws ih => exact ih (h.mono (List.subset_cons_self _ _))
  | case3 output ws ih => exact ih (h.mono (List.subset_cons_self _ _))
  | case4 asked ws output =>
    exact (h.mono (List.subset_cons_self _ _)).cons nofun

namespace LiesIn

theorem of_scopes {scope : Scope} {scopes : List Scope} (h : a.LiesIn source)
    (hs : a.scopes = scope :: scopes) :
    (Boundary source scope.position ∧ QuestionsIn source scope.outer) ∧
      ∀ s ∈ scopes, Boundary source s.position ∧ QuestionsIn source s.outer := by
  have hscopes := h.scopes
  rw [hs] at hscopes
  exact List.forall_mem_cons.1 hscopes

theorem openScope (h : a.LiesIn source) (hp : Boundary source position) (limits : Limits)
    (kind : ScopeKind) :
    Ends (ParseFault.LiesIn · source) (·.LiesIn source) (a.openScope limits kind position) :=
  .ite (fun _ => ⟨position, rfl, hp⟩) fun _ =>
    ⟨nofun, List.forall_mem_cons.2 ⟨⟨hp, h.waiting⟩, h.scopes⟩⟩

theorem opening (h : a.LiesIn source) (hp : Boundary source position) (limits : Limits)
    (bracket : Bracket) :
    Ends (ParseFault.LiesIn · source) (·.LiesIn source) (a.opening limits bracket position) := by
  obtain herror | ⟨kind, -, hopen⟩ := opening_cases a bracket position
  · rw [herror]
    exact ⟨position, rfl, hp⟩
  · rw [hopen]
    exact h.openScope hp limits kind

theorem closing (h : a.LiesIn source) (hp : Boundary source position) (bracket : Bracket) :
    Ends (ParseFault.LiesIn · source) (·.LiesIn source) (a.closing bracket position) := by
  unfold Arrangement.closing
  refine .ite (fun _ => ⟨position, rfl, hp⟩) fun _ => .bind (h.waiting.emitAll _) fun output _ => ?_
  split
  · exact ⟨position, rfl, hp⟩
  · next scope scopes hs =>
    obtain ⟨⟨-, houter⟩, hscopes⟩ := h.of_scopes hs
    exact .ite (fun _ => ⟨position, rfl, hp⟩) fun _ => .ite (fun _ => ⟨position, rfl, hp⟩) fun _ =>
      ⟨houter, hscopes⟩

theorem comma (h : a.LiesIn source) (hp : Boundary source position) :
    Ends (ParseFault.LiesIn · source) (·.LiesIn source) (a.comma position) := by
  unfold Arrangement.comma
  refine .ite (fun _ => ⟨position, rfl, hp⟩) fun _ => .bind (h.waiting.emitAll _) fun output _ => ?_
  split
  · exact ⟨position, rfl, hp⟩
  · next scope scopes hs =>
    obtain ⟨hscope, hscopes⟩ := h.of_scopes hs
    exact .ite (fun _ => ⟨position, rfl, hp⟩) fun _ =>
      ⟨nofun, List.forall_mem_cons.2 ⟨hscope, hscopes⟩⟩

theorem question (h : a.LiesIn source) (hp : Boundary source position) :
    Ends (ParseFault.LiesIn · source) (·.LiesIn source) (a.question position) := by
  refine .ite (fun _ => ⟨position, rfl, hp⟩) fun _ => ⟨?_, h.scopes⟩
  refine (h.waiting.mono (emitWhile_subset _ _ _)).cons ?_
  rintro _ ⟨⟩
  exact hp

theorem colon (h : a.LiesIn source) (hp : Boundary source position) :
    Ends (ParseFault.LiesIn · source) (·.LiesIn source) (a.colon position) := by
  unfold Arrangement.colon
  exact .ite (fun _ => ⟨position, rfl, hp⟩) fun _ =>
    .bind (h.waiting.emitToQuestion hp _) fun _ hw => ⟨hw, h.scopes⟩

theorem symbol (h : a.LiesIn source) (hp : Boundary source position) (cs : List Char) :
    Ends (ParseFault.LiesIn · source) (·.LiesIn source) (a.symbol cs position) := by
  refine .ite (fun _ => ?_) fun _ => ?_
  · split
    · exact ⟨position, rfl, hp⟩
    · exact ⟨(h.waiting.mono (emitWhile_subset _ _ _)).cons nofun, h.scopes⟩
  · split
    · exact ⟨position, rfl, hp⟩
    · exact ⟨h.waiting.cons nofun, h.scopes⟩

theorem key (h : a.LiesIn source) (name : String) : (a.key name).LiesIn source := by
  cases hs : a.scopes with
  | nil => exact ⟨h.waiting, by simp [Arrangement.key, hs]⟩
  | cons scope scopes =>
    have hkey := h.of_scopes hs
    exact ⟨h.waiting, by simpa [Arrangement.key, hs] using hkey⟩

theorem accept (h : a.LiesIn source) (hp : Boundary source position) (limits : Limits)
    (lexeme : Lexeme) :
    Ends (ParseFault.LiesIn · source) (·.LiesIn source) (a.accept limits lexeme position) := by
  cases lexeme with
  | operand token => exact .ite (fun _ => ⟨position, rfl, hp⟩) fun _ => ⟨h.waiting, h.scopes⟩
  | members names => exact ⟨h.waiting, h.scopes⟩
  | key name => exact h.key name
  | opening bracket => exact h.opening hp limits bracket
  | closing bracket => exact h.closing hp bracket
  | comma => exact h.comma hp
  | colon => exact h.colon hp
  | question => exact h.question hp
  | symbol cs => exact h.symbol hp cs

end LiesIn

def Begun (a : Arrangement) : Prop := a.output ≠ [] ∨ a.waiting ≠ [] ∨ a.scopes ≠ []

theorem Coherent.begun (h : a.Coherent) (hp : a.place = .operator) : a.Begun :=
  .inl (h.output_ne_nil hp)

theorem begun_of_operand {token : Token} (h : a.operand token position = .ok b) : b.Begun := by
  unfold operand at h
  split at h
  · cases h
  · cases h
    exact .inl (List.cons_ne_nil _ _)

theorem begun_of_opening {bracket : Bracket} (h : a.opening limits bracket position = .ok b) :
    b.Begun := by
  obtain herror | ⟨kind, -, hopen⟩ := opening_cases a bracket position
  · rw [herror] at h
    cases h
  · rw [hopen, openScope] at h
    split at h
    · cases h
    · cases h
      exact .inr (.inr (List.cons_ne_nil _ _))

theorem waiting_ne_nil_of_emitToQuestion {rest : List Waiting} {emitted : List Token}
    (h : emitToQuestion position ws output = .ok (rest, emitted)) : rest ≠ [] := by
  fun_induction emitToQuestion position ws output with
  | case1 => cases h
  | case2 output op ws ih => exact ih h
  | case3 output ws ih => exact ih h
  | case4 asked ws output =>
    cases h
    exact List.cons_ne_nil _ _

theorem begun_of_colon (h : a.colon position = .ok b) : b.Begun := by
  unfold colon at h
  split at h
  · cases h
  · obtain ⟨⟨rest, emitted⟩, he, hb⟩ := bind_eq_ok_iff.1 h
    cases hb
    exact .inr (.inl (waiting_ne_nil_of_emitToQuestion (Lexeme.mapError_eq_ok_iff.1 he)))

theorem begun_of_question (h : a.question position = .ok b) : b.Begun := by
  unfold question at h
  split at h
  · cases h
  · cases h
    exact .inr (.inl (List.cons_ne_nil _ _))

theorem begun_of_symbol {cs : List Char} (h : a.symbol cs position = .ok b) : b.Begun := by
  unfold symbol at h
  split at h <;> split at h
  · cases h
  · cases h
    exact .inr (.inl (List.cons_ne_nil _ _))
  · cases h
  · cases h
    exact .inr (.inl (List.cons_ne_nil _ _))

theorem Coherent.begun_of_accept {lexeme : Lexeme} (h : a.Coherent) (hs : lexeme.Suits a.expected)
    (hb : a.accept limits lexeme position = .ok b) : b.Begun := by
  cases lexeme with
  | operand token => exact begun_of_operand hb
  | members names => exact (h.accept hs hb).begun (by cases hb; exact place_of_expected hs.1)
  | key name =>
    cases hb
    exact .inl (List.cons_ne_nil _ _)
  | opening bracket => exact begun_of_opening hb
  | closing bracket =>
    obtain ⟨_, _, _, -, -, -, -, -, rfl⟩ := closing_eq_ok hb
    exact (h.accept hs hb).begun rfl
  | comma =>
    obtain ⟨_, _, _, -, -, -, -, rfl⟩ := comma_eq_ok hb
    exact .inr (.inr (List.cons_ne_nil _ _))
  | colon => exact begun_of_colon hb
  | question => exact begun_of_question hb
  | symbol cs => exact begun_of_symbol hb

/-- The fault of an expression that is empty: nothing has been read, and only blanks follow. -/
structure Empties (a : Arrangement) (c : Cursor) (fault : ParseFault) : Prop where
  fault_eq : fault = .grammar .emptyExpression
  not_begun : ¬a.Begun
  blank : ∀ ch ∈ c.rest, Text.isBlank ch = true

theorem LiesIn.finish (h : a.LiesIn source) (hp : Boundary source position) :
    Ends (fun fault => fault.LiesIn source ∨ fault = .grammar .emptyExpression ∧ ¬a.Begun)
      (fun _ => True) (a.finish position) := by
  refine .ite (fun _ => .ite (fun he => .inr ⟨rfl, ?_⟩) fun _ => .inl ⟨position, rfl, hp⟩) fun _ => ?_
  · simpa [Begun, and_assoc] using he
  · split
    · next scope scopes hs =>
      exact .inl ⟨scope.position, rfl, (h.of_scopes hs).1.1⟩
    · exact ((h.waiting.emitAll _).mono fun _ => .inl).map fun _ _ => trivial

theorem blank_of_read? {expected : Expected}
    (h : Lexeme.read? expected c.skipBlanks = .ok none) :
    ∀ ch ∈ c.rest, Text.isBlank ch = true :=
  List.dropWhile_eq_nil_iff.1 (Lexeme.read?_eq_none_iff.1 h).2

/-- A run fails at a position in the source, or finds nothing but blanks. -/
theorem LiesIn.run (h : a.LiesIn source) (hc : c.LiesIn source) (ha : a.Coherent)
    (limits : Limits) :
    Ends (fun fault => fault.LiesIn source ∨ a.Empties c fault) (fun _ => True)
      (a.run limits c) := by
  fun_induction Arrangement.run limits a c with
  | case1 a c fault hread => exact .inl ((Lexeme.ends_read? hc.skipBlanks _).of_error hread)
  | case2 a c hread =>
    refine (h.finish hc.skipBlanks.boundary).mono fun fault hfault => ?_
    exact hfault.imp id fun hempty => ⟨hempty.1, hempty.2, blank_of_read? hread⟩
  | case3 a c lexeme next hread fault haccept =>
    exact .inl ((h.accept hc.skipBlanks.boundary limits lexeme).of_error haccept)
  | case4 a c lexeme next hread b haccept ih =>
    -- what has been read here stays, so that nothing behind it is found empty
    have hs := Lexeme.suits_of_read? hread
    have hb := (h.accept hc.skipBlanks.boundary limits lexeme).of_ok haccept
    have hnext := (Lexeme.ends_read? hc.skipBlanks _).of_ok hread _ rfl
    refine (ih hb hnext (ha.accept hs haccept)).mono fun fault hfault => .inl ?_
    exact hfault.resolve_right fun he => he.not_begun (ha.begun_of_accept hs haccept)

def Iterates (limits : Limits) (a : Arrangement) (c : Cursor) (b : Arrangement) (d : Cursor) :
    Prop :=
  ∃ lexeme, Lexeme.read? a.expected c.skipBlanks = .ok (some (lexeme, d)) ∧
    a.accept limits lexeme c.skipBlanks.offset = .ok b

/-- The loop over the source stands there, after so many iterations. -/
inductive Reached (limits : Limits) (source : String) : Nat → Arrangement → Cursor → Prop
  | start : Reached limits source 0 {} (Cursor.start source)
  | step {n : Nat} {a b : Arrangement} {c d : Cursor} :
      Reached limits source n a c → Iterates limits a c b d → Reached limits source (n + 1) b d

namespace Iterates

theorem leads (h : Iterates limits a c b d) : ∃ s, s ≠ [] ∧ c.Leads s d := by
  obtain ⟨lexeme, hread, -⟩ := h
  obtain ⟨s, hs⟩ := Cursor.leads_skipBlanks c
  obtain ⟨t, ht, hl⟩ := Lexeme.leads_of_read? hread
  exact ⟨s ++ t, by simp [ht], hs.trans hl⟩

theorem lt_offset (h : Iterates limits a c b d) : c.offset < d.offset := by
  obtain ⟨s, hs, hl⟩ := h.leads
  have := byteLength_pos hs
  rw [hl.2]
  omega

theorem run_eq (h : Iterates limits a c b d) : a.run limits c = b.run limits d := by
  obtain ⟨lexeme, hread, haccept⟩ := h
  exact run_read hread haccept

end Iterates

namespace Reached

variable {n : Nat}

theorem liesIn (h : Reached limits source n a c) : c.LiesIn source := by
  induction h with
  | start => exact Cursor.liesIn_start source
  | step _ hi ih =>
    obtain ⟨s, -, hs⟩ := hi.leads
    exact ih.of_leads hs

theorem run_eq (h : Reached limits source n a c) : arrange limits source = a.run limits c := by
  induction h with
  | start => rfl
  | step _ hi ih => exact ih.trans hi.run_eq

theorem le_offset (h : Reached limits source n a c) : n ≤ c.offset := by
  induction h with
  | start => exact Nat.le_refl 0
  | step _ hi ih =>
    have := hi.lt_offset
    omega

/-- From wherever the loop stands, it comes to an iteration that returns. -/
theorem exists_last (h : Reached limits source n a c) :
    ∃ m b d, Reached limits source m b d ∧ ∀ b' d', ¬Iterates limits b d b' d' := by
  fun_induction Arrangement.run limits a c generalizing n with
  | case1 a c fault hread =>
    refine ⟨n, a, c, h, ?_⟩
    rintro b' d' ⟨lexeme, hr, -⟩
    rw [hread] at hr
    cases hr
  | case2 a c hread =>
    refine ⟨n, a, c, h, ?_⟩
    rintro b' d' ⟨lexeme, hr, -⟩
    rw [hread] at hr
    cases hr
  | case3 a c lexeme next hread fault haccept =>
    refine ⟨n, a, c, h, ?_⟩
    rintro b' d' ⟨lexeme', hr, hb⟩
    rw [hread] at hr
    cases hr
    rw [haccept] at hb
    cases hb
  | case4 a c lexeme next hread b haccept ih => exact ih (h.step ⟨lexeme, hread, haccept⟩)

end Reached

end Arrangement

/-- Each iteration begins on a boundary between characters of the source and leads to a later one,
so there are no more iterations than bytes, and one of them is the last. Each fault has such a
boundary for its position, and tells it; but an empty expression is nowhere, and its source is
blank. -/
theorem arrange_progresses (limits : Limits) (source : String) :
    (∀ n a c, Arrangement.Reached limits source n a c →
      arrange limits source = a.run limits c ∧ c.LiesIn source ∧
      n ≤ c.offset ∧ c.offset ≤ source.utf8ByteSize ∧
      Boundary source c.offset ∧ Boundary source c.skipBlanks.offset ∧
      ∀ b d, Arrangement.Iterates limits a c b d → c.offset < d.offset) ∧
    (∃ n a c, Arrangement.Reached limits source n a c ∧
      ∀ b d, ¬Arrangement.Iterates limits a c b d) ∧
    ∀ fault, arrange limits source = .error fault →
      (∃ position, fault.position? = some position ∧ Tells fault.message position ∧
        position ≤ source.utf8ByteSize ∧ Boundary source position) ∨
      fault = .grammar .emptyExpression ∧ ∀ ch ∈ source.toList, Text.isBlank ch = true := by
  refine ⟨fun n a c h => ?_, Arrangement.Reached.start.exists_last, fun fault hfault => ?_⟩
  · have hc := h.liesIn
    exact ⟨h.run_eq, hc, h.le_offset, hc.boundary.le, hc.boundary, hc.skipBlanks.boundary,
      fun b d hi => hi.lt_offset⟩
  · have hrun := (Arrangement.liesIn_start source).run (Cursor.liesIn_start source)
      Arrangement.coherent_start limits
    obtain ⟨position, hposition, hboundary⟩ | hempty := hrun.of_error hfault
    · exact .inl ⟨position, hposition, ParseFault.tells_message hposition, hboundary.le, hboundary⟩
    · exact .inr ⟨hempty.fault_eq, hempty.blank⟩

/-- Behind a bracket and a letter of two bytes, a text without an end is found at byte four. -/
theorem arrange_progresses_unterminated :
    (∃ b d, Arrangement.Iterates {} {} (Cursor.start "(é \"x") b d ∧ 0 < d.offset ∧
      Boundary "(é \"x" d.offset) ∧
    arrange {} "(é \"x" = .error (.lexical (.unterminatedString 4)) ∧
    4 ≤ "(é \"x".utf8ByteSize ∧ Boundary "(é \"x" 4 := by
  obtain ⟨hsteps, -, hfaults⟩ := arrange_progresses {} "(é \"x"
  have hi : Arrangement.Iterates {} {} (Cursor.start "(é \"x") (Arrangement.inside {} .group 0)
      ⟨['é', ' ', '\"', 'x'], 1⟩ := ⟨.opening .round, rfl, rfl⟩
  have hfault : arrange {} "(é \"x" = .error (.lexical (.unterminatedString 4)) :=
    eq_error_of_fault? (by decide +kernel)
  obtain ⟨-, -, -, -, -, -, hlt⟩ := hsteps 0 {} _ .start
  obtain ⟨-, -, -, -, hboundary, -⟩ := hsteps 1 _ _ (.step .start hi)
  refine ⟨⟨_, _, hi, hlt _ _ hi, hboundary⟩, hfault, ?_⟩
  obtain ⟨position, hposition, -, hle, hb⟩ | ⟨hempty, -⟩ := hfaults _ hfault
  · cases hposition
    exact ⟨hle, hb⟩
  · cases hempty

/-- The fault of a source without any text tells no position, not even in its message. -/
theorem arrange_empty_nowhere :
    arrange {} "" = .error (.grammar .emptyExpression) ∧
    (ParseFault.grammar .emptyExpression).position? = none ∧
    (ParseFault.grammar .emptyExpression).message = "syntax error: empty expression" :=
  ⟨eq_error_of_fault? (by decide +kernel), rfl, rfl⟩

end TemplateBinding
