import TemplateBinding.Proofs.Grammar.Words

set_option autoImplicit false

namespace TemplateBinding

def isDelimiter (c : Char) : Bool := Text.isBlank c || (Lexeme.punctuation? c).isSome

/-- What follows goes on with none of the lexemes before it. -/
def Delimits (follow : List Char) : Prop := ∀ c cs, follow = c :: cs → isDelimiter c = true

theorem delimits_nil : Delimits [] := nofun

theorem delimits_cons {c : Char} {cs : List Char} (h : isDelimiter c = true) :
    Delimits (c :: cs) := by
  rintro _ _ ⟨⟩
  exact h

theorem ne_of_isDelimiter {c d : Char} (h : isDelimiter c = true) (hd : isDelimiter d = false) :
    c ≠ d := by
  rintro rfl
  rw [h] at hd
  cases hd

theorem isNamePart_of_isDelimiter {c : Char} (h : isDelimiter c = true) :
    isNamePart c = false := by
  obtain hb | hp := Bool.or_eq_true_iff.1 h
  · exact isNamePart_of_isBlank hb
  · unfold Lexeme.punctuation? at hp
    split at hp <;> first | decide | cases hp

theorem isDigit_of_isDelimiter {c : Char} (h : isDelimiter c = true) : c.isDigit = false := by
  cases hd : c.isDigit with
  | false => rfl
  | true => exact (isNamePart_of_isDigit hd).symm.trans (isNamePart_of_isDelimiter h)

theorem beq_of_isDelimiter {d : Char} (hd : isDelimiter d = false) {c : Char}
    (h : isDelimiter c = true) : (c == d) = false :=
  beq_eq_false_iff_ne.2 (ne_of_isDelimiter h hd)

section regrow

variable {n : Nat} {follow cs : List Char} {p : Char → Bool}

/-- The text with `follow` in the place of its last `n` characters. -/
def regrow (n : Nat) (follow cs : List Char) : List Char := cs.take (cs.length - n) ++ follow

theorem regrow_zero (follow cs : List Char) : regrow 0 follow cs = cs ++ follow := by
  simp [regrow]

theorem regrow_of_length_le (h : cs.length ≤ n) : regrow n follow cs = follow := by
  rw [regrow, Nat.sub_eq_zero_of_le h]
  rfl

theorem regrow_append (s : List Char) (h : n ≤ cs.length) :
    regrow n follow (s ++ cs) = s ++ regrow n follow cs := by
  have hlength : (s ++ cs).length - n = s.length + (cs.length - n) := by
    rw [List.length_append]
    omega
  rw [regrow, hlength, List.take_length_add_append, List.append_assoc]
  rfl

theorem regrow_cons (c : Char) (h : n ≤ cs.length) :
    regrow n follow (c :: cs) = c :: regrow n follow cs :=
  regrow_append [c] h

theorem regrow_eq_cons {c : Char} {rest : List Char} (h : regrow n follow cs = c :: rest) :
    (∃ kept, cs = c :: kept ∧ rest = regrow n follow kept) ∨ follow = c :: rest := by
  cases cs with
  | nil =>
    rw [regrow_of_length_le (Nat.zero_le n)] at h
    exact .inr h
  | cons a kept =>
    by_cases hn : n ≤ kept.length
    · rw [regrow_cons a hn] at h
      obtain ⟨rfl, rfl⟩ := List.cons.inj h
      exact .inl ⟨kept, rfl, rfl⟩
    · rw [regrow_of_length_le (by rw [List.length_cons]; omega)] at h
      exact .inr h

theorem stops_regrow (hf : Delimits follow) (hp : ∀ {c : Char}, isDelimiter c = true → p c = false)
    (h : ∀ c rest, cs = c :: rest → p c = false) :
    ∀ c rest, regrow n follow cs = c :: rest → p c = false := by
  intro c rest hr
  obtain ⟨kept, hkept, -⟩ | hfollow := regrow_eq_cons hr
  · exact h c kept hkept
  · exact hp (hf c rest hfollow)

theorem stops_dropWhile (p : Char → Bool) (cs : List Char) :
    ∀ c rest, cs.dropWhile p = c :: rest → p c = false := by
  intro c rest h
  have hne : cs.dropWhile p ≠ [] := by rw [h]; exact List.cons_ne_nil c rest
  have hhead := List.head_dropWhile_not p hne
  simpa [h] using hhead

theorem takeWhile_regrow_of_stops (h : n ≤ (cs.dropWhile p).length)
    (hs : ∀ c rest, regrow n follow (cs.dropWhile p) = c :: rest → p c = false) :
    (regrow n follow cs).takeWhile p = cs.takeWhile p ∧
      (regrow n follow cs).dropWhile p = regrow n follow (cs.dropWhile p) := by
  have hsplit : regrow n follow cs = cs.takeWhile p ++ regrow n follow (cs.dropWhile p) := by
    rw [← regrow_append _ h, List.takeWhile_append_dropWhile]
  rw [hsplit]
  exact takeWhile_append_apart (fun _ hc => List.all_eq_true.1 List.all_takeWhile _ hc) hs

theorem takeWhile_regrow (hf : Delimits follow)
    (hp : ∀ {c : Char}, isDelimiter c = true → p c = false) (h : n ≤ (cs.dropWhile p).length) :
    (regrow n follow cs).takeWhile p = cs.takeWhile p ∧
      (regrow n follow cs).dropWhile p = regrow n follow (cs.dropWhile p) :=
  takeWhile_regrow_of_stops h (stops_regrow hf hp (stops_dropWhile p cs))

end regrow

namespace Cursor

def within (shift : Nat) (follow : List Char) (c : Cursor) : Cursor :=
  ⟨c.rest ++ follow, c.offset + shift⟩

/-- The same place where `follow` stands for the last `n` characters, and `shift` more bytes before
it. -/
def regrown (n shift : Nat) (follow : List Char) (c : Cursor) : Cursor :=
  ⟨regrow n follow c.rest, c.offset + shift⟩

variable {n shift : Nat} {follow : List Char} {c d : Cursor}

@[simp] theorem rest_within : (c.within shift follow).rest = c.rest ++ follow := rfl

@[simp] theorem rest_regrown : (c.regrown n shift follow).rest = regrow n follow c.rest := rfl

@[simp] theorem offset_regrown : (c.regrown n shift follow).offset = c.offset + shift := rfl

theorem regrown_zero (shift : Nat) (follow : List Char) (c : Cursor) :
    c.regrown 0 shift follow = c.within shift follow := by
  rw [regrown, regrow_zero]
  rfl

theorem rest_ne_nil_of_nextIs {p : Char → Bool} (h : c.nextIs p = true) : c.rest ≠ [] := by
  obtain ⟨ch, rest, hr, -⟩ := Lexeme.nextIs_iff.1 h
  rw [hr]
  exact List.cons_ne_nil ch rest

theorem exists_rest_of_lt (h : n < c.rest.length) :
    ∃ ch rest, c.rest = ch :: rest ∧ n ≤ rest.length := by
  obtain ⟨ch, rest, hr⟩ := List.exists_cons_of_length_pos (Nat.lt_of_le_of_lt (Nat.zero_le n) h)
  refine ⟨ch, rest, hr, ?_⟩
  rw [hr, List.length_cons] at h
  omega

theorem Leads.length_eq {s : List Char} (h : c.Leads s d) :
    c.rest.length = s.length + d.rest.length := by
  rw [h.1, List.length_append]

theorem length_rest_next (hc : c.rest ≠ []) : c.rest.length = c.next.rest.length + 1 := by
  obtain ⟨ch, rest, hr⟩ := List.exists_cons_of_ne_nil hc
  rw [rest_next hr, hr, List.length_cons]

theorem next_regrown (h : n < c.rest.length) :
    (c.regrown n shift follow).next = c.next.regrown n shift follow := by
  obtain ⟨ch, rest, hr, hn⟩ := exists_rest_of_lt h
  simp [next, regrown, hr, regrow_cons ch hn, Nat.add_right_comm]

theorem skip_regrown {k : Nat} (h : n + k ≤ c.rest.length) :
    (c.regrown n shift follow).skip k = (c.skip k).regrown n shift follow := by
  induction k generalizing c with
  | zero => rfl
  | succ k ih =>
    obtain ⟨ch, rest, hr, -⟩ := exists_rest_of_lt (c := c) (n := n) (by omega)
    have hnext : n + k ≤ c.next.rest.length := by
      rw [rest_next hr]
      rw [hr, List.length_cons] at h
      omega
    rw [skip, skip, next_regrown (by omega), ih hnext]

theorem nextIs_regrown_of_lt {p : Char → Bool} (h : n < c.rest.length) :
    (c.regrown n shift follow).nextIs p = c.nextIs p := by
  obtain ⟨ch, rest, hr, hn⟩ := exists_rest_of_lt h
  simp [nextIs, hr, regrow_cons ch hn]

theorem nextIs_eq_false_iff {p : Char → Bool} :
    c.nextIs p = false ↔ ∀ ch rest, c.rest = ch :: rest → p ch = false := by
  cases hr : c.rest with
  | nil => simp [nextIs, hr]
  | cons ch rest => simp [nextIs, hr]

theorem nextIs_regrown_of_false {p : Char → Bool} (hf : Delimits follow)
    (hp : ∀ {ch : Char}, isDelimiter ch = true → p ch = false) (h : c.nextIs p = false) :
    (c.regrown n shift follow).nextIs p = false :=
  nextIs_eq_false_iff.2 (stops_regrow hf hp (nextIs_eq_false_iff.1 h))

theorem takeWhile_regrown {p : Char → Bool} (hf : Delimits follow)
    (hp : ∀ {ch : Char}, isDelimiter ch = true → p ch = false)
    (h : n ≤ (c.takeWhile p).2.rest.length) :
    (c.regrown n shift follow).takeWhile p =
      ((c.takeWhile p).1, (c.takeWhile p).2.regrown n shift follow) := by
  obtain ⟨ht, hd⟩ := takeWhile_regrow hf hp h
  simp [takeWhile, regrown, ht, hd, Nat.add_right_comm]

theorem skipBlanks_regrown (h : n < c.skipBlanks.rest.length) :
    (c.regrown n shift follow).skipBlanks = c.skipBlanks.regrown n shift follow := by
  obtain ⟨ch, rest, hr, hn⟩ := exists_rest_of_lt h
  have hd : c.rest.dropWhile Text.isBlank = ch :: rest := hr
  have hs : ∀ a rest', regrow n follow (c.rest.dropWhile Text.isBlank) = a :: rest' →
      Text.isBlank a = false := by
    intro a rest' ha
    rw [hd, regrow_cons ch hn] at ha
    obtain ⟨rfl, -⟩ := List.cons.inj ha
    exact stops_dropWhile Text.isBlank c.rest ch rest hd
  obtain ⟨ht, hd'⟩ := takeWhile_regrow_of_stops (Nat.le_of_lt h) hs
  simp [skipBlanks, takeWhile, regrown, ht, hd', Nat.add_right_comm]

theorem skipBlanks_within (h : c.skipBlanks.rest ≠ []) :
    (c.within shift follow).skipBlanks = c.skipBlanks.within shift follow := by
  have hrun : (c.regrown 0 shift follow).skipBlanks = c.skipBlanks.regrown 0 shift follow :=
    skipBlanks_regrown (List.length_pos_iff.2 h)
  rwa [regrown_zero, regrown_zero] at hrun

theorem skipBlanks_within_of_rest_nil (h : c.skipBlanks.rest = []) :
    (c.within shift follow).skipBlanks =
      skipBlanks ⟨follow, c.offset + shift + byteLength c.rest⟩ := by
  have hd : c.rest.dropWhile Text.isBlank = [] := h
  have ht : c.rest.takeWhile Text.isBlank = c.rest := by
    have := List.takeWhile_append_dropWhile (p := Text.isBlank) (l := c.rest)
    rwa [hd, List.append_nil] at this
  have htake : (c.rest ++ follow).takeWhile Text.isBlank =
      c.rest ++ follow.takeWhile Text.isBlank :=
    List.takeWhile_append_of_pos fun ch hch =>
      List.all_eq_true.1 List.all_takeWhile ch (by rwa [ht])
  simp [skipBlanks, takeWhile, within, List.dropWhile_append, hd, htake, Nat.add_assoc]

/-- What the one reading takes before the last `n` characters, the other takes in the text that
goes on otherwise. -/
def Keeps (n shift : Nat) (follow : List Char) {ε α : Type} (r r' : Except ε (α × Cursor)) : Prop :=
  ∀ ⦃a d⦄, r = .ok (a, d) → n ≤ d.rest.length → r' = .ok (a, d.regrown n shift follow)

namespace Keeps

variable {ε ε' α β : Type} {r r' s s' : Except ε (α × Cursor)} {p p' : Prop} [Decidable p]
  [Decidable p']

theorem ok (a : α) (d : Cursor) :
    Keeps n shift follow (.ok (a, d) : Except ε _) (.ok (a, d.regrown n shift follow)) := by
  rintro _ _ ⟨⟩ -
  rfl

theorem error (fault : ε) : Keeps n shift follow (.error fault) r' := nofun

theorem of_ends (h : ∀ a d, r = .ok (a, d) → n ≤ d.rest.length → Keeps n shift follow r r') :
    Keeps n shift follow r r' := fun a d ha hn => h a d ha hn ha hn

theorem map (h : Keeps n shift follow r r') (f : α → β) :
    Keeps n shift follow (r.map fun (a, d) => (f a, d)) (r'.map fun (a, d) => (f a, d)) := by
  intro b d hb hn
  obtain ⟨⟨a, e⟩, ha, heq⟩ := Lexeme.map_eq_ok_iff.1 hb
  cases heq
  rw [h ha hn]
  rfl

theorem mapError (h : Keeps n shift follow r r') (f : ε → ε') :
    Keeps n shift follow (r.mapError f) (r'.mapError f) := fun _ _ ha hn =>
  Lexeme.mapError_eq_ok_iff.2 (h (Lexeme.mapError_eq_ok_iff.1 ha) hn)

theorem ite (h : p → Keeps n shift follow r r') (h' : ¬p → Keeps n shift follow s s') :
    Keeps n shift follow (if p then r else s) (if p then r' else s') := by
  by_cases hp : p
  · simpa only [if_pos hp] using h hp
  · simpa only [if_neg hp] using h' hp

theorem guarded {fault : ε}
    (h : ∀ a d, p → r = .ok (a, d) → n ≤ d.rest.length → p' ∧ Keeps n shift follow r r') :
    Keeps n shift follow (if p then r else .error fault) (if p' then r' else s') := by
  intro a d ha hn
  by_cases hp : p
  · rw [if_pos hp] at ha
    obtain ⟨hp', hr⟩ := h a d hp ha hn
    rw [if_pos hp']
    exact hr ha hn
  · rw [if_neg hp] at ha
    cases ha

end Keeps

theorem readName_regrown (hf : Delimits follow) (h : n ≤ c.readName.2.rest.length) :
    (c.regrown n shift follow).readName = (c.readName.1, c.readName.2.regrown n shift follow) :=
  takeWhile_regrown hf isNamePart_of_isDelimiter h

theorem readPathAfter_regrown {names path : List String} (hf : Delimits follow)
    (h : readPathAfter names c = .ok (path, d)) (hn : n ≤ d.rest.length) :
    readPathAfter names (c.regrown n shift follow) = .ok (path, d.regrown n shift follow) := by
  fun_induction readPathAfter names c with
  | case1 names c hd hs ih =>
    obtain ⟨s, hl⟩ := leads_of_readPathAfter h
    have hafter : n ≤ c.next.readName.2.rest.length := Nat.le_trans hn hl.length_le
    have hname : c.next.readName.2.rest.length < c.next.rest.length :=
      (leads_readName c.next).length_lt (readName_ne_nil hs)
    have hnext : n < c.next.rest.length := by omega
    have hlt : n < c.rest.length := by
      rw [length_rest_next (rest_ne_nil_of_nextIs hd)]
      omega
    rw [readPathAfter, nextIs_regrown_of_lt hlt, if_pos hd, next_regrown hlt,
      nextIs_regrown_of_lt hnext, if_pos hs, readName_regrown hf hafter, ih h]
  | case2 => cases h
  | case3 names c hd =>
    cases h
    have hdot : (d.regrown n shift follow).nextIs (· == '.') = false :=
      nextIs_regrown_of_false hf (beq_of_isDelimiter (by decide)) (Bool.eq_false_iff.2 hd)
    rw [readPathAfter, hdot, if_neg Bool.false_ne_true]

theorem readPath_regrown (hf : Delimits follow) :
    Keeps n shift follow c.readPath (c.regrown n shift follow).readPath := by
  intro path d h hn
  obtain ⟨s, hl⟩ := leads_of_readPathAfter h
  unfold readPath
  rw [readName_regrown hf (Nat.le_trans hn hl.length_le)]
  exact readPathAfter_regrown hf h hn

theorem bounds_of_code {p : Char → Bool} {cs : List Char}
    (h : ((cs.take 4).takeWhile p).length = 4) (hn : n ≤ (cs.drop 4).length) :
    (cs.take 4).length = 4 ∧ n + 4 ≤ cs.length := by
  have hle := (List.takeWhile_sublist (l := cs.take 4) p).length_le
  rw [List.length_take] at hle ⊢
  rw [List.length_drop] at hn
  omega

def Piece.regrown (n shift : Nat) (follow : List Char) : Piece → Piece
  | .closed next => .closed (next.regrown n shift follow)
  | .character ch next => .character ch (next.regrown n shift follow)
  | piece => piece

def Piece.EndsBefore (n : Nat) : Piece → Prop
  | .closed next | .character _ next => n ≤ next.rest.length
  | .badCode _ | .unterminated => False

theorem readPiece_single_regrown {quote a : Char} {rest : List Char} (ha : ¬(a = '\\' ∧ a ≠ quote))
    (hr : c.rest = a :: rest) (h : (c.readPiece quote).EndsBefore n) :
    (c.regrown n shift follow).readPiece quote = (c.readPiece quote).regrown n shift follow := by
  rw [readPiece_single ha hr] at h
  have hn : n ≤ rest.length := by
    have hnext : n ≤ c.next.rest.length := by split at h <;> exact h
    rwa [rest_next hr] at hnext
  have hsplit : (c.regrown n shift follow).rest = a :: regrow n follow rest := by
    rw [rest_regrown, hr, regrow_cons a hn]
  have hnext : (c.regrown n shift follow).next = c.next.regrown n shift follow :=
    next_regrown (by rw [hr, List.length_cons]; omega)
  rw [readPiece_single ha hsplit, readPiece_single ha hr, hnext]
  split <;> rfl

theorem readPiece_code_regrown {quote : Char} {rest : List Char} (hq : '\\' ≠ quote)
    (hr : c.rest = '\\' :: 'u' :: rest) (h : (c.readPiece quote).EndsBefore n) :
    (c.regrown n shift follow).readPiece quote = (c.readPiece quote).regrown n shift follow := by
  rw [readPiece_code hq hr] at h
  split at h
  · next hx =>
    have hdrop : n ≤ (rest.drop 4).length := by
      have hskip : n ≤ (c.skip 6).rest.length := h
      rwa [rest_skip, hr] at hskip
    obtain ⟨hfour, hlength⟩ := bounds_of_code hx.1 hdrop
    have hsplit : (c.regrown n shift follow).rest =
        '\\' :: 'u' :: (rest.take 4 ++ regrow n follow (rest.drop 4)) := by
      rw [rest_regrown, hr, ← regrow_append _ hdrop, List.take_append_drop, regrow_cons, regrow_cons]
      · omega
      · rw [List.length_cons]
        omega
    have hskip : n + 6 ≤ c.rest.length := by
      rw [hr, List.length_cons, List.length_cons]
      omega
    rw [readPiece_code hq hsplit, readPiece_code hq hr, List.take_left' hfour, if_pos hx, if_pos hx,
      skip_regrown hskip]
    rfl
  · exact h.elim

theorem readPiece_escape_regrown {quote e : Char} {rest : List Char} (hq : '\\' ≠ quote)
    (he : e ≠ 'u') (hr : c.rest = '\\' :: e :: rest) (h : (c.readPiece quote).EndsBefore n) :
    (c.regrown n shift follow).readPiece quote = (c.readPiece quote).regrown n shift follow := by
  rw [readPiece_escape hq he hr] at h
  have hn : n ≤ rest.length := by
    have hskip : n ≤ (c.skip 2).rest.length := h
    rwa [rest_skip, hr] at hskip
  have hskip : n + 2 ≤ c.rest.length := by
    rw [hr, List.length_cons, List.length_cons]
    omega
  have hsplit : (c.regrown n shift follow).rest = '\\' :: e :: regrow n follow rest := by
    rw [rest_regrown, hr, regrow_cons, regrow_cons e hn]
    rw [List.length_cons]
    omega
  rw [readPiece_escape hq he hsplit, readPiece_escape hq he hr, skip_regrown hskip]
  rfl

theorem readPiece_regrown {quote : Char} (h : (c.readPiece quote).EndsBefore n) :
    (c.regrown n shift follow).readPiece quote = (c.readPiece quote).regrown n shift follow := by
  cases hr : c.rest with
  | nil =>
    unfold readPiece at h
    rw [hr] at h
    exact h.elim
  | cons a rest =>
    by_cases hescape : a = '\\' ∧ a ≠ quote
    · obtain ⟨rfl, hq⟩ := hescape
      match rest, hr with
      | [], hr =>
        unfold readPiece at h
        simp only [hr, if_neg hq] at h
        exact h.elim
      | e :: rest, hr =>
        by_cases he : e = 'u'
        · subst he
          exact readPiece_code_regrown hq hr h
        · exact readPiece_escape_regrown hq he hr h
    · exact readPiece_single_regrown hescape hr h

theorem readTextAfter_regrown {quote : Char} {start start' : Nat} {read : List Char}
    {text : String} (h : readTextAfter quote start read c = .ok (text, d))
    (hn : n ≤ d.rest.length) :
    readTextAfter quote start' read (c.regrown n shift follow) =
      .ok (text, d.regrown n shift follow) := by
  fun_induction readTextAfter quote start read c with
  | case1 read c next hp =>
    cases h
    have hp' : (c.regrown n shift follow).readPiece quote = .closed (d.regrown n shift follow) := by
      rw [readPiece_regrown (by rw [hp]; exact hn), hp]
      rfl
    unfold readTextAfter
    split <;> simp_all
  | case2 read c ch next hp ih =>
    obtain ⟨s, hl⟩ := leads_of_readTextAfter h
    have hp' : (c.regrown n shift follow).readPiece quote =
        .character ch (next.regrown n shift follow) := by
      rw [readPiece_regrown (by rw [hp]; exact Nat.le_trans hn hl.length_le), hp]
      rfl
    have ih := ih h
    unfold readTextAfter
    split <;> simp_all
  | case3 | case4 => cases h

theorem readText_regrown {quote : Char} (hc : c.rest ≠ []) :
    Keeps n shift follow (c.readText quote) ((c.regrown n shift follow).readText quote) := by
  intro text d h hn
  obtain ⟨s, hl⟩ := leads_of_readTextAfter h
  have hlt : n < c.rest.length := by
    have := hl.length_le
    rw [length_rest_next hc]
    omega
  unfold readText
  rw [next_regrown hlt]
  exact readTextAfter_regrown h hn

end Cursor

namespace Number

variable {n : Nat} {follow cs rest : List Char}

theorem readFraction_eq_none (h : ∀ d ds, cs = '.' :: d :: ds → d.isDigit = false) :
    readFraction cs = (none, cs) := by
  unfold readFraction
  split
  · next d ds =>
    rw [if_neg (by rw [h d ds rfl]; exact Bool.false_ne_true)]
  · rfl

theorem readFraction_regrow (hf : Delimits follow) (h : n ≤ (readFraction cs).2.length) :
    readFraction (regrow n follow cs) =
      ((readFraction cs).1, regrow n follow (readFraction cs).2) := by
  by_cases hpoint : ∃ d ds, cs = '.' :: d :: ds ∧ d.isDigit = true
  · obtain ⟨d, ds, rfl, hd⟩ := hpoint
    simp only [readFraction, hd, if_true] at h ⊢
    have hdrop : n ≤ ds.length := by
      rw [List.dropWhile_cons_of_pos hd] at h
      exact Nat.le_trans h (List.dropWhile_sublist _).length_le
    obtain ⟨ht, hdw⟩ := takeWhile_regrow hf isDigit_of_isDelimiter h
    rw [regrow_cons d hdrop] at ht hdw
    rw [regrow_cons _ (by rw [List.length_cons]; omega), regrow_cons d hdrop]
    simp only [hd, if_true, ht, hdw]
  · have hnone : readFraction cs = (none, cs) := readFraction_eq_none fun d ds hcs =>
      Bool.eq_false_iff.2 fun hd => hpoint ⟨d, ds, hcs, hd⟩
    rw [hnone]
    refine readFraction_eq_none fun d ds hcs => ?_
    obtain ⟨kept, rfl, hkept⟩ | hfollow := regrow_eq_cons hcs
    · obtain ⟨kept, rfl, -⟩ | hfollow := regrow_eq_cons hkept.symm
      · exact Bool.eq_false_iff.2 fun hd => hpoint ⟨d, kept, rfl, hd⟩
      · exact isDigit_of_isDelimiter (hf d ds hfollow)
    · exact absurd (hf '.' _ hfollow) (by decide)

theorem readSign_eq_none (h : ∀ c ds, cs = c :: ds → c ≠ '+' ∧ c ≠ '-') :
    readSign cs = (none, cs) := by
  unfold readSign
  split
  · next ds => exact absurd rfl (h '+' ds rfl).1
  · next ds => exact absurd rfl (h '-' ds rfl).2
  · rfl

theorem readSign_regrow (hf : Delimits follow) (h : n ≤ (readSign cs).2.length) :
    readSign (regrow n follow cs) = ((readSign cs).1, regrow n follow (readSign cs).2) := by
  by_cases hsign : ∃ c ds, cs = c :: ds ∧ (c = '+' ∨ c = '-')
  · obtain ⟨c, ds, rfl, rfl | rfl⟩ := hsign
    · have hn : n ≤ ds.length := h
      rw [regrow_cons '+' hn]
      rfl
    · have hn : n ≤ ds.length := h
      rw [regrow_cons '-' hn]
      rfl
  · have hnone : readSign cs = (none, cs) := readSign_eq_none fun c ds hcs =>
      ⟨fun hc => hsign ⟨c, ds, hcs, .inl hc⟩, fun hc => hsign ⟨c, ds, hcs, .inr hc⟩⟩
    rw [hnone]
    refine readSign_eq_none fun c ds hcs => ?_
    obtain ⟨kept, rfl, -⟩ | hfollow := regrow_eq_cons hcs
    · exact ⟨fun hc => hsign ⟨c, kept, rfl, .inl hc⟩, fun hc => hsign ⟨c, kept, rfl, .inr hc⟩⟩
    · have hc := hf c ds hfollow
      exact ⟨ne_of_isDelimiter hc (by decide), ne_of_isDelimiter hc (by decide)⟩

theorem Exponent.read?_regrow {x : Exponent} (hf : Delimits follow)
    (h : Exponent.read? cs = some (x, rest)) (hn : n ≤ rest.length) :
    Exponent.read? (regrow n follow cs) = some (x, regrow n follow rest) := by
  cases cs with
  | nil => cases h
  | cons marker cs =>
    simp only [Exponent.read?] at h
    split at h
    · next hx =>
      cases h
      have hsign : n ≤ (readSign cs).2.length :=
        Nat.le_trans hn (List.dropWhile_sublist _).length_le
      have hcs : n ≤ cs.length := by
        have := congrArg List.length (readSign_append cs)
        rw [List.length_append] at this
        omega
      obtain ⟨ht, hd⟩ := takeWhile_regrow hf isDigit_of_isDelimiter hn
      rw [regrow_cons marker hcs]
      simp only [Exponent.read?, readSign_regrow hf hsign, ht, hd]
      rw [if_pos hx]
    · cases h

theorem Exponent.read?_eq_none (h : ∀ c ds, cs = c :: ds → isNamePart c = false) :
    Exponent.read? cs = none := by
  cases cs with
  | nil => rfl
  | cons marker cs =>
    have hmarker := h marker cs rfl
    have he : ¬(marker = 'e' ∨ marker = 'E') := by
      rintro (rfl | rfl)
      · exact absurd hmarker (by decide)
      · exact absurd hmarker (by decide)
    simp only [Exponent.read?]
    rw [if_neg fun hx => he hx.1]

/-- A numeral that no name goes on with is scanned in the same way. -/
theorem Numeral.scan_regrow (hf : Delimits follow)
    (hs : ∀ c ds, (Numeral.scan cs).2 = c :: ds → isNamePart c = false)
    (hn : n ≤ (Numeral.scan cs).2.length) :
    Numeral.scan (regrow n follow cs) =
      ((Numeral.scan cs).1, regrow n follow (Numeral.scan cs).2) := by
  have hfraction : (readFraction (cs.dropWhile Char.isDigit)).2.length ≤
      (cs.dropWhile Char.isDigit).length := by
    have := congrArg List.length (readFraction_append (cs.dropWhile Char.isDigit))
    rw [List.length_append] at this
    omega
  cases hx : Exponent.read? (readFraction (cs.dropWhile Char.isDigit)).2 with
  | some r =>
    obtain ⟨x, rest⟩ := r
    have hscan : Numeral.scan cs = (⟨cs.takeWhile Char.isDigit,
        (readFraction (cs.dropWhile Char.isDigit)).1, some x⟩, rest) := by
      simp only [Numeral.scan, hx]
    have hrest : rest.length ≤ (readFraction (cs.dropWhile Char.isDigit)).2.length := by
      have := congrArg List.length (Exponent.spelling_append_of_read? hx)
      rw [List.length_append] at this
      omega
    rw [hscan] at hn ⊢
    have hread : n ≤ (readFraction (cs.dropWhile Char.isDigit)).2.length := Nat.le_trans hn hrest
    obtain ⟨ht, hd⟩ :=
      takeWhile_regrow hf isDigit_of_isDelimiter (Nat.le_trans hread hfraction)
    simp only [Numeral.scan, ht, hd, readFraction_regrow hf hread, Exponent.read?_regrow hf hx hn]
  | none =>
    have hscan : Numeral.scan cs = (⟨cs.takeWhile Char.isDigit,
        (readFraction (cs.dropWhile Char.isDigit)).1, none⟩,
        (readFraction (cs.dropWhile Char.isDigit)).2) := by
      simp only [Numeral.scan, hx]
    rw [hscan] at hs hn ⊢
    obtain ⟨ht, hd⟩ := takeWhile_regrow hf isDigit_of_isDelimiter (Nat.le_trans hn hfraction)
    have hnone := Exponent.read?_eq_none (stops_regrow (n := n) hf isNamePart_of_isDelimiter hs)
    simp only [Numeral.scan, ht, hd, readFraction_regrow hf hn, hnone]

end Number

namespace Cursor

variable {n shift : Nat} {follow : List Char} {c d : Cursor}

theorem two_le_length_spelling_scan (hd : c.next.nextIs Char.isDigit = true)
    (hdot : c.nextIs (· == '.') = true) :
    2 ≤ (Number.Numeral.scan c.rest).1.spelling.length := by
  obtain ⟨a, rest, hr, ha⟩ := Lexeme.nextIs_iff.1 hdot
  obtain ⟨d, ds, hds, hdigit⟩ := Lexeme.nextIs_iff.1 hd
  rw [rest_next hr] at hds
  obtain rfl := eq_of_beq ha
  simp [Number.Numeral.spelling, hr, hds, Number.readFraction, hdigit]

theorem readNumber_regrown (hf : Delimits follow) :
    Keeps n shift follow c.readNumber (c.regrown n shift follow).readNumber := by
  intro l d h hn
  simp only [readNumber] at h
  split at h
  · cases h
  · next hend =>
    have hstops := nextIs_eq_false_iff.1 (Bool.eq_false_iff.2 hend)
    have hlength : n ≤ (Number.Numeral.scan c.rest).2.length := by
      split at h <;> cases h <;> exact hn
    have hend' : nextIs isNamePart ⟨regrow n follow (Number.Numeral.scan c.rest).2,
        c.offset + shift + byteLength (Number.Numeral.scan c.rest).1.spelling⟩ = false :=
      nextIs_eq_false_iff.2 (stops_regrow hf isNamePart_of_isDelimiter hstops)
    simp only [readNumber, rest_regrown, offset_regrown,
      Number.Numeral.scan_regrow hf hstops hlength, hend', Bool.false_eq_true, if_false]
    rw [Nat.add_right_comm]
    split at h <;> cases h <;> rfl

end Cursor

namespace Lexeme

open Cursor (Keeps)

variable {n shift : Nat} {follow : List Char} {c d : Cursor} {lexeme : Lexeme}

theorem readKeyName_regrown (hf : Delimits follow) :
    Keeps n shift follow (readKeyName c) (readKeyName (c.regrown n shift follow)) := by
  refine .of_ends fun name d h hn => ?_
  obtain ⟨s, hs, hl⟩ := leads_of_readKeyName h
  have hlt : n < c.rest.length := Nat.lt_of_le_of_lt hn (hl.length_lt hs)
  have htext {q : Char} (hq : c.nextIs (· == q) = true) :
      Keeps n shift follow (c.readText q) ((c.regrown n shift follow).readText q) :=
    Cursor.readText_regrown (Cursor.rest_ne_nil_of_nextIs hq)
  unfold readKeyName
  simp only [Cursor.nextIs_regrown_of_lt hlt]
  refine .ite (fun _ => ?name) fun _ => .ite (fun hq => (htext hq).mapError _) fun _ =>
    .ite (fun hq => (htext hq).mapError _) fun _ => .guarded fun _ _ hd _ _ => ⟨hd, ?number⟩
  case name =>
    intro name d h hn
    cases h
    rw [Cursor.readName_regrown hf hn]
  case number =>
    intro name d h hn
    cases hr : c.readNumber with
    | error fault => rw [hr] at h; cases h
    | ok r =>
      obtain ⟨l, e⟩ := r
      rw [hr] at h
      cases l <;> cases h <;> rw [Cursor.readNumber_regrown hf hr hn]

theorem readKeyName_within {name : String} (hf : Delimits follow)
    (h : readKeyName c = .ok (name, d)) :
    readKeyName (c.within shift follow) = .ok (name, d.within shift follow) := by
  have hkeeps : readKeyName (c.regrown 0 shift follow) = .ok (name, d.regrown 0 shift follow) :=
    readKeyName_regrown hf h (Nat.zero_le _)
  rwa [Cursor.regrown_zero, Cursor.regrown_zero] at hkeeps

theorem readKey_regrown (hf : Delimits follow) :
    Keeps n shift follow (readKey c) (readKey (c.regrown n shift follow)) := by
  unfold readKey
  cases hname : readKeyName c with
  | error fault => exact .error fault
  | ok r =>
    obtain ⟨name, e⟩ := r
    intro lexeme d h hn
    dsimp only at h
    split at h
    · next hcolon =>
      cases h
      have hblanks : n < e.skipBlanks.rest.length := by
        rw [Cursor.length_rest_next (Cursor.rest_ne_nil_of_nextIs hcolon)]
        omega
      obtain ⟨s, hs⟩ := Cursor.leads_skipBlanks e
      have hlength := hs.length_le
      rw [readKeyName_regrown hf hname (by omega)]
      dsimp only
      rw [Cursor.skipBlanks_regrown hblanks, Cursor.nextIs_regrown_of_lt hblanks, if_pos hcolon,
        Cursor.next_regrown hblanks]
    · cases h

theorem isPrefixOf_append_of_delimits {cs : List Char} (hf : Delimits follow) (word : List Char)
    (hc : ∀ c ∈ cs, isDelimiter c = false) :
    cs.isPrefixOf (word ++ follow) = cs.isPrefixOf word := by
  induction cs generalizing word with
  | nil => simp
  | cons c cs ih =>
    obtain ⟨hc, hcs⟩ := List.forall_mem_cons.1 hc
    cases word with
    | cons w word => rw [List.cons_append, List.isPrefixOf, List.isPrefixOf, ih word hcs]
    | nil =>
      cases follow with
      | nil => rfl
      | cons b follow =>
        have hne : (c == b) = false :=
          beq_eq_false_iff_ne.2 (ne_of_isDelimiter (hf b follow rfl) hc).symm
        simp [List.isPrefixOf, hne]

theorem isDelimiter_symbols : ∀ cs ∈ Operator.symbols, ∀ c ∈ cs, isDelimiter c = false := by
  have hall : Operator.symbols.all (·.all fun c => !isDelimiter c) = true := by decide
  simpa using hall

theorem find?_symbols_regrow {text symbol : List Char} (hf : Delimits follow)
    (h : Operator.symbols.find? (·.isPrefixOf text) = some symbol)
    (hn : n + symbol.length ≤ text.length) :
    Operator.symbols.find? (·.isPrefixOf (regrow n follow text)) = some symbol := by
  have hsymbol : symbol.isPrefixOf (regrow n follow text) = true := by
    have hprefix : symbol.isPrefixOf text = true := by simpa using List.find?_some h
    obtain ⟨rest, rfl⟩ := List.isPrefixOf_iff_prefix.1 hprefix
    rw [List.length_append] at hn
    rw [regrow_append symbol (by omega)]
    exact List.isPrefixOf_iff_prefix.2 (List.prefix_append _ _)
  have hkept {cs : List Char} (hcs : ∀ c ∈ cs, isDelimiter c = false)
      (hp : cs.isPrefixOf (regrow n follow text) = true) : cs.isPrefixOf text = true := by
    rw [regrow, isPrefixOf_append_of_delimits hf _ hcs] at hp
    exact List.isPrefixOf_iff_prefix.2
      ((List.isPrefixOf_iff_prefix.1 hp).trans (List.take_prefix _ _))
  have hall := isDelimiter_symbols
  generalize Operator.symbols = symbols at hall h
  induction symbols with
  | nil => cases h
  | cons cs symbols ih =>
    obtain ⟨hcs, hrest⟩ := List.forall_mem_cons.1 hall
    rw [List.find?_cons] at h ⊢
    cases hp : cs.isPrefixOf text with
    | true =>
      rw [hp] at h
      cases h
      rw [hsymbol]
    | false =>
      have hnot : cs.isPrefixOf (regrow n follow text) = false :=
        Bool.eq_false_iff.2 fun hp' => Bool.false_ne_true (hp.symm.trans (hkept hcs hp'))
      rw [hp] at h
      rw [hnot]
      exact ih hrest h

theorem length_of_question {symbol : List Char} (h : symbol ∈ Operator.symbols)
    (hq : symbol.head? = some '?') : symbol.length = 2 := by
  have hall : ∀ cs ∈ Operator.symbols, cs.head? = some '?' → cs.length = 2 := by decide
  exact hall symbol h hq

theorem readMark_regrown {ch : Char} {rest : List Char} (hf : Delimits follow)
    (hr : c.rest = ch :: rest) :
    Keeps n shift follow
      (if ch = '?' ∧ c.next.nextIs (· == '?') = false then .ok (question, c.next)
        else match Operator.symbols.find? (·.isPrefixOf c.rest) with
          | some cs => .ok (symbol cs, c.skip cs.length)
          | none => .error (LexicalFault.unexpectedCharacter ch c.offset))
      (if ch = '?' ∧ (c.next.regrown n shift follow).nextIs (· == '?') = false then
          .ok (question, c.next.regrown n shift follow)
        else match Operator.symbols.find? (·.isPrefixOf (regrow n follow c.rest)) with
          | some cs => .ok (symbol cs, (c.regrown n shift follow).skip cs.length)
          | none => .error (.unexpectedCharacter ch (c.regrown n shift follow).offset)) := by
  by_cases hq : ch = '?' ∧ c.next.nextIs (· == '?') = false
  · have hq' : ch = '?' ∧ (c.next.regrown n shift follow).nextIs (· == '?') = false :=
      ⟨hq.1, Cursor.nextIs_regrown_of_false hf (beq_of_isDelimiter (by decide)) hq.2⟩
    rw [if_pos hq, if_pos hq']
    exact .ok _ _
  · rw [if_neg hq]
    cases hfind : Operator.symbols.find? (·.isPrefixOf c.rest) with
    | none => exact .error _
    | some cs =>
      rintro _ _ ⟨⟩ hn
      have hprefix : cs.isPrefixOf c.rest = true := by simpa using List.find?_some hfind
      have hlength : n + cs.length ≤ c.rest.length := by
        have := (List.isPrefixOf_iff_prefix.1 hprefix).length_le
        rw [Cursor.rest_skip, List.length_drop] at hn
        omega
      -- behind a question mark the other one of its symbol is kept
      have hq' : ¬(ch = '?' ∧ (c.next.regrown n shift follow).nextIs (· == '?') = false) := by
        rintro ⟨rfl, hnext⟩
        have htwo : cs.length = 2 := by
          refine length_of_question (List.mem_of_find?_eq_some hfind) ?_
          obtain ⟨s, hs⟩ := List.isPrefixOf_iff_prefix.1 hprefix
          obtain ⟨a, cs, rfl⟩ :=
            List.exists_cons_of_ne_nil (symbols_ne_nil (List.mem_of_find?_eq_some hfind))
          rw [hr] at hs
          cases hs
          rfl
        have hne : c.rest ≠ [] := by rw [hr]; exact List.cons_ne_nil _ _
        rw [Cursor.length_rest_next hne] at hlength
        rw [Cursor.nextIs_regrown_of_lt (by omega)] at hnext
        exact hq ⟨rfl, hnext⟩
      rw [if_neg hq', find?_symbols_regrow hf hfind hlength]
      dsimp only
      rw [Cursor.skip_regrown hlength]

theorem readAt_regrown {operandExpected : Bool} {ch : Char} {rest : List Char}
    (hf : Delimits follow) (hr : c.rest = ch :: rest) :
    Keeps n shift follow (readAt operandExpected ch c)
      (readAt operandExpected ch (c.regrown n shift follow)) := by
  refine .of_ends fun lexeme d h hn => ?_
  obtain ⟨s, hs, hl⟩ := leads_of_readAt hr h
  have hlt : n < c.rest.length := Nat.lt_of_le_of_lt hn (hl.length_lt hs)
  have hne : c.rest ≠ [] := by rw [hr]; exact List.cons_ne_nil ch rest
  have htext : Keeps n shift follow (c.readText ch) ((c.regrown n shift follow).readText ch) :=
    Cursor.readText_regrown hne
  have hnumber : Keeps n shift follow c.readNumber (c.regrown n shift follow).readNumber :=
    Cursor.readNumber_regrown hf
  have hpath {e : Cursor} :
      Keeps n shift follow e.readPath (e.regrown n shift follow).readPath :=
    Cursor.readPath_regrown hf
  have hnext : (c.regrown n shift follow).next = c.next.regrown n shift follow :=
    Cursor.next_regrown hlt
  unfold readAt
  rw [hnext, Cursor.rest_regrown]
  refine .ite (fun _ => htext.map fun text => operand (.of (.string text))) fun _ =>
    .ite (fun _ => hnumber.map fun l => operand (.of l)) fun _ =>
      .ite (fun hdot => .ite (fun _ => ?point) fun _ => ?dot) fun _ =>
        .ite (fun _ => ?aliased) fun _ => .ite (fun _ => hpath.map ofPath) fun _ => ?mark
  case point =>
    refine .guarded fun l e hd hread hn => ⟨?_, hnumber.map fun l => operand (.of l)⟩
    obtain ⟨⟨l, e⟩, hl, heq⟩ := map_eq_ok_iff.1 hread
    cases heq
    have hlength := (Cursor.leads_of_readNumber hl).length_eq
    have hstart : c.nextIs (· == '.') = true := nextIs_iff.2 ⟨ch, rest, hr, beq_iff_eq.2 hdot⟩
    have hspelling := Cursor.two_le_length_spelling_scan hd hstart
    rw [Cursor.length_rest_next hne] at hlength
    rw [Cursor.nextIs_regrown_of_lt (by omega), hd]
  case dot =>
    refine .guarded fun names e hs hread hn => ?_
    obtain ⟨⟨names, e⟩, he, heq⟩ := map_eq_ok_iff.1 hread
    cases heq
    obtain ⟨s, hne, hl⟩ := Cursor.leads_of_readPath hs he
    have hblanks : n < c.next.skipBlanks.rest.length := Nat.lt_of_le_of_lt hn (hl.length_lt hne)
    rw [Cursor.skipBlanks_regrown hblanks, Cursor.nextIs_regrown_of_lt hblanks]
    exact ⟨hs, hpath.map members⟩
  case aliased =>
    refine .guarded fun names e hs hread hn =>
      ⟨?_, hpath.map fun names => operand (.of (.identifier ("@" ++ ".".intercalate names)))⟩
    obtain ⟨⟨names, e⟩, he, heq⟩ := map_eq_ok_iff.1 hread
    cases heq
    obtain ⟨s, hne, hl⟩ := Cursor.leads_of_readPath hs he
    have hpast : n < c.next.rest.length := Nat.lt_of_le_of_lt hn (hl.length_lt hne)
    rw [Cursor.nextIs_regrown_of_lt hpast, hs]
  case mark =>
    cases hp : punctuation? ch with
    | some lexeme => exact .ok _ _
    | none => exact readMark_regrown hf hr

theorem read?_eq_none_iff {expected : Expected} :
    read? expected c = .ok none ↔ expected ≠ .key ∧ c.rest = [] := by
  refine ⟨fun h => ?_, fun h => read?_end h.1 h.2⟩
  unfold read? at h
  split at h
  · obtain ⟨r, -, heq⟩ := map_eq_ok_iff.1 h
    cases heq
  · next hk =>
    cases hr : c.rest with
    | nil => exact ⟨fun he => hk ⟨he, by simp [Cursor.nextIs, hr]⟩, rfl⟩
    | cons ch rest =>
      rw [hr] at h
      obtain ⟨r, -, heq⟩ := map_eq_ok_iff.1 h
      cases heq

/-- A lexeme is read in the same way where the text behind it goes on otherwise. -/
theorem read?_regrown {expected : Expected} (hf : Delimits follow)
    (h : read? expected c = .ok (some (lexeme, d))) (hn : n ≤ d.rest.length) :
    read? expected (c.regrown n shift follow) = .ok (some (lexeme, d.regrown n shift follow)) := by
  obtain ⟨s, hs, hl⟩ := leads_of_read? h
  have hlt : n < c.rest.length := Nat.lt_of_le_of_lt hn (hl.length_lt hs)
  obtain ⟨ch, rest, hr, hrest⟩ := Cursor.exists_rest_of_lt hlt
  unfold read? at h ⊢
  rw [Cursor.nextIs_regrown_of_lt hlt]
  split at h
  · next hk =>
    obtain ⟨r, hr', heq⟩ := map_eq_ok_iff.1 h
    cases heq
    rw [if_pos hk, readKey_regrown hf hr' hn]
    rfl
  · next hk =>
    rw [hr] at h
    obtain ⟨r, hread, heq⟩ := map_eq_ok_iff.1 h
    cases heq
    rw [if_neg hk]
    simp only [Cursor.rest_regrown, hr, regrow_cons ch hrest]
    rw [readAt_regrown hf hr (mapError_eq_ok_iff.1 hread) hn, mapError_ok]
    rfl

theorem read?_within {expected : Expected} (hf : Delimits follow)
    (h : read? expected c = .ok (some (lexeme, d))) :
    read? expected (c.within shift follow) = .ok (some (lexeme, d.within shift follow)) := by
  have hkeeps : read? expected (c.regrown 0 shift follow) =
      .ok (some (lexeme, d.regrown 0 shift follow)) := read?_regrown hf h (Nat.zero_le _)
  rwa [Cursor.regrown_zero, Cursor.regrown_zero] at hkeeps

end Lexeme

end TemplateBinding
