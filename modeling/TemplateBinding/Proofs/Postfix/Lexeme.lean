import TemplateBinding.Proofs.Postfix.Construct
import TemplateBinding.Proofs.Source.Path

set_option autoImplicit false

namespace TemplateBinding

inductive Token.IsOperand : Token → Prop
  | literal {l : Lexical} {v : Value} : l.value? = some v → Token.IsOperand ⟨l, 0⟩
  | identifier {path : String} {root : Root} {segments : List String} :
      splitIdentifier path = .ok (root, segments) →
        Token.IsOperand ⟨.identifier path, referenceArity⟩

theorem Token.isOperand_of_value? {l : Lexical} {v : Value} (h : l.value? = some v) :
    (Token.of l).IsOperand := by
  have hl := IsOperand.literal h
  cases l <;> first | exact hl | cases h

namespace Lexeme

/-- What can be read where `expected` comes next. -/
def Suits (expected : Expected) : Lexeme → Prop
  | .operand token => expected ≠ .key ∧ token.IsOperand
  | .members names => expected = .operator ∧ ∀ name ∈ names, '.' ∉ name.toList
  | .key _ => expected = .key
  | .closing bracket => expected = .key → bracket = .curly
  | .opening _ | .comma | .colon | .question | .symbol _ => expected ≠ .key

theorem suits_ofPath {expected : Expected} {path : List String} (he : expected ≠ .key)
    (hp : path ≠ []) (hn : ∀ name ∈ path, IsName name) : (ofPath path).Suits expected := by
  unfold ofPath
  split
  · exact ⟨he, Token.isOperand_of_value? rfl⟩
  · exact ⟨he, Token.isOperand_of_value? rfl⟩
  · exact ⟨he, Token.isOperand_of_value? rfl⟩
  · exact ⟨he, Token.isOperand_of_value? rfl⟩
  · exact ⟨he, Token.IsOperand.identifier (splitIdentifier_intercalate hp hn)⟩

theorem isOperand_of_readNumber {l : Lexical} {c d : Cursor} (h : c.readNumber = .ok (l, d)) :
    (Token.of l).IsOperand := by
  simp only [Cursor.readNumber] at h
  split at h
  · cases h
  · split at h
    · obtain ⟨rfl, -⟩ := Prod.mk.inj (Except.ok.inj h)
      exact Token.isOperand_of_value? rfl
    · obtain ⟨rfl, -⟩ := Prod.mk.inj (Except.ok.inj h)
      exact Token.isOperand_of_value? rfl

theorem suits_of_punctuation? {ch : Char} {lexeme : Lexeme} {expected : Expected}
    (he : expected ≠ .key) (h : punctuation? ch = some lexeme) : lexeme.Suits expected := by
  unfold punctuation? at h
  split at h <;> cases h <;> first | exact he | exact fun h => absurd h he

theorem suits_of_readAt {expected : Expected} {ch : Char} {lexeme : Lexeme} {c d : Cursor}
    {rest : List Char} (hr : c.rest = ch :: rest) (he : expected ≠ .key)
    (h : readAt (expected != .operator) ch c = .ok (lexeme, d)) : lexeme.Suits expected := by
  cases readsAt_of_readAt hr h with
  | text => exact ⟨he, Token.isOperand_of_value? rfl⟩
  | number _ hread => exact ⟨he, isOperand_of_readNumber hread⟩
  | members hop hs hp =>
    have hn := (Cursor.isName_of_readPath hs hp).2
    exact ⟨by simpa using hop, fun name hm => (hn name hm).dot_not_mem⟩
  | @aliased names _ hs hp =>
    obtain ⟨hne, hn⟩ := Cursor.isName_of_readPath hs hp
    cases names with
    | nil => exact absurd rfl hne
    | cons name names => exact ⟨he, Token.IsOperand.identifier (splitIdentifier_alias hn)⟩
  | path hs hp =>
    obtain ⟨hne, hn⟩ := Cursor.isName_of_readPath hs hp
    exact suits_ofPath he hne hn
  | punctuation hp => exact suits_of_punctuation? he hp
  | question | symbol => exact he

theorem suits_of_readKey {lexeme : Lexeme} {c d : Cursor} (h : readKey c = .ok (lexeme, d)) :
    lexeme.Suits .key := by
  unfold readKey at h
  split at h
  · cases h
  · split at h
    · obtain ⟨rfl, -⟩ := Prod.mk.inj (Except.ok.inj h)
      rfl
    · cases h

theorem suits_of_read? {expected : Expected} {lexeme : Lexeme} {c d : Cursor}
    (h : read? expected c = .ok (some (lexeme, d))) : lexeme.Suits expected := by
  unfold read? at h
  split at h
  · next hk =>
    obtain ⟨_, he, heq⟩ := map_eq_ok_iff.1 h
    obtain rfl := Option.some.inj heq
    exact hk.1 ▸ suits_of_readKey he
  · next hk =>
    split at h
    · cases h
    · next ch rest hr =>
      obtain ⟨_, he, heq⟩ := map_eq_ok_iff.1 h
      obtain rfl := Option.some.inj heq
      have he := mapError_eq_ok_iff.1 he
      by_cases hkey : expected = .key
      · -- the end of the object is all that stands for a key
        subst hkey
        have hch : ch = '\x7d' := by simpa [Cursor.nextIs, hr] using hk
        subst hch
        obtain ⟨rfl, -⟩ := Prod.mk.inj (Except.ok.inj he)
        exact fun _ => rfl
      · exact suits_of_readAt hr hkey he

end Lexeme

end TemplateBinding
