import TemplateBinding.Text.Blank

set_option autoImplicit false

namespace TemplateBinding

def byteLength : List Char → Nat
  | [] => 0
  | c :: cs => c.utf8Size + byteLength cs

@[simp] theorem byteLength_append (s t : List Char) :
    byteLength (s ++ t) = byteLength s + byteLength t := by
  induction s with
  | nil => simp [byteLength]
  | cons c s ih => simp [byteLength, ih, Nat.add_assoc]

structure Cursor where
  rest : List Char
  offset : Nat

namespace Cursor

def start (source : String) : Cursor := ⟨source.toList, 0⟩

def next (c : Cursor) : Cursor :=
  match c.rest with
  | [] => c
  | ch :: rest => ⟨rest, c.offset + ch.utf8Size⟩

def skip (c : Cursor) : Nat → Cursor
  | 0 => c
  | n + 1 => c.next.skip n

def takeWhile (p : Char → Bool) (c : Cursor) : List Char × Cursor :=
  (c.rest.takeWhile p, ⟨c.rest.dropWhile p, c.offset + byteLength (c.rest.takeWhile p)⟩)

def skipBlanks (c : Cursor) : Cursor := (c.takeWhile Text.isBlank).2

/-- Reading has led from `c` to `d`, past the text `read`. -/
def Leads (c : Cursor) (read : List Char) (d : Cursor) : Prop :=
  c.rest = read ++ d.rest ∧ d.offset = c.offset + byteLength read

theorem Leads.refl (c : Cursor) : c.Leads [] c := ⟨rfl, rfl⟩

theorem Leads.trans {c d e : Cursor} {s t : List Char} (h : c.Leads s d) (k : d.Leads t e) :
    c.Leads (s ++ t) e := by
  obtain ⟨h1, h2⟩ := h
  obtain ⟨k1, k2⟩ := k
  exact ⟨by rw [h1, k1, List.append_assoc], by rw [k2, h2, byteLength_append, Nat.add_assoc]⟩

theorem Leads.length_le {c d : Cursor} {s : List Char} (h : c.Leads s d) :
    d.rest.length ≤ c.rest.length := by
  rw [h.1, List.length_append]; omega

theorem Leads.length_lt {c d : Cursor} {s : List Char} (h : c.Leads s d) (hs : s ≠ []) :
    d.rest.length < c.rest.length := by
  have := List.length_pos_iff.2 hs
  rw [h.1, List.length_append]; omega

theorem Leads.end_eq {c d : Cursor} {s : List Char} (h : c.Leads s d) :
    d.offset + byteLength d.rest = c.offset + byteLength c.rest := by
  rw [h.1, h.2, byteLength_append, Nat.add_assoc]

theorem leads_next {c : Cursor} {ch : Char} {rest : List Char} (h : c.rest = ch :: rest) :
    c.Leads [ch] c.next := by
  simp [Leads, next, h, byteLength]

theorem leads_takeWhile (p : Char → Bool) (c : Cursor) :
    c.Leads (c.takeWhile p).1 (c.takeWhile p).2 :=
  ⟨List.takeWhile_append_dropWhile.symm, rfl⟩

theorem leads_skipBlanks (c : Cursor) : ∃ s, c.Leads s c.skipBlanks :=
  ⟨_, leads_takeWhile Text.isBlank c⟩

theorem leads_skip (c : Cursor) (n : Nat) : c.Leads (c.rest.take n) (c.skip n) := by
  induction n generalizing c with
  | zero => exact Leads.refl c
  | succ n ih =>
    cases h : c.rest with
    | nil =>
      have hn : c.next = c := by simp [next, h]
      simpa [skip, hn, h] using ih c
    | cons ch rest =>
      have hn : c.next.rest = rest := by simp [next, h]
      simpa [skip, hn] using (leads_next h).trans (ih c.next)

end Cursor

end TemplateBinding
