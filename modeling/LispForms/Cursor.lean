import LispForms.Place

/-! Reading a text piece by piece, with one piece of pushback. -/

namespace LispForms

/-- The last operation on a cursor, as far as a push back depends on it. -/
inductive Slot where
  | fresh
  /-- A piece was read; before it the cursor stood at this place. -/
  | taken (before : Mark)
  /-- A piece was pushed back and is pending. -/
  | pushed (p : Piece)
  deriving DecidableEq, Repr

structure Cursor where
  /-- What has not been taken from the text. -/
  rest : List Char
  mark : Mark
  slot : Slot
  deriving DecidableEq, Repr

namespace Cursor

def ofText (text : List Char) (line col : Option Int) : Cursor :=
  ⟨text, .initial line col, .fresh⟩

/-- The next piece: the pending one if there is one, else a character of the text. -/
def read (c : Cursor) : Piece × Cursor :=
  match c.slot, c.rest with
  | .pushed p, rest => (p, ⟨rest, c.mark.next p, .taken c.mark⟩)
  | _, [] => ([], ⟨[], c.mark.next [], .taken c.mark⟩)
  | _, x :: xs => ([x], ⟨xs, c.mark.next [x], .taken c.mark⟩)

/-- Pushes a piece back in place of the one just read; `none` unless the last operation was a
read. -/
def unread (c : Cursor) (p : Piece) : Option Cursor :=
  match c.slot with
  | .taken before => some ⟨c.rest, before, .pushed p⟩
  | _ => none

theorem unread_eq_some_iff {c d : Cursor} {p : Piece} :
    c.unread p = some d ↔ ∃ before, c.slot = .taken before ∧ d = ⟨c.rest, before, .pushed p⟩ := by
  unfold unread
  split
  next before h => simp [h, eq_comm]
  next h => simpa using fun before e => absurd e (h before)

/-- A read can always be taken back. -/
theorem unread_read (c : Cursor) (p : Piece) :
    c.read.2.unread p = some ⟨c.read.2.rest, c.mark, .pushed p⟩ := by
  obtain ⟨rest, mark, slot⟩ := c
  cases slot <;> cases rest <;> rfl

end Cursor
end LispForms
