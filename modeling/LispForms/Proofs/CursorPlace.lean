import LispForms.Proofs.Spans
import Mathlib.Data.Prod.Lex

/-! Places by the number of characters. However a client reads a text and pushes back what it has
just read, its place depends only on how many characters it has taken: the line goes up with each
line that has ended in front of the last of them, and the column counts from the end of that
line. -/

namespace LispForms

/-! ### Lines -/

namespace Text

/-- Whether a line ends with the character at an index: with a line feed, and with a carriage return
unless a line feed follows. -/
def endsLineAt (text : List Char) (i : ℕ) : Bool :=
  text[i]? == some '\n' || text[i]? == some '\r' && text[i + 1]? != some '\n'

/-- The indices of the characters in front of the last of `k` with which a line ends. -/
def lineEnds (text : List Char) (k : ℕ) : List ℕ := (List.range (k - 1)).filter (endsLineAt text)

/-- The line of the last of `k` characters of a text that begins in a line. -/
def lineOf (text : List Char) (line : Int) (k : ℕ) : Int := line + (lineEnds text k).length

/-- The column of the last of `k` characters of a text that begins behind a column. -/
def columnOf (text : List Char) (col : Int) (k : ℕ) : Int :=
  match (lineEnds text k).getLast? with
  | none => col + k
  | some i => k - (i + 1 : ℕ)

def placeOf (text : List Char) (line col : Int) (k : ℕ) : Int × Int :=
  (lineOf text line k, columnOf text col k)

variable {text : List Char} {line col : Int} {k : ℕ}

theorem lineEnds_of_endsLineAt (h : endsLineAt text k = true) :
    lineEnds text (k + 2) = lineEnds text (k + 1) ++ [k] := by
  simp [lineEnds, List.range_succ, h]

theorem lineEnds_of_not_endsLineAt (h : endsLineAt text k = false) :
    lineEnds text (k + 2) = lineEnds text (k + 1) := by
  simp [lineEnds, List.range_succ, h]

theorem lineOf_of_endsLineAt (h : endsLineAt text k = true) :
    lineOf text line (k + 2) = lineOf text line (k + 1) + 1 := by
  simp [lineOf, lineEnds_of_endsLineAt h, Int.add_assoc]

theorem columnOf_of_endsLineAt (h : endsLineAt text k = true) : columnOf text col (k + 2) = 1 := by
  simp only [columnOf, lineEnds_of_endsLineAt h, List.getLast?_concat]
  omega

theorem lineOf_of_not_endsLineAt (h : endsLineAt text k = false) :
    lineOf text line (k + 2) = lineOf text line (k + 1) := by
  rw [lineOf, lineOf, lineEnds_of_not_endsLineAt h]

theorem columnOf_of_not_endsLineAt (h : endsLineAt text k = false) :
    columnOf text col (k + 2) = columnOf text col (k + 1) + 1 := by
  simp only [columnOf, lineEnds_of_not_endsLineAt h]
  split <;> omega

end Text

/-! ### The place behind a number of pieces -/

namespace Mark

def place (m : Mark) : Int × Int := (m.line, m.col)

/-- The place behind the first `k` pieces of a text; behind its characters only the end is read. -/
def behind (m : Mark) (text : List Char) : ℕ → Mark
  | 0 => m
  | k + 1 => (m.behind text k).next text[k]?.toList

variable {m : Mark} {text : List Char} {j k : ℕ}

theorem after_behind (m : Mark) (text : List Char) (k : ℕ) :
    (m.behind text (k + 1)).after = .of text[k]?.toList := by
  rw [behind, next]
  split <;> rfl

/-- Whether a line has ended is known from the piece that follows. -/
theorem breaksBefore_behind (h : k + 1 < text.length) :
    (m.behind text (k + 1)).breaksBefore text[k + 1]?.toList = Text.endsLineAt text k := by
  rw [breaksBefore, after_behind, Text.endsLineAt, List.getElem?_eq_getElem h,
    List.getElem?_eq_getElem (by omega : k < text.length)]
  simp only [Option.toList_some, LineBreak.of, List.cons.injEq, and_true]
  by_cases hn : text[k] = '\n'
  · simp [hn]
  · by_cases hr : text[k] = '\r' <;> simp [hn, hr, bne, Bool.beq_eq_decide_eq]

theorem place_behind_initial (line col : Option Int) (hk : k ≤ text.length) :
    ((initial line col).behind text k).place =
      Text.placeOf text (line.getD 1) (col.getD 0) k := by
  induction k with
  | zero => simp [behind, initial, place, Text.placeOf, Text.lineOf, Text.columnOf, Text.lineEnds]
  | succ k ih =>
    obtain ⟨hline, hcol⟩ := Prod.mk.inj (ih (by omega))
    cases k with
    | zero =>
      simp [behind, initial, next, breaksBefore, place, Text.placeOf, Text.lineOf, Text.columnOf,
        Text.lineEnds]
    | succ k =>
      rw [behind, next, breaksBefore_behind (by omega), Text.placeOf]
      cases h : Text.endsLineAt text k with
      | true =>
        rw [Text.lineOf_of_endsLineAt h, Text.columnOf_of_endsLineAt h]
        exact Prod.ext (congrArg (· + 1) hline) rfl
      | false =>
        rw [Text.lineOf_of_not_endsLineAt h, Text.columnOf_of_not_endsLineAt h]
        exact Prod.ext hline (congrArg (· + 1) hcol)

theorem before_behind (m : Mark) (text : List Char) (h : j < k) :
    (m.behind text j).Before (m.behind text k) := by
  induction h with
  | refl => exact (UpTo.refl _).next _
  | step _ ih => exact ih.upTo.next _

end Mark

namespace Cursor

/-! ### Clients -/

inductive Move where
  | read
  | unread
  deriving DecidableEq, Repr

/-- A client of a cursor, which pushes back nothing but the piece it has just read. -/
structure Walk where
  cursor : Cursor
  last : Piece
  /-- How many pieces are taken and not pushed back. -/
  taken : ℕ
  deriving DecidableEq, Repr

namespace Walk

def ofText (text : List Char) (line col : Option Int) : Walk := ⟨.ofText text line col, [], 0⟩

def place (s : Walk) : Int × Int := s.cursor.mark.place

/-- A push back that is refused changes nothing. -/
def step (s : Walk) : Move → Walk
  | .read => ⟨s.cursor.read.2, s.cursor.read.1, s.taken + 1⟩
  | .unread =>
    match s.cursor.unread s.last with
    | some cursor => ⟨cursor, s.last, s.taken - 1⟩
    | none => s

def run (s : Walk) (moves : List Move) : Walk := moves.foldl step s

/-- Where a client can be: before the text, behind a piece it has read, or in front of one it has
pushed back. -/
inductive Stands (text : List Char) (m : Mark) : Walk → Prop
  | fresh : Stands text m ⟨⟨text, m, .fresh⟩, [], 0⟩
  | taken (k : ℕ) : Stands text m
      ⟨⟨text.drop (k + 1), m.behind text (k + 1), .taken (m.behind text k)⟩, text[k]?.toList, k + 1⟩
  | pushed (k : ℕ) : Stands text m
      ⟨⟨text.drop (k + 1), m.behind text k, .pushed text[k]?.toList⟩, text[k]?.toList, k⟩

variable {text : List Char} {m : Mark} {s : Walk}

/-- A cursor on which nothing is pending reads the next character, or the end. -/
theorem read_drop (text : List Char) (k : ℕ) (m : Mark) {slot : Slot} (h : ∀ p, slot ≠ .pushed p) :
    (Cursor.mk (text.drop k) m slot).read =
      (text[k]?.toList, ⟨text.drop (k + 1), m.next text[k]?.toList, .taken m⟩) := by
  have hrest : text.drop (k + 1) = (text.drop k).drop 1 := by rw [List.drop_drop]
  have hfirst : text[k]? = (text.drop k).head? := List.head?_drop.symm
  rw [hrest, hfirst]
  cases slot with
  | pushed p => exact absurd rfl (h p)
  | fresh | taken => cases text.drop k <;> rfl

theorem Stands.step (h : Stands text m s) (move : Move) : Stands text m (s.step move) := by
  cases move with
  | read =>
    cases h with
    | fresh =>
      rw [Walk.step, ← List.drop_zero (l := text), read_drop text 0 m (by simp)]
      exact .taken 0
    | taken k =>
      rw [Walk.step, read_drop text (k + 1) _ (by simp)]
      exact .taken (k + 1)
    | pushed k => exact .taken k
  | unread =>
    cases h with
    | fresh => exact .fresh
    | taken k => exact .pushed k
    | pushed k => exact .pushed k

theorem Stands.run (h : Stands text m s) (moves : List Move) : Stands text m (s.run moves) := by
  induction moves generalizing s with
  | nil => exact h
  | cons move moves ih => exact ih (h.step move)

theorem Stands.mark (h : Stands text m s) : s.cursor.mark = m.behind text s.taken := by
  cases h <;> rfl

/-- The place of a client that has taken `k` characters is the one of the last of them, in whichever
way it came there, and a client that has taken more stands further on. -/
theorem place_of_taken (text : List Char) (line col : Option Int) :
    (∀ moves, let s := (ofText text line col).run moves
      s.taken ≤ text.length →
        s.place = Text.placeOf text (line.getD 1) (col.getD 0) s.taken) ∧
    ∀ moves moves', let s := (ofText text line col).run moves
      let s' := (ofText text line col).run moves'
      s.taken < s'.taken → toLex s.place < toLex s'.place := by
  have hstands (moves) : Stands text (.initial line col) ((ofText text line col).run moves) :=
    Stands.fresh.run moves
  refine ⟨fun moves hs => ?_, fun moves moves' hlt => ?_⟩
  · show place _ = _
    rw [place, (hstands moves).mark]
    exact Mark.place_behind_initial line col hs
  · show toLex (place _) < toLex (place _)
    rw [place, place, (hstands moves).mark, (hstands moves').mark, Prod.Lex.toLex_lt_toLex]
    exact Mark.before_behind _ text hlt

/-- A line feed is read behind a carriage return, pushed back and read again. -/
theorem place_of_taken_break :
    let moves := [Move.read, .read, .read, .unread, .read, .read]
    let s := (ofText ['a', '\r', '\n', 'b'] none none).run moves
    let s' := (ofText ['a', '\r', '\n', 'b'] none none).run [.read, .read]
    s.taken = 4 ∧ s.place = (2, 1) ∧ toLex s'.place < toLex s.place :=
  have h := place_of_taken ['a', '\r', '\n', 'b'] none none
  ⟨by decide, (h.1 [.read, .read, .read, .unread, .read, .read] (by decide)).trans (by decide),
    h.2 [.read, .read] [.read, .read, .read, .unread, .read, .read] (by decide)⟩

end Walk
end Cursor
end LispForms
