import LispForms.Text.Blank

/-! Places in a text: lines and columns, counted by characters read. -/

namespace LispForms

/-- What one read of a text yields: a single character, or nothing at the end of the text.
A client may push back any piece, even one of several characters. -/
abbrev Piece := List Char

/-- What the last piece means for the line count. -/
inductive LineBreak where
  | none
  | cr
  | lf
  deriving DecidableEq, Repr

def LineBreak.of (p : Piece) : LineBreak :=
  if p = ['\n'] then .lf else if p = ['\r'] then .cr else .none

/-- The place of the last piece read. -/
structure Mark where
  line : Int
  col : Int
  after : LineBreak
  deriving DecidableEq, Repr

namespace Mark

/-- The place before anything is read; columns count from one, so it is in column zero. -/
def initial (line col : Option Int) : Mark := ⟨line.getD 1, col.getD 0, .none⟩

/-- A carriage return ends its line unless a line feed follows. -/
def breaksBefore (m : Mark) (p : Piece) : Bool :=
  m.after == .lf || (m.after == .cr && p != ['\n'])

/-- The place of the next piece. The end of the text takes a column like a character. -/
def next (m : Mark) (p : Piece) : Mark :=
  if m.breaksBefore p then ⟨m.line + 1, 1, .of p⟩ else ⟨m.line, m.col + 1, .of p⟩

end Mark

/-- Where a list stands in its text. A client may set any part of it. -/
structure Span where
  line : Option Int
  col : Option Int
  endLine : Option Int
  endCol : Option Int
  deriving DecidableEq, Repr

/-- From the opening mark to the closing one. -/
def Span.between (first last : Mark) : Span :=
  ⟨some first.line, some first.col, some last.line, some last.col⟩

end LispForms
