/-! The journal: what a reading reports about its own work, and the levels by which
entries are told apart. -/

namespace LispForms

namespace Level

def trace : Nat := 5
def debug : Nat := 10
def warning : Nat := 30

/-- The levels by name, the preferred name of a level first. -/
def table : List (String × Nat) :=
  [("CRITICAL", 50), ("FATAL", 50), ("ERROR", 40), ("WARNING", warning), ("WARN", warning),
   ("INFO", 20), ("DEBUG", debug), ("TRACE", trace), ("NOTSET", 0)]

/-- Level names are case-sensitive. -/
def named? (name : String) : Option Nat := table.lookup name

def name (level : Nat) : String :=
  match table.find? fun entry => entry.2 == level with
  | some entry => entry.1
  | none => s!"Level {level}"

/-- The level in force where `level` is set; zero leaves the choice to the surroundings, which pass
warnings. -/
def effective (level : Nat) : Nat := if level = 0 then warning else level

end Level

/-- One entry of the journal. -/
structure Note where
  level : Nat
  /-- The part of the program that reports. -/
  logger : String
  message : String
  deriving DecidableEq, Repr

namespace Note

def passes (level : Nat) (n : Note) : Bool := Level.effective level ≤ n.level

/-- An entry as a line of text. -/
def line (n : Note) : String := s!"{Level.name n.level} [{n.logger}] - {n.message}\n"

end Note
end LispForms
