import LispForms.ErrorReport
import LispForms.Host
import LispForms.Place

/-! What can go wrong while a text is read. -/

namespace LispForms

/-- What the end of the text cuts off. -/
inductive Unfinished where
  | form
  | string
  | character
  deriving DecidableEq, Repr

/-- Why a text is not a sequence of forms. -/
inductive Problem where
  | unfinished (what : Unfinished)
  | escape (piece : String)
  | character (name : String)
  | delimiter (piece : String)
  | token (text : String)
  | zeroDenominator (text : String) (numerator : Int)
  | host (path : String) (reason : Host.Failure)
  deriving DecidableEq, Repr

namespace Problem

def kind : Problem → ErrorKind
  | unfinished _ => .unexpectedEnd
  | escape _ => .unsupportedEscape
  | character _ => .unsupportedCharacter
  | delimiter _ => .unmatchedDelimiter
  | token _ | zeroDenominator _ _ => .invalidToken
  | host _ _ => .malformed

def message : Problem → String
  | unfinished .form => "EOF while reading"
  | unfinished .string => "EOF while reading string"
  | unfinished .character => "EOF while reading character"
  | escape piece => "Unsupported escape character: \\" ++ piece
  | character name => "Unsupported character: \\" ++ name
  | delimiter piece => "Unmatched delimiter: " ++ piece
  | token text => "Invalid syntax: " ++ text
  | zeroDenominator text _ => "Invalid ratio format: " ++ text
  | host path _ => "Unable to resolve host name: " ++ path

/-- The text at fault. -/
def token? : Problem → Option String
  | unfinished _ => none
  | escape piece => some ("\\" ++ piece)
  | character name => some name
  | delimiter piece => some piece
  | token text => some text
  | zeroDenominator text _ => some text
  | host path _ => some path

/-- The error that the problem goes back to. -/
def cause? : Problem → Option ErrorReport
  | zeroDenominator _ numerator =>
    some (.ofMessage .zeroDivision ("Fraction(" ++ numerator.repr ++ ", 0)"))
  | host _ reason => some (.ofMessage .hostName reason.message)
  | _ => none

end Problem

/-- A problem and its place. -/
structure Misreading where
  problem : Problem
  line : Int
  col : Int
  file : Option String
  deriving DecidableEq, Repr

namespace Misreading

def report (m : Misreading) : ErrorReport :=
  ⟨m.problem.kind, m.problem.message, some m.line, some m.col, m.file, m.problem.token?⟩

/-- The report as it is printed. -/
def printed (m : Misreading) : String :=
  ErrorReport.printed (m.report.lines m.problem.cause?.toList)

end Misreading

/-- Why reading stops before the end. -/
inductive Fault where
  | misread (m : Misreading)
  /-- A whole number has too many digits to be converted. -/
  | tooManyDigits (count : Nat)
  | importing (kind : Host.ImportFailure) (name : String)
  /-- The bytes of the text encode no character. -/
  | undecodable
  /-- A piece was pushed back with no read before it. -/
  | pushback
  deriving DecidableEq, Repr

/-- The message of a fault, empty where it has none of its own. -/
def Fault.message : Fault → String
  | misread m => m.problem.message
  | tooManyDigits count =>
    s!"Exceeds the limit (4300 digits) for integer string conversion: value has {count} digits; "
      ++ "use sys.set_int_max_str_digits() to increase the limit"
  | importing kind name => (Host.Failure.importing kind name).message
  | undecodable => ""
  | pushback => "Exceeded pushback depth"

end LispForms
