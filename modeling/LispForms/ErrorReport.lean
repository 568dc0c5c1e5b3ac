import LispForms.Text.Quoted

/-! Errors as they are reported: with what is known of the place and of the text that
caused them. -/

namespace LispForms

inductive ErrorKind where
  | malformed
  | unexpectedEnd
  | unsupportedEscape
  | unsupportedCharacter
  | unmatchedDelimiter
  | invalidToken
  | hostName
  | value
  | lookup
  | zeroDivision
  deriving DecidableEq, Repr

namespace ErrorKind

def name : ErrorKind → String
  | malformed => "SyntaxError"
  | unexpectedEnd => "UnexpectedEOFError"
  | unsupportedEscape => "UnsupportedEscapeError"
  | unsupportedCharacter => "UnsupportedCharacterNameError"
  | unmatchedDelimiter => "UnmatchedDelimiterError"
  | invalidToken => "InvalidSyntaxError"
  | hostName => "HostNameResolutionError"
  | value => "ValueError"
  | lookup => "LookupError"
  | zeroDivision => "ZeroDivisionError"

/-- Errors in a text, as opposed to errors of any other origin. -/
def isOfText : ErrorKind → Bool
  | hostName | value | lookup | zeroDivision => false
  | _ => true

/-- The name with the part of the program that the kind belongs to. -/
def fullName (k : ErrorKind) : String :=
  if k.isOfText then "lispreader.lang.reader." ++ k.name
  else if k = hostName then "lispreader.lang.runtime." ++ k.name
  else k.name

end ErrorKind

structure ErrorReport where
  kind : ErrorKind
  message : String
  line : Option Int
  col : Option Int
  file : Option String
  token : Option String
  deriving DecidableEq, Repr

namespace ErrorReport

/-- An error of which only the message is known. -/
def ofMessage (kind : ErrorKind) (message : String) : ErrorReport :=
  ⟨kind, message, none, none, none, none⟩

/-- Line and column are told together or not at all. -/
def details (e : ErrorReport) : List String :=
  let file := match e.file with
    | some f => ["file: " ++ f]
    | none => []
  let place := match e.line, e.col with
    | some l, some c => ["line: " ++ l.repr, "col: " ++ c.repr]
    | _, _ => []
  file ++ place

/-- The error in one line, unless its message takes more. -/
def text (e : ErrorReport) : String :=
  if e.kind.isOfText && !e.details.isEmpty then
    e.message ++ " (" ++ ", ".intercalate e.details ++ ")"
  else e.message

/-- The error as its constructor would be written. -/
def constructorText (e : ErrorReport) : String :=
  if e.kind.isOfText then
    let number (n : Option Int) : String := (n.map Int.repr).getD "None"
    e.kind.fullName ++ "(" ++ e.message ++ ", " ++ number e.line ++ ", " ++ number e.col
      ++ ", filename=" ++ e.file.getD "None" ++ ")"
  else e.kind.name ++ "(" ++ Text.quoted e.message ++ ")"

def className (k : ErrorKind) : String := "<class '" ++ k.fullName ++ "'>"

/-- The place in the form of line and column, as far as the line is known. -/
def place (e : ErrorReport) : Option String :=
  e.line.map fun l => match e.col with
    | some c => l.repr ++ ":" ++ c.repr
    | none => l.repr

/-- The error in full, as it stands at the end of a report. -/
def finalLine (e : ErrorReport) : String :=
  if e.text = "" then e.kind.fullName ++ "\n" else e.kind.fullName ++ ": " ++ e.text ++ "\n"

/-- What stands between a cause and the error that goes back to it. -/
def causeNote : String :=
  "\nThe above exception was the direct cause of the following exception:\n\n"

/-- The report on an error in a text, line by line. -/
def linesOfText (e : ErrorReport) (cause : Option ErrorReport) : List String :=
  let (origin, detail) := match cause with
    | some c => (className c.kind ++ " from ", ": " ++ c.text)
    | none => ("", "")
  let location := match e.file, e.place with
    | some f, p => ["   location: " ++ f ++ ":" ++ p.getD "NO_SOURCE_LINE" ++ "\n"]
    | none, some p => ["       line: " ++ p ++ "\n"]
    | none, none => []
  let token := match e.token with
    | some t => ["      token: " ++ Text.quoted t ++ "\n"]
    | none => []
  ["\n", "  exception: " ++ origin ++ className e.kind ++ "\n",
   "    message: " ++ e.message ++ detail ++ "\n"] ++ location ++ token

/-- The report on an error, line by line. The causes lead from the nearest to the first one; an
error in a text is reported with the nearest, any other with all, the first one in front. -/
def lines (e : ErrorReport) (causes : List ErrorReport) : List String :=
  if e.kind.isOfText then e.linesOfText causes.head?
  else causes.reverse.flatMap (fun c => [c.finalLine, causeNote]) ++ [e.finalLine]

/-- The report where there is no error. -/
def noError : List String := ["NoneType: None\n"]

/-- A report as it is printed: its lines, and a line break to end it. -/
def printed (lines : List String) : String := "".intercalate lines ++ "\n"

end ErrorReport
end LispForms
