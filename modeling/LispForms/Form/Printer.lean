import LispForms.Form
import LispForms.Text.Quoted

/-! The printed text of a form. Strings are written with escapes unless they are printed
for reading by people; the elements of a list never are. -/

namespace LispForms

/-- How strings are printed: bare, between quotes, or between quotes with escapes. -/
structure Style where
  humanReadable : Bool
  printReadably : Bool
  deriving DecidableEq, Repr

namespace Style

def standard : Style := ⟨false, true⟩
def human : Style := ⟨true, true⟩

/-- The style for the elements of a list. -/
def forItems (s : Style) : Style := { s with humanReadable := false }

end Style

namespace Form

/-! ### Strings -/

/-- The letter after the backslash for a character that is not written as itself. -/
def escapeLetter : Char → Option Char
  | '\\' => some '\\'
  | '"' => some '"'
  | '\t' => some 't'
  | '\r' => some 'r'
  | '\n' => some 'n'
  | _ => none

def escapedChar (c : Char) : List Char :=
  match escapeLetter c with
  | some l => ['\\', l]
  | none => [c]

def escaped (cs : List Char) : List Char := cs.flatMap escapedChar

def printText (style : Style) (s : String) : String :=
  if style.humanReadable then s
  else
    let body := if style.printReadably then escaped s.toList else s.toList
    String.ofList ('"' :: body ++ ['"'])

/-! ### Numbers -/

/-- Floating-point numbers have the fewest digits that identify them: positional for decimal
exponents from -4 to 15, otherwise with a signed exponent of at least two digits. -/
def floats : Number.Layout where
  plainFrom := -4
  plainBelow := 16
  exponentWidth := 2
  infinite := "Infinity"
  undefined := "NaN"

/-! ### Forms -/

/-- The spelled name of a type, or its own where none was spelled. -/
def named (type : Host.Ref) (name : String) : String := if name = "" then type.title else name

mutual

def print (style : Style) : Form → String
  | nil => "null"
  | bool b => if b then "True" else "False"
  | integer n => n.repr
  | ratio num den => num.repr ++ "/" ++ den.repr
  | float x => floats.render x
  | text s => printText style s
  | symbol x => x.print
  | space n => n.name
  | var v => v.print
  | pair ns name => "(" ++ Text.quoted ns ++ ", " ++ Text.quoted name ++ ")"
  | list items _ => "(" ++ " ".intercalate (printItems style.forItems items) ++ ")"
  | accessor member => "." ++ member
  | className type name => named type name ++ "."
  | instanceMember type member name => "." ++ named type name ++ "." ++ member
  | staticMember type member name => named type name ++ "." ++ member

def printItems (style : Style) : List Form → List String
  | [] => []
  | x :: xs => print style x :: printItems style xs

end

end Form
end LispForms
