import LispForms.Number.Binary64
import LispForms.Text.Blank

/-! Tokens: runs of characters up to a blank or a mark that has a meaning of its own, and
the ten classes of tokens with what each denotes. A class is tried only where those
before it do not match. -/

namespace LispForms

/-- The characters that open a string, a comment, a list and a character, and the one
that closes a list. -/
def isSpecial (c : Char) : Bool := ['"', ';', '(', ')', '\\'].contains c

namespace Token

/-! ### Shapes of tokens -/

/-- A name: no digit at its beginning, and no colon or point anywhere. -/
def isName : List Char → Bool
  | [] => false
  | c :: cs => !c.isDigit && (c :: cs).all fun x => x != ':' && x != '.'

/-- An ASCII letter or an underscore. -/
def isLetter (c : Char) : Bool := c.isAlpha || c == '_'

/-- An ASCII letter or digit, or an underscore. -/
def isWordChar (c : Char) : Bool := c.isAlphanum || c == '_'

def isIdentifier : List Char → Bool
  | [] => false
  | c :: cs => isLetter c && cs.all isWordChar

/-- A dotted path; its segments may be empty or begin with a digit, except that it begins
with a letter. -/
def isPath : List Char → Bool
  | [] => false
  | c :: cs => isLetter c && cs.all fun x => isWordChar x || x == '.'

/-- Whether a minus sign stands in front, and what follows the sign. -/
def unsign : List Char → Bool × List Char
  | '-' :: cs => (true, cs)
  | '+' :: cs => (false, cs)
  | cs => (false, cs)

/-- The digits in front, and what follows them. -/
def digits (cs : List Char) : List Char × List Char :=
  (cs.takeWhile Char.isDigit, cs.dropWhile Char.isDigit)

/-- The parts before and after the last point. -/
def splitLastPoint (cs : List Char) : Option (List Char × List Char) :=
  match cs.reverse.dropWhile (· != '.') with
  | [] => none
  | _ :: before => some (before.reverse, (cs.reverse.takeWhile (· != '.')).reverse)

/-- The exponent at the end of a floating-point token, zero if there is none. -/
def exponent? : List Char → Option Int
  | [] => some 0
  | c :: cs =>
    let (negative, cs) := unsign cs
    let (ds, rest) := digits cs
    if (c == 'e' || c == 'E') && !ds.isEmpty && rest.isEmpty then
      some (Number.signed negative (Number.ofDigits ds))
    else none

/-- The fraction digits after the whole ones, and what follows them. -/
def fraction? : List Char → Option (List Char × List Char)
  | '.' :: cs =>
    let (ds, rest) := digits cs
    if ds.isEmpty then none else some (ds, rest)
  | cs => some ([], cs)

/-- What a token denotes, its parts not yet looked up or converted. -/
inductive Meaning where
  | nil
  | symbol (name : String)
  | var (ns name : String)
  | integer (negative : Bool) (digits : List Char)
  | float (negative : Bool) (magnitude : Number.Decimal)
  | ratio (negative : Bool) (num den : List Char)
  | accessor (member : String)
  | className (path : String)
  | instanceMember (path member : String)
  | staticMember (path member : String)
  deriving DecidableEq, Repr

end Token

inductive TokenClass where
  | null
  | symbol
  | var
  | integer
  | float
  | ratio
  | accessor
  | className
  | instanceMember
  | staticMember
  deriving DecidableEq, Repr

namespace TokenClass

/-- The classes in the order in which they are tried. -/
def order : List TokenClass :=
  [null, symbol, var, integer, float, ratio, accessor, className, instanceMember, staticMember]

/-- The class as a pattern, for the journal. -/
def pattern : TokenClass → String
  | null => "null"
  | symbol => ":?[^0-9:.][^:.]*"
  | var => "([^0-9:.][^:.]*):([^0-9:.][^:.]*)"
  | integer => "([-+]?[0-9]+)\\.?"
  | float => "[-+]?[0-9]+(?:\\.[0-9]+)?(?:[eE][-+]?[0-9]+)?"
  | ratio => "([-+]?[0-9]+)/([0-9]+)"
  | accessor => "\\.([a-zA-Z_]\\w*)"
  | className => "([a-zA-Z_][\\w.]*)\\."
  | instanceMember => "\\.([a-zA-Z_][\\w.]*)\\.([a-zA-Z_]\\w*)"
  | staticMember => "([a-zA-Z_][\\w.]*)\\.([a-zA-Z_]\\w*)"

open Token

def null? (cs : List Char) : Option Meaning :=
  if cs = ['n', 'u', 'l', 'l'] then some .nil else none

def symbol? (cs : List Char) : Option Meaning :=
  if isName cs || (cs.head? == some ':' && isName cs.tail) then some (.symbol (.ofList cs))
  else none

def var? (cs : List Char) : Option Meaning :=
  let ns := cs.takeWhile (· != ':')
  let name := (cs.dropWhile (· != ':')).drop 1
  if isName ns && isName name then some (.var (.ofList ns) (.ofList name)) else none

def integer? (cs : List Char) : Option Meaning :=
  let (negative, cs) := unsign cs
  let (ds, rest) := digits cs
  if !ds.isEmpty && (rest.isEmpty || rest == ['.']) then some (.integer negative ds) else none

def float? (cs : List Char) : Option Meaning := do
  let (negative, cs) := unsign cs
  let (ds, rest) := digits cs
  if ds.isEmpty then none
  else
    let (fs, rest) ← fraction? rest
    let e ← exponent? rest
    some (.float negative ⟨Number.ofDigits (ds ++ fs), e - fs.length⟩)

def ratio? (cs : List Char) : Option Meaning :=
  let (negative, cs) := unsign cs
  let (num, rest) := digits cs
  match rest with
  | '/' :: den =>
    if !num.isEmpty && !den.isEmpty && den.all Char.isDigit then some (.ratio negative num den)
    else none
  | _ => none

def accessor? : List Char → Option Meaning
  | '.' :: cs => if isIdentifier cs then some (.accessor (.ofList cs)) else none
  | _ => none

def className? (cs : List Char) : Option Meaning :=
  if cs.getLast? == some '.' && isPath cs.dropLast then some (.className (.ofList cs.dropLast))
  else none

/-- A path and a member of what it names. -/
def member? (cs : List Char) : Option (String × String) := do
  let (path, member) ← splitLastPoint cs
  if isPath path && isIdentifier member then some (.ofList path, .ofList member) else none

def instanceMember? : List Char → Option Meaning
  | '.' :: cs => (member? cs).map fun (path, member) => .instanceMember path member
  | _ => none

def staticMember? (cs : List Char) : Option Meaning :=
  (member? cs).map fun (path, member) => .staticMember path member

/-- What a token denotes as a token of the class, if the whole of it is one. -/
def meaning? : TokenClass → List Char → Option Meaning
  | null => null?
  | symbol => symbol?
  | var => var?
  | integer => integer?
  | float => float?
  | ratio => ratio?
  | accessor => accessor?
  | className => className?
  | instanceMember => instanceMember?
  | staticMember => staticMember?

end TokenClass

namespace Token

/-- The first class of a token, with what the token denotes in it. -/
def classify (cs : List Char) : Option (TokenClass × Meaning) :=
  TokenClass.order.findSome? fun k => (k.meaning? cs).map (k, ·)

example : classify "12".toList = some (.integer, .integer false ['1', '2']) := by decide
example : classify "-5".toList = some (.symbol, .symbol "-5") := by decide
example : classify ".a.b.c".toList = some (.instanceMember, .instanceMember "a.b" "c") := by decide
example : classify "1a".toList = none := by decide

/-- The character that is named after a backslash. -/
def character? : List Char → Option Char
  | [c] => some c
  | ['n', 'e', 'w', 'l', 'i', 'n', 'e'] => some '\n'
  | ['s', 'p', 'a', 'c', 'e'] => some ' '
  | ['t', 'a', 'b'] => some '\t'
  | _ => none

end Token
end LispForms
