import LispForms.Text.Alphanumeric

/-! The words of a command line: arguments, and switches with or without a value attached. -/

namespace LispForms.Command

inductive Switch where
  | help
  | suppress
  /-- Whether the journal is written out. -/
  | writeLog
  | logLevel
  deriving DecidableEq, Repr

/-- How a switch comes by a value. -/
inductive Arity where
  | none
  | atMostOne
  | one
  deriving DecidableEq, Repr

def Switch.arity : Switch → Arity
  | help | suppress => .none
  | writeLog => .atMostOne
  | logLevel => .one

/-- The switches in force by their spellings. -/
abbrev Spellings := List (String × Switch)

namespace Spellings

/-- Every command has these. -/
def common : Spellings := [("-h", .help), ("--help", .help)]

def reading : Spellings :=
  common ++ [("--suppress", .suppress), ("--enable-logger", .writeLog), ("-l", .logLevel),
    ("--log-level", .logLevel)]

/-- The switch of a single letter. -/
def letter? (g : Spellings) (c : Char) : Option Switch := g.lookup (String.ofList ['-', c])

end Spellings

/-- What a word is taken for. -/
inductive Word where
  | argument (text : String)
  /-- Every word behind this one is an argument. -/
  | divider
  /-- Switches without values, and a last one with the value attached to it. -/
  | switches (bare : List Switch) (last : Switch) (value : Option String)
  /-- A value is attached to a switch that takes none. -/
  | faulty
  | unknown
  deriving DecidableEq, Repr

namespace Word

/-- A value attached by an equals sign. -/
def assigned (s : Switch) (value : List Char) : Word :=
  if s.arity = .none then faulty else switches [] s (some (.ofList value))

def addBare (s : Switch) : Word → Word
  | switches bare last value => switches (s :: bare) last value
  | w => w

/-- A switch of one letter with a text attached to it: its value, or further letters if it takes
none. -/
def cluster (g : Spellings) (s : Switch) : List Char → Word
  | [] => assigned s []
  | c :: cs =>
    if s.arity != .none then assigned s (c :: cs)
    else match g.letter? c with
      | none => faulty
      | some t => addBare s (if cs.isEmpty then switches [] t none else cluster g t cs)

/-- A switch of one letter with what stands behind it; an equals sign may set the attached text
apart. -/
def short (g : Spellings) (s : Switch) : List Char → Word
  | [] => switches [] s none
  | '=' :: cs => cluster g s cs
  | cs => cluster g s cs

/-- A minus sign and a decimal number without an exponent. One line feed may follow. -/
def isNegativeNumber : List Char → Bool
  | '-' :: cs =>
    let cs := if cs.getLast? = some '\n' then cs.dropLast else cs
    match cs.dropWhile Text.isDecimalDigit with
    | [] => !cs.isEmpty
    | '.' :: fraction => !fraction.isEmpty && fraction.all Text.isDecimalDigit
    | _ => false
  | _ => false

/-- A word that spells no switch: negative numbers and texts with a space are arguments. -/
def other (text : String) : Word :=
  if isNegativeNumber text.toList || text.toList.contains ' ' then argument text else unknown

/-- A word that begins with two minus signs, by its name and a value behind an equals sign. A
beginning of a name will do if no other name has it; `none` if several have. -/
def long (g : Spellings) (text : String) : Option Word :=
  let name := text.toList.takeWhile (· != '=')
  let rest := text.toList.dropWhile (· != '=')
  let matching := match g.lookup (.ofList name) with
    | some s => [s]
    | none => (g.filter fun (spelling, _) => name.isPrefixOf spelling.toList).map (·.2)
  match matching, rest with
  | [], _ => some (other text)
  | [s], [] => some (switches [] s none)
  | [s], _ :: value => some (assigned s value)
  | _, _ => none

/-- What a word is taken for, unless it is ambiguous. -/
def classify (g : Spellings) (text : String) : Option Word :=
  match text.toList with
  | ['-', '-'] => some divider
  | '-' :: '-' :: _ => long g text
  | '-' :: c :: cs => some <| match g.letter? c with
    | some s => short g s cs
    | none => other text
  | _ => some (argument text)

/-- The words of a command line, unless one is ambiguous. -/
def classifyAll (g : Spellings) : List String → Option (List Word)
  | [] => some []
  | text :: texts =>
    match classify g text with
    | none => none
    | some divider => some (divider :: texts.map argument)
    | some w => (classifyAll g texts).map (w :: ·)

example : classify .reading "--log=x" = some (switches [] .logLevel (some "x")) := by decide +kernel
example : classify .reading "-hlx" = some (switches [.help] .logLevel (some "x")) := by
  decide +kernel
example : classify .reading "-h=h" = some (switches [.help] .help none) := by decide +kernel
example : classify .reading "-hx" = some faulty := by decide +kernel
example : classify .reading "--=x" = none := by decide +kernel
example : classify .reading "-.5" = some (argument "-.5") := by decide +kernel

end Word
end LispForms.Command
