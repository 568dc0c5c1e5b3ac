import LispForms.Journal
import LispForms.Text.Alphanumeric
import LispForms.Text.Capital
import LispForms.Text.Quoted

/-! The set-up of logging: one logger, its level and its handlers, configured from two
environment variables. -/

namespace LispForms

namespace Logging

/-- Why logging cannot be set up. -/
inductive Fault where
  | unknownLevel (name : String)
  /-- The format of records names no field of theirs. -/
  | invalidFormat (format : String)
  /-- A variable is set to a text that it cannot hold. -/
  | unsettable
  deriving DecidableEq, Repr

def Fault.message : Fault → String
  | unknownLevel name => "Unknown level: " ++ Text.quoted name
  | invalidFormat format => s!"Invalid format '{format}' for '%' style"
  | unsettable => "embedded null byte"

/-! ### Variables -/

/-- The variables that logging depends on. -/
inductive Variable where
  /-- The level by name. -/
  | level
  /-- Whether records are written out; only the text true, in any case, says so. -/
  | writeOut
  deriving DecidableEq, Repr

def Variable.name : Variable → String
  | level => "LISPREADER_LOGGING_LEVEL"
  | writeOut => "LISPREADER_USE_DEV_LOGGER"

/-- The variable of a name, if logging depends on it. -/
def Variable.ofName? (name : String) : Option Variable :=
  [level, writeOut].find? (·.name = name)

/-- The part of the process environment that logging depends on. -/
structure Variables where
  level : Option String
  writeOut : Option String
  deriving DecidableEq, Repr

namespace Variables

def unset : Variables := ⟨none, none⟩

def get (v : Variables) : Variable → Option String
  | .level => v.level
  | .writeOut => v.writeOut

/-- Whether a variable can hold a text: the null character would end it. -/
def canHold (text : String) : Bool := !text.toList.contains '\x00'

/-- Gives a variable a text, or none. -/
def set (v : Variables) (x : Variable) (text : Option String) : Except Fault Variables :=
  if text.all canHold then
    match x with
    | .level => .ok { v with level := text }
    | .writeOut => .ok { v with writeOut := text }
  else .error .unsettable

/-- Gives a variable a text unless it has one. -/
def setDefault (v : Variables) (x : Variable) (text : String) : Except Fault Variables :=
  if (v.get x).isSome then .ok v else v.set x (some text)

/-- The name of the level that the environment asks for. -/
def levelName (v : Variables) : String := Text.capitals (v.level.getD "WARNING")

def writesOut (v : Variables) : Bool := Text.lowerAscii (v.writeOut.getD "") == "true"

end Variables

/-! ### Handlers -/

inductive HandlerKind where
  /-- Drops its records. -/
  | null
  /-- Writes its records to the error output. -/
  | stream
  deriving DecidableEq, Repr

def HandlerKind.name : HandlerKind → String
  | null => "NullHandler"
  | stream => "StreamHandler"

structure Handler where
  id : Nat
  kind : HandlerKind
  level : Nat
  deriving DecidableEq, Repr

/-! ### Formats -/

/-- The conversions of a field in either case, and with them the letters that differ from one of
these in case alone: i with a dot or without one, and the long s. -/
def conversions : List Char := "diouxefgcrsa%DIOUXEFGCRSAİıſ".toList

/-- The rest of a field's text behind its name: flags, width, precision and conversion. -/
def endsField (cs : List Char) : Bool :=
  let number (cs : List Char) : List Char := match cs with
    | '*' :: cs => cs
    | cs => cs.dropWhile Text.isDecimalDigit
  let cs := number (cs.dropWhile fun c => ['#', '0', '+', ' ', '-'].contains c)
  let isConversion (cs : List Char) : Bool := match cs with
    | c :: _ => conversions.contains c
    | [] => false
  match cs with
  | '.' :: cs => match cs with
    | c :: _ => (c == '*' || Text.isDecimalDigit c) && isConversion (number cs)
    | [] => false
  | cs => isConversion cs

/-- Whether a format holds a field: a name in parentheses behind a percent sign, and a
conversion. -/
def hasField : List Char → Bool
  | '%' :: '(' :: cs =>
    let name := cs.takeWhile Text.isWordCharacter
    let isField := !name.isEmpty && match cs.drop name.length with
      | ')' :: rest => endsField rest
      | _ => false
    isField || hasField cs
  | _ :: cs => hasField cs
  | [] => false

/-- The format of records unless another is given. -/
def standardFormat : String := "%(asctime)s %(levelname)s [%(name)s:%(lineno)d] - %(message)s"

example : hasField standardFormat.toList = true := by decide +kernel
example : hasField "%(é)-٣.*ſ".toList = true ∧ hasField "%(a b)s %()s %(a).s".toList = false := by
  decide +kernel

/-! ### States -/

/-- The state of logging. -/
structure State where
  env : Variables
  level : Nat
  /-- In the order in which they were added. -/
  handlers : List Handler
  /-- The handler of the latest configuration that made one. -/
  own : Option Handler
  /-- Whether a first initialisation has succeeded. -/
  initialized : Bool
  nextId : Nat
  deriving DecidableEq, Repr

namespace State

def initial (v : Variables) : State := ⟨v, 0, [], none, false, 0⟩

/-- A level by name. -/
def parseLevel (name : String) : Except Fault Nat :=
  match Level.named? name with
  | some n => .ok n
  | none => .error (.unknownLevel name)

/-- The name asked for, unless it is empty, else the one in the environment. -/
def levelName (s : State) (asked : Option String) : String :=
  match asked with
  | some name => if name = "" then s.env.levelName else name
  | none => s.env.levelName

/-- A handler for the environment. An empty format stands for a plain one; a faulty format comes
to light before a faulty level. -/
def makeHandler (s : State) (asked : Option String) (format : String) : Except Fault Handler := do
  let kind := if s.env.writesOut then HandlerKind.stream else .null
  if format != "" && !hasField format.toList then throw (.invalidFormat format)
  let level ← parseLevel (s.levelName asked)
  return ⟨s.nextId, kind, level⟩

/-- Sets the level, and puts a new handler in the place of the one from before. The level is set
and the former handler is gone by the time that a faulty format comes to light. -/
def configure (s : State) (asked : Option String) (format : String) : Except Fault Unit × State :=
  let name := s.levelName asked
  match parseLevel name with
  | .error f => (.error f, s)
  | .ok level =>
    let s := { s with level }
    let s := match s.own with
      | some h => { s with handlers := s.handlers.filter (·.id != h.id) }
      | none => s
    match s.makeHandler (some name) format with
    | .error f => (.error f, s)
    | .ok h =>
      (.ok (), { s with handlers := s.handlers ++ [h], own := some h, nextId := s.nextId + 1 })

/-- Configures once, or again if forced to. -/
def init (s : State) (force : Bool) : Except Fault Unit × State :=
  if s.initialized && !force then (.ok (), s)
  else match s.configure none standardFormat with
    | (.ok (), s) => (.ok (), { s with initialized := true })
    | (.error f, s) => (.error f, s)

/-- A handler added by someone else. -/
def addHandler (s : State) (kind : HandlerKind) (level : Nat) : State :=
  { s with handlers := s.handlers ++ [⟨s.nextId, kind, level⟩], nextId := s.nextId + 1 }

/-- Whether an entry of the journal is written to the error output. Where there is no handler at
all, the last resort writes the entries from warnings on. -/
def writes (s : State) (n : Note) : Bool :=
  n.passes s.level &&
    if s.handlers.isEmpty then Level.warning ≤ n.level
    else s.handlers.any fun h => h.kind == .stream && h.level ≤ n.level

end State
end Logging
end LispForms
