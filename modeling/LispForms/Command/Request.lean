import LispForms.Command.Word
import LispForms.Logging

/-! What a command line asks for. Switches may set environment variables on the way, also
where the line as a whole is refused. -/

namespace LispForms.Command

open Logging (Variables)

inductive Request where
  /-- To be told how the program is used. -/
  | usage
  /-- Nothing: the line is at fault. -/
  | misuse
  | version
  | read (files : List String) (suppress : Bool)
  /-- Nothing: a switch cannot take effect. -/
  | failed (f : Logging.Fault)
  deriving DecidableEq, Repr

/-! ### Flags -/

/-- Why a value is refused. -/
inductive ValueFault where
  | notAFlag
  deriving DecidableEq, Repr

def ValueFault.message : ValueFault → String
  | notAFlag => "Unable to coerce flag value to boolean."

/-- The meaning of a flag's value, in any case; no value has none. -/
def flag : Option String → Except ValueFault (Option Bool)
  | none => .ok none
  | some text =>
    let word := Text.lowerAscii text
    if ["true", "t", "1", "yes", "y"].contains word then .ok (some true)
    else if ["false", "f", "0", "no", "n"].contains word then .ok (some false)
    else .error .notAFlag

/-! ### The arguments of a command -/

/-- The files named so far: they form one run of arguments, which a switch ends. -/
inductive Files where
  | awaited
  /-- Newest first. -/
  | gathered (names : List String)
  | closed (names : List String)
  deriving DecidableEq, Repr

/-- What has been gathered from a command line. -/
structure Draft where
  suppress : Bool
  files : Files
  /-- Whether a word was left over; that is reported once the whole line has been taken in. -/
  surplus : Bool
  env : Variables
  deriving DecidableEq, Repr

namespace Draft

/-- For a command that takes files. -/
def withFiles (v : Variables) : Draft := ⟨false, .awaited, false, v⟩

/-- For a command without arguments. -/
def withoutFiles (v : Variables) : Draft := ⟨false, .closed [], false, v⟩

def argument (d : Draft) (text : String) : Draft :=
  match d.files with
  | .awaited => { d with files := .gathered [text] }
  | .gathered names => { d with files := .gathered (text :: names) }
  | .closed _ => { d with surplus := true }

def divider (d : Draft) : Draft :=
  match d.files with
  | .awaited => { d with files := .gathered [] }
  | .gathered _ => d
  | .closed _ => { d with surplus := true }

/-- Ends a run of arguments. -/
def close (d : Draft) : Draft :=
  match d.files with
  | .gathered names => { d with files := .closed names }
  | _ => d

def fileNames (d : Draft) : List String :=
  match d.files with
  | .awaited => []
  | .gathered names | .closed names => names.reverse

/-- Sets a variable, unless it is set already. -/
def assign (d : Draft) (x : Logging.Variable) (text : String) : Except Request Draft :=
  match d.env.setDefault x text with
  | .ok env => .ok { d with env }
  | .error f => .error (.failed f)

/-- The effect of a switch, by its value. Two minus signs are not counted as a value; a level
without a value reads as an empty list. -/
def apply (d : Draft) (s : Switch) (value : Option String) : Except Request Draft :=
  let value := value.filter (· != "--")
  match s with
  | .help => .error .usage
  | .suppress => .ok { d with suppress := true }
  | .writeLog => match flag value with
    | .ok on => d.assign .writeOut (if on.getD true then "True" else "False")
    | .error _ => .error .misuse
  | .logLevel => d.assign .level ((value.map Text.capitals).getD "[]")

/-- The effects of the switches of one word. -/
def applyAll (d : Draft) (last : Switch) (value : Option String) :
    List Switch → Except Request Draft
  | [] => d.apply last value
  | s :: bare => do (← d.apply s none).applyAll last value bare

/-- Takes in the words of a command line. A switch with no value attached takes the argument
behind it if it can have one. A request ends the line, with the variables as they are then. -/
def takeIn (d : Draft) : List Word → Except (Request × Variables) Draft
  | [] => .ok d
  | .argument text :: ws => (d.argument text).takeIn ws
  | .divider :: ws => d.divider.takeIn ws
  | .unknown :: ws => { d.close with surplus := true }.takeIn ws
  | .faulty :: _ => .error (.misuse, d.env)
  | .switches bare last value :: ws =>
    let applied (value : Option String) : Except (Request × Variables) Draft :=
      (d.close.applyAll last value bare).mapError fun r => (r, d.env)
    match value, last.arity, ws with
    | none, .one, .argument text :: ws => do (← applied (some text)).takeIn ws
    | none, .one, _ => .error (.misuse, d.env)
    | none, .atMostOne, .argument text :: ws => do (← applied (some text)).takeIn ws
    | _, _, ws => do (← applied value).takeIn ws

end Draft

/-! ### Command lines -/

inductive Name where
  | read
  | version
  deriving DecidableEq, Repr

def Name.ofString? : String → Option Name
  | "read" => some .read
  | "version" => some .version
  | _ => none

namespace Name

def spellings : Name → Spellings
  | read => .reading
  | version => .common

def draft : Name → Variables → Draft
  | read => .withFiles
  | version => .withoutFiles

def request : Name → Draft → Request
  | read, d => .read d.fileNames d.suppress
  | version, _ => .version

/-- The request of a command with its words, and the variables as they are then. -/
def ofWords (n : Name) (texts : List String) (v : Variables) : Request × Variables :=
  match Word.classifyAll n.spellings texts with
  | none => (.misuse, v)
  | some ws => match (n.draft v).takeIn ws with
    | .error r => r
    | .ok d => (if d.surplus then .misuse else n.request d, d.env)

end Name

/-- What remains of a request if a word in front of the command was left over. -/
def Request.withSurplus : Request → Request
  | usage => usage
  | failed f => failed f
  | _ => misuse

/-- The request of a command line, and the variables that it leaves. The first argument is the
name of the command. -/
def request (v : Variables) : List String → Request × Variables
  | [] => (.usage, v)
  | text :: texts =>
    match Word.classify .common text with
    | some (.argument name) => match Name.ofString? name with
      | some n => n.ofWords texts v
      | none => (.misuse, v)
    | some .unknown =>
      if texts.isEmpty then (.misuse, v)
      else
        let (r, v) := request v texts
        (r.withSurplus, v)
    | some (.switches ..) => (.usage, v)
    | _ => (.misuse, v)

end LispForms.Command
