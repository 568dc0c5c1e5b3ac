import LispForms.Command.Request
import LispForms.Form.Printer
import LispForms.Reader.Reading

/-! Runs of a command line: what is printed, what is reported and how the run ends. -/

namespace LispForms.Command

/-- What a run finds around itself. -/
structure Surroundings where
  host : Host.Environment
  /-- The standard input. -/
  input : String
  /-- What reports call the standard input, if it has a name. -/
  inputTitle : Option String
  file : String → File

/-- What is left of the standard input, as a text to read. -/
def Surroundings.inputSource (around : Surroundings) (rest : String) : Source :=
  ⟨⟨rest.toList, .complete⟩, around.inputTitle⟩

/-- Why a run breaks off. -/
inductive Failure where
  | logging (f : Logging.Fault)
  | reading (f : FileFault)
  deriving DecidableEq, Repr

def Failure.message : Failure → String
  | logging f => f.message
  | reading f => f.message

inductive Ending where
  | usage
  | misuse
  | done
  /-- A text is no sequence of forms, and that has been reported. -/
  | misread
  | failed (f : Failure)
  deriving DecidableEq, Repr

/-- The exit status of a run that does not break off. -/
def Ending.status? : Ending → Option Nat
  | usage | done => some 0
  | misread => some 1
  | misuse => some 2
  | failed _ => none

structure Run where
  ending : Ending
  output : String
  errors : String
  env : Logging.Variables

/-- The file name that stands for the standard input. -/
def inputName : String := "-"

/-- Reads the forms of several texts in order, up to the first fault. The standard input can be
read once; then it is empty. -/
def readTexts {W : Type} (sv : Services W) (opts : Options) (around : Surroundings) :
    List String → String → W → List Form × Option FileFault × W
  | [], _, w => ([], none, w)
  | name :: names, input, w =>
    let (forms, fault, w) :=
      if name = inputName then
        let r := LispForms.read sv opts (around.inputSource input) w
        (r.forms, r.fault.map .fault, r.world)
      else (around.file name).read sv opts name w
    match fault with
    | some f => (forms, some f, w)
    | none =>
      let input := if name = inputName then "" else input
      let (more, fault, w) := readTexts sv opts around names input w
      (forms ++ more, fault, w)

/-- One line for each form. -/
def printForms (forms : List Form) : String :=
  String.join (forms.map fun x => x.print .standard ++ "\n")

/-- The journal as it is written to the error output. -/
def writtenJournal (log : Logging.State) (s : Store) : String :=
  String.join ((s.journal.reverse.filter log.writes).map Note.line)

/-- Reads the named files, or the standard input, and prints their forms. -/
def read (around : Surroundings) (files : List String) (suppress : Bool)
    (v : Logging.Variables) : Run :=
  match (Logging.State.initial v).init false with
  | (.error f, _) => ⟨.failed (.logging f), "", "", v⟩
  | (.ok (), log) =>
    let names := if files.isEmpty then [inputName] else files
    let (forms, fault, store) :=
      readTexts (.standard around.host) ⟨false, suppress, none, none⟩ around names
        around.input .empty
    let output := printForms forms
    let journal := writtenJournal log store
    match fault with
    | none => ⟨.done, output, journal, v⟩
    | some (.fault (.misread m)) => ⟨.misread, output, journal ++ m.printed, v⟩
    | some f => ⟨.failed (.reading f), output, journal, v⟩

def versionLine : String := "lispreader 0.1.0\n"

/-- How the program is used. -/
def usage : String :=
  "usage: lispreader [-h] {read,version} ...\n" ++
  "       lispreader read [-h] [--suppress] [--enable-logger [FLAG]] [-l LEVEL] [file ...]\n" ++
  "       lispreader version [-h]\n"

/-- Runs a command line. -/
def run (around : Surroundings) (v : Logging.Variables) (args : List String) : Run :=
  match request v args with
  | (.usage, v) => ⟨.usage, usage, "", v⟩
  | (.misuse, v) => ⟨.misuse, "", usage, v⟩
  | (.version, v) => ⟨.done, versionLine, "", v⟩
  | (.failed f, v) => ⟨.failed (.logging f), "", "", v⟩
  | (.read files suppress, v) => read around files suppress v

end LispForms.Command
