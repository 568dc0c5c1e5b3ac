import LispForms.Command.Run

/-! The program: its surroundings are the process environment, the files of the machine and the
standard host. -/

namespace LispForms

/-- The rest of a stream. -/
partial def restOf (stream : IO.FS.Stream) (taken : ByteArray) : IO ByteArray := do
  let block ← stream.read 65536
  if block.isEmpty then return taken else restOf stream (taken ++ block)

/-- The standard input as a text, with line feeds for all line breaks. -/
def inputText : IO String := do
  match String.fromUTF8? (← restOf (← IO.getStdin) .empty) with
  | some text => return String.ofList (Text.unifyBreaks text.toList)
  | none => throw (IO.userError "the standard input is not UTF-8")

/-- What stands under a name on this machine. A directory can be opened and fails when it is read,
without its name; a path through a file cannot be opened. -/
def fileOf (name : String) : IO File := do
  try
    return .bytes (← IO.FS.readBinFile name).toList
  catch
    | .noFileOrDirectory .. => return .none .missing
    | .inappropriateType none _ _ => return .none .directory
    | .inappropriateType (some _) _ _ => return .none .throughFile
    | .invalidArgument (some _) _ _ => return .none .tooLong
    | e => throw e

def runProgram (args : List String) : IO UInt32 := do
  let v : Logging.Variables :=
    ⟨← IO.getEnv Logging.Variable.level.name, ← IO.getEnv Logging.Variable.writeOut.name⟩
  let names := match (Command.request v args).1 with
    | .read files _ => if files.isEmpty then [Command.inputName] else files
    | _ => []
  let input ← if names.contains Command.inputName then inputText else pure ""
  let files ← names.mapM fun name => return (name, ← fileOf name)
  let around : Command.Surroundings :=
    ⟨.standard, input, some "<stdin>", fun name => (files.lookup name).getD (.none .missing)⟩
  let r := Command.run around v args
  (← IO.getStdout).putStr r.output
  (← IO.getStderr).putStr r.errors
  match r.ending with
  | .failed f =>
    (← IO.getStderr).putStrLn f.message
    return 1
  | ending => return UInt32.ofNat (ending.status?.getD 1)

end LispForms

def main (args : List String) : IO UInt32 := LispForms.runProgram args
