import LispForms.Reader.Machine

/-! Reading whole texts: every form in order, up to the first fault. -/

namespace LispForms

/-- A text with its name, if it has one. -/
structure Source where
  text : Text.Decoded
  name : Option String

namespace Source

def ofString (s : String) : Source := ⟨⟨s.toList, .complete⟩, none⟩

def ofBytes (name : String) (bytes : List UInt8) : Source := ⟨Text.decode bytes, some name⟩

end Source

/-- How a whole text is read. -/
structure Options where
  /-- Whether the end of the text is reported as an error. -/
  endIsError : Bool
  suppress : Bool
  /-- The place before the text. -/
  line : Option Int
  col : Option Int
  deriving DecidableEq, Repr

def Options.standard : Options := ⟨false, false, none, none⟩

/-- What a reading yields: the forms before the first fault, and the world it leaves. -/
structure Reading (W : Type) where
  forms : List Form
  fault : Option Fault
  world : W

variable {W : Type}

namespace Options

def settings (opts : Options) (sv : Services W) (source : Source) : Settings W :=
  ⟨sv, .all, opts.suppress, opts.endIsError, source.name, source.text.ending⟩

end Options

/-- The journal entry that opens a reading. -/
def Source.opening (source : Source) : Note :=
  let name := match source.name with
    | some name => if name = "" then "<stream>" else name
    | none => "<stream>"
  ⟨Level.debug, Services.logger, s!"Reading forms from {name}"⟩

/-- Reads every form of a text. -/
def read (sv : Services W) (opts : Options) (source : Source) (world : W) : Reading W :=
  let st := State.initial (.initial opts.line opts.col) (sv.note source.opening world)
  let o := run (opts.settings sv source) st source.text.chars
  let fault := match o.stop with
    | .failed f => some f
    | _ => none
  ⟨o.forms, fault, o.state.world⟩

/-! ### Files -/

/-- Why there is no file under a name. -/
inductive Obstacle where
  | missing
  | directory
  /-- A file stands where the name has a directory. -/
  | throughFile
  /-- No file can have a name as long as this one. -/
  | tooLong
  deriving DecidableEq, Repr

def Obstacle.message : Obstacle → String
  | missing => "[Errno 2] No such file or directory"
  | directory => "[Errno 21] Is a directory"
  | throughFile => "[Errno 20] Not a directory"
  | tooLong => "[Errno 36] File name too long"

/-- What stands under a file name. -/
inductive File where
  | bytes (content : List UInt8)
  | none (why : Obstacle)

/-- Why a file is not read to its end. -/
inductive FileFault where
  /-- The name holds the null character, as no file's name does. -/
  | unnameable
  | absent (name : String) (why : Obstacle)
  | fault (f : Fault)
  deriving DecidableEq, Repr

def FileFault.message : FileFault → String
  | unnameable => "embedded null byte"
  | absent name why => why.message ++ ": " ++ Text.quoted name
  | fault f => f.message

/-- Reads every form of the file under a name. -/
def File.read (file : File) (sv : Services W) (opts : Options) (name : String) (world : W) :
    List Form × Option FileFault × W :=
  if name.toList.contains '\x00' then ([], some .unnameable, world)
  else match file with
    | .none why => ([], some (.absent name why), world)
    | .bytes content =>
      let r := LispForms.read sv opts (.ofBytes name content) world
      (r.forms, r.fault.map .fault, r.world)

end LispForms
