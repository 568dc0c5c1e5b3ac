import LispForms.Form
import LispForms.Token
import LispForms.Reader.Fault

/-! The services a reading calls on to give tokens their values. They work on a world of
their own; the standard ones work on the store. -/

namespace LispForms

open Token (Meaning)

/-- What a name is to a reading. A symbol and a var are always found, and as a form: these services
can neither fail nor answer with the end of the text. -/
structure Services (W : Type) where
  symbol : String → W → Form × W
  var : String → String → W → Form × W
  host : String → W → Except Host.Failure Host.Ref × W
  /-- Takes an entry of the journal. -/
  note : Note → W → W

namespace Services

def standard (env : Host.Environment) : Services Store where
  symbol name s := let (x, s) := s.symbol ⟨name, none⟩; (.symbol x, s)
  var ns name s := let (v, s) := s.internVar ns name; (.var v, s)
  host := Store.resolve env
  note n s := { s with journal := n :: s.journal }

variable {W : Type}

/-- The reader, as the journal calls it. -/
def logger : String := "lispreader.lang.reader"

/-- The object of a host name; `locate` gives a problem its place. -/
def resolve (sv : Services W) (locate : Problem → Fault) (path : String) (w : W) :
    Except Fault Host.Ref × W :=
  match sv.host path w with
  | (.ok type, w) => (.ok type, w)
  | (.error (.importing kind name), w) => (.error (.importing kind name), w)
  | (.error reason, w) => (.error (locate (.host path reason)), w)

/-- A number is converted unless it has too many digits. -/
def convert (ds : List Char) : Except Fault Nat :=
  if Number.maxDigits < ds.length then .error (.tooManyDigits ds.length)
  else .ok (Number.ofDigits ds)

/-- The value of a ratio; its numerator is converted first. -/
def ratio (locate : Problem → Fault) (token : String) (negative : Bool) (num den : List Char) :
    Except Fault Form := do
  let n ← convert num
  let d ← convert den
  let n := Number.signed negative n
  if d = 0 then throw (locate (.zeroDenominator token n)) else pure (.quotient n d)

/-- The value of a token, from what the token denotes. -/
def value (sv : Services W) (locate : Problem → Fault) (token : String) (m : Meaning) (w : W) :
    Except Fault Form × W :=
  match m with
  | .nil => (.ok .nil, w)
  | .symbol name => let (x, w) := sv.symbol name w; (.ok x, w)
  | .var ns name => let (v, w) := sv.var ns name w; (.ok v, w)
  | .integer negative ds => ((convert ds).map fun n => .integer (Number.signed negative n), w)
  | .float negative d => (.ok (.float ⟨negative, Number.Binary64.nearest d⟩), w)
  | .ratio negative num den => (ratio locate token negative num den, w)
  | .accessor member => (.ok (.accessor member), w)
  | .className path =>
    let (r, w) := sv.resolve locate path w
    (r.map (.className · path), w)
  | .instanceMember path member =>
    let (r, w) := sv.resolve locate path w
    (r.map (.instanceMember · member path), w)
  | .staticMember path member =>
    let (r, w) := sv.resolve locate path w
    (r.map (.staticMember · member path), w)

/-- The value of a token. -/
def interpret (sv : Services W) (locate : Problem → Fault) (token : List Char) (w : W) :
    Except Fault Form × W :=
  let text := String.ofList token
  match Token.classify token with
  | none => (.error (locate (.token text)), w)
  | some (k, m) =>
    let w := sv.note ⟨Level.trace, logger, s!"Token '{text}' matched {k.pattern}"⟩ w
    sv.value locate text m w

end Services
end LispForms
