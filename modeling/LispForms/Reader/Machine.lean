import LispForms.Reader.Services
import LispForms.Text.Decoding
import LispForms.Cursor

/-! The reading machine. It takes a text character by character and keeps the lists that
are open on a stack, so that a run is a single pass over the text whatever is nested in it. A
token or a character name is complete only when the next piece shows that it has ended; that
piece is then looked at again, or given back to the text if the reading has found what it was
for. -/

namespace LispForms

variable {W : Type}

/-- What a reading is for. -/
inductive Goal where
  /-- The next form. -/
  | one
  /-- Every form before a closing piece. -/
  | upTo (close : Piece)
  /-- Every form of the text. -/
  | all
  deriving DecidableEq, Repr

/-- What does not change during a run. -/
structure Settings (W : Type) where
  services : Services W
  goal : Goal
  /-- Whether forms are read over, with nil in their place. -/
  suppress : Bool
  /-- Whether the end of the text is an error even where no form has begun. -/
  endIsError : Bool
  /-- The name of the text, for errors. -/
  source : Option String
  ending : Text.Ending

/-- What the machine is in the middle of; what has been gathered is kept in reverse. -/
inductive Mode where
  | between
  | comment
  | token (gathered : List Char)
  | string (gathered : List Char)
  /-- Behind a backslash in a string. -/
  | escape (gathered : List Char)
  /-- Behind the backslash of a character. -/
  | backslash
  | character (gathered : List Char)
  deriving DecidableEq, Repr

/-- A list whose end has not been read. -/
structure OpenList where
  /-- The place of its opening parenthesis. -/
  start : Mark
  /-- Newest first. -/
  items : List Form

structure State (W : Type) where
  mode : Mode
  /-- Innermost first. -/
  lists : List OpenList
  /-- The forms completed outside of lists, newest first. -/
  forms : List Form
  mark : Mark
  world : W

/-- Why a run ends. -/
inductive Stop where
  | found
  /-- The text ended where no form had begun. -/
  | ended
  | failed (f : Fault)
  deriving DecidableEq, Repr

/-- The effect of a piece. -/
inductive Step (W : Type) where
  | on (st : State W)
  /-- The run ends behind the piece; before the piece was read the place was `before`. -/
  | past (st : State W) (stop : Stop) (before : Mark)
  /-- The run ends and gives the piece back. -/
  | back (st : State W) (stop : Stop)

/-- The end of a run. -/
structure Outcome (W : Type) where
  state : State W
  stop : Stop
  cursor : Cursor

namespace Outcome

/-- A run that ends behind the last piece read. -/
def past (st : State W) (stop : Stop) (before : Mark) (rest : List Char) : Outcome W :=
  ⟨st, stop, ⟨rest, st.mark, .taken before⟩⟩

/-- A run that pushes the last piece read back. -/
def back (st : State W) (stop : Stop) (p : Piece) (rest : List Char) : Outcome W :=
  let behind : Cursor := ⟨rest, st.mark.next p, .taken st.mark⟩
  match behind.unread p with
  | some c => ⟨st, stop, c⟩
  | none => ⟨st, .failed .pushback, behind⟩

/-- The forms completed outside of lists, in order. -/
def forms (o : Outcome W) : List Form := o.state.forms.reverse

end Outcome

/-- Whether a piece ends a token: a blank, a special character, or the end of the text. -/
def Piece.endsToken : Piece → Bool
  | [] => true
  | [c] => Text.isBlank c || isSpecial c
  | c :: _ => Text.isBlank c

namespace Mode

/-- Whether a piece completes what the machine is in the middle of without belonging to it. -/
def endsAt : Mode → Piece → Bool
  | token _, p | character _, p => p.endsToken
  | _, _ => false

end Mode

namespace State

def initial (mark : Mark) (world : W) : State W := ⟨.between, [], [], mark, world⟩

/-- Gives a problem the place of the last piece read. -/
def locate (cfg : Settings W) (st : State W) (p : Problem) : Fault :=
  .misread ⟨p, st.mark.line, st.mark.col, cfg.source⟩

/-- The state behind a piece. -/
def advance (st : State W) (p : Piece) : State W := { st with mark := st.mark.next p }

/-- Takes a complete form into the innermost open list. Outside of lists a suppressed form leaves
nil, except before a closing piece. -/
def put (cfg : Settings W) (v : Form) (st : State W) : State W :=
  match st.lists with
  | l :: ls => { st with mode := .between, lists := { l with items := v :: l.items } :: ls }
  | [] =>
    let kept := match cfg.goal with
      | .upTo _ => v
      | _ => if cfg.suppress then .nil else v
    { st with mode := .between, forms := kept :: st.forms }

/-- Why the run ends after a form was taken in, if it does. -/
def satisfied (cfg : Settings W) (st : State W) : Bool := cfg.goal == .one && !st.forms.isEmpty

/-- Completes the token or the character that ends here. A suppressed token has no value and is not
classified. -/
def settle (cfg : Settings W) (st : State W) : State W × Option Fault :=
  match st.mode with
  | .token gathered =>
    if cfg.suppress then (st.put cfg .nil, none)
    else match cfg.services.interpret (st.locate cfg) gathered.reverse st.world with
      | (.ok v, w) => (put cfg v { st with world := w }, none)
      | (.error f, w) => ({ st with world := w }, some f)
  | .character gathered =>
    match Token.character? gathered.reverse with
    | some c => (st.put cfg (.text (.singleton c)), none)
    | none => (st, some (st.locate cfg (.character (.ofList gathered.reverse))))
  | _ => (st, none)

/-- The character that a letter stands for behind a backslash in a string. -/
def unescape? : Char → Option Char
  | '"' => some '"'
  | '\\' => some '\\'
  | 'n' => some '\n'
  | 'r' => some '\r'
  | 't' => some '\t'
  | _ => none

/-- The run goes on behind a form that was just completed, or ends if it was for that form. -/
def proceed (cfg : Settings W) (st : State W) (before : Mark) : Step W :=
  if st.satisfied cfg then .past st .found before else .on st

/-- A piece where a form may begin or a list may end. -/
def beginForm (cfg : Settings W) (st : State W) (before : Mark) (p : Piece) : Step W :=
  match p with
  | [] => .on st
  | c :: more =>
    if Text.isBlank c then .on st
    else if st.lists.isEmpty && cfg.goal == .upTo p then .past st .found before
    else if !more.isEmpty then .on { st with mode := .token p.reverse }
    else if c = '"' then .on { st with mode := .string [] }
    else if c = ';' then .on { st with mode := .comment }
    else if c = '\\' then .on { st with mode := .backslash }
    else if c = '(' then .on { st with lists := ⟨st.mark, []⟩ :: st.lists }
    else if c = ')' then
      match st.lists with
      | l :: ls =>
        let span := Span.between l.start st.mark
        proceed cfg (put cfg (.list l.items.reverse (some span)) { st with lists := ls }) before
      | [] => .past st (.failed (st.locate cfg (.delimiter (.ofList p)))) before
    else .on { st with mode := .token [c] }

/-- A piece that is not the end of the text, taken in the mode that the machine is in. -/
def take (cfg : Settings W) (st : State W) (p : Piece) : Step W :=
  let before := st.mark
  let st := st.advance p
  match st.mode with
  | .between => st.beginForm cfg before p
  | .comment => if p = ['\n'] || p = ['\r'] then .on { st with mode := .between } else .on st
  | .token gathered => .on { st with mode := .token (p.reverse ++ gathered) }
  | .string gathered =>
    if p = ['"'] then proceed cfg (st.put cfg (.text (.ofList gathered.reverse))) before
    else if p = ['\\'] then .on { st with mode := .escape gathered }
    else .on { st with mode := .string (p.reverse ++ gathered) }
  | .escape gathered =>
    match p with
    | [c] => match unescape? c with
      | some x => .on { st with mode := .string (x :: gathered) }
      | none => .past st (.failed (st.locate cfg (.escape (.ofList p)))) before
    | _ => .past st (.failed (st.locate cfg (.escape (.ofList p)))) before
  | .backslash => .on { st with mode := .character p.reverse }
  | .character gathered => .on { st with mode := .character (p.reverse ++ gathered) }

/-- The effect of a piece that is not the end of the text. -/
def feed (cfg : Settings W) (st : State W) (p : Piece) : Step W :=
  if st.mode.endsAt p then
    match st.settle cfg with
    | (st, some f) => .back st (.failed f)
    | (st, none) => if st.satisfied cfg then .back st .found else st.take cfg p
  else st.take cfg p

/-- The end of the text, read where a form may begin. -/
def endBetween (cfg : Settings W) (st : State W) (rest : List Char) : Outcome W :=
  let after := st.advance []
  let isError := !st.lists.isEmpty || cfg.endIsError || match cfg.goal with
    | .upTo _ => true
    | _ => false
  let stop := if isError then .failed (after.locate cfg (.unfinished .form)) else .ended
  .past after stop st.mark rest

/-- The end of the text, read where something is unfinished. -/
def cutOff (cfg : Settings W) (st : State W) (what : Unfinished) (rest : List Char) : Outcome W :=
  let after := st.advance []
  .past after (.failed (after.locate cfg (.unfinished what))) st.mark rest

/-- The effect of the end of the text. Behind a comment it is read twice, once as the end of
the comment. -/
def close (cfg : Settings W) (st : State W) (rest : List Char) : Outcome W :=
  match st.mode with
  | .between => st.endBetween cfg rest
  | .comment => (st.advance []).endBetween cfg rest
  | .string _ | .escape _ => st.cutOff cfg .string rest
  | .backslash => st.cutOff cfg .character rest
  | .token _ | .character _ =>
    match st.settle cfg with
    | (st, some f) => .back st (.failed f) [] rest
    | (st, none) => if st.satisfied cfg then .back st .found [] rest else st.endBetween cfg rest

end State

/-- A run over the rest of a text. -/
def run (cfg : Settings W) (st : State W) : List Char → Outcome W
  | [] => match cfg.ending with
    | .complete => st.close cfg []
    | .undecodable => ⟨st, .failed .undecodable, ⟨[], st.mark, .fresh⟩⟩
  | c :: rest =>
    match st.feed cfg [c] with
    | .on st => run cfg st rest
    | .past st stop before => .past st stop before rest
    | .back st stop => .back st stop [c] rest

/-- A run from a cursor, the pending piece first. -/
def runFrom (cfg : Settings W) (c : Cursor) (world : W) : Outcome W :=
  let st := State.initial c.mark world
  match c.slot with
  | .pushed [] => st.close cfg c.rest
  | .pushed p =>
    match st.feed cfg p with
    | .on st => run cfg st c.rest
    | .past st stop before => .past st stop before c.rest
    | .back st stop => .back st stop p c.rest
  | _ => run cfg st c.rest

end LispForms
