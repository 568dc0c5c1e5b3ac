import LispForms.Reader.Machine

/-! Reading piece by piece and form by form from one text: what is read next depends on
where the text stands, whoever has read from it. -/

namespace LispForms

/-- A text that is being read, together with the world that its readings work on. -/
structure Context (W : Type) where
  cursor : Cursor
  /-- The suppressions in force, innermost first; one of them may be off. -/
  suppressions : List Bool
  world : W

namespace Context

variable {W : Type}

def ofText (text : List Char) (line col : Option Int) (world : W) : Context W :=
  ⟨.ofText text line col, [], world⟩

/-- Only the innermost suppression counts. -/
def suppressing (c : Context W) : Bool := c.suppressions.head? == some true

def suppress (c : Context W) (on : Bool) : Context W :=
  { c with suppressions := on :: c.suppressions }

def release (c : Context W) : Context W := { c with suppressions := c.suppressions.tail }

/-! ### Pieces -/

def read (c : Context W) : Piece × Context W :=
  let (p, cursor) := c.cursor.read
  (p, { c with cursor })

def unread (c : Context W) (p : Piece) : Except Fault Unit × Context W :=
  match c.cursor.unread p with
  | some cursor => (.ok (), { c with cursor })
  | none => (.error .pushback, c)

/-! ### Tokens -/

/-- Reads a text on from inside a token: the token, the cursor behind the piece that ends it,
and that piece. -/
def scanToken (gathered : List Char) (mark : Mark) : List Char → List Char × Cursor × Piece
  | [] => (gathered.reverse, ⟨[], mark.next [], .taken mark⟩, [])
  | x :: xs =>
    if Piece.endsToken [x] then (gathered.reverse, ⟨xs, mark.next [x], .taken mark⟩, [x])
    else scanToken (x :: gathered) (mark.next [x]) xs

/-- Reads on from inside a token, up to the piece that ends it, and pushes that back. -/
def tokenFrom (gathered : List Char) (c : Cursor) : List Char × Except Fault Cursor :=
  let (token, behind, p) :=
    match c.slot with
    | .pushed p =>
      if p.endsToken then (gathered.reverse, c.read.2, p)
      else scanToken (p.reverse ++ gathered) (c.mark.next p) c.rest
    | _ => scanToken gathered c.mark c.rest
  match behind.unread p with
  | some c => (token, .ok c)
  | none => (token, .error .pushback)

/-- The token that begins with a piece already read. -/
def token (c : Context W) (first : Piece) : Except Fault (List Char) × Context W :=
  match tokenFrom first.reverse c.cursor with
  | (token, .ok cursor) => (.ok token, { c with cursor })
  | (_, .error f) => (.error f, c)

/-! ### Forms -/

/-- Settings for a reading in the context, whose text has no name. -/
def settings (c : Context W) (sv : Services W) (goal : Goal) (endIsError : Bool) : Settings W :=
  ⟨sv, goal, c.suppressing, endIsError, none, .complete⟩

/-- The context after a run. -/
def after (c : Context W) (o : Outcome W) : Context W :=
  { c with cursor := o.cursor, world := o.state.world }

/-- The next form; none at the end of the text, unless that is an error. -/
def next (sv : Services W) (endIsError : Bool) (c : Context W) :
    Except Fault (Option Form) × Context W :=
  let o := runFrom (c.settings sv .one endIsError) c.cursor c.world
  let result := match o.stop with
    | .found => .ok o.forms.head?
    | .ended => .ok none
    | .failed f => .error f
  (result, c.after o)

/-- The forms before a closing piece, which is read too. -/
def items (sv : Services W) (close : Piece) (c : Context W) :
    Except Fault (List Form) × Context W :=
  let o := runFrom (c.settings sv (.upTo close) false) c.cursor c.world
  let result := match o.stop with
    | .failed f => .error f
    | _ => .ok o.forms
  (result, c.after o)

/-- Gives a problem the place of the last piece read. -/
def locate (c : Context W) (p : Problem) : Fault :=
  .misread ⟨p, c.cursor.mark.line, c.cursor.mark.col, none⟩

def resolve (sv : Services W) (name : String) (c : Context W) :
    Except Fault Host.Ref × Context W :=
  let (r, world) := sv.resolve c.locate name c.world
  (r, { c with world })

/-- The value of a token, wherever it comes from. -/
def interpret (sv : Services W) (token : List Char) (c : Context W) :
    Except Fault Form × Context W :=
  let (r, world) := sv.interpret c.locate token c.world
  (r, { c with world })

end Context
end LispForms
