import LispForms.Proofs.Step
import LispForms.Reader.Context

/-! Reading by recursive descent. A routine takes pieces from a text, pushes some of them back, and
calls itself for a list in a list, where the machine keeps a stack. It has no way to its text but by
reading pieces and pushing them back, and all that it does is logged. -/

namespace LispForms

/-- What is done to a text, with the piece that is read or pushed back. -/
inductive Handling where
  | read (p : Piece)
  | unread (p : Piece)
  deriving DecidableEq, Repr

namespace Cursor

/-- The cursor behind a handling, if it can happen. -/
def handle (c : Cursor) : Handling → Option Cursor
  | .read p => if c.read.1 = p then some c.read.2 else none
  | .unread p => c.unread p

/-- The cursor behind a log, which has the newest handling first. -/
def replay (c : Cursor) : List Handling → Option Cursor
  | [] => some c
  | a :: log => (c.replay log).bind (·.handle a)

end Cursor

/-- A text being read by hand, and how it came to stand where it does. -/
structure Hand (start : Cursor) (W : Type) where
  log : List Handling
  cursor : Cursor
  replays : start.replay log = some cursor
  suppressions : List Bool
  world : W

/-- What is done by hand; none if it takes more turns than it is given. -/
abbrev Routine (start : Cursor) (W α : Type) := ExceptT Fault (StateT (Hand start W) Option) α

/-- A character with a meaning of its own. -/
def Piece.isSpecial : Piece → Bool
  | [c] => LispForms.isSpecial c
  | _ => false

def Piece.isBlank : Piece → Bool
  | [] => false
  | c :: _ => Text.isBlank c

namespace Hand

variable {start : Cursor} {W : Type}

def ofText (text : List Char) (line col : Option Int) (w : W) :
    Hand (.ofText text line col) W :=
  ⟨[], .ofText text line col, rfl, [], w⟩

def context (h : Hand start W) : Context W := ⟨h.cursor, h.suppressions, h.world⟩

/-- The hand behind a read. -/
def afterRead (h : Hand start W) : Hand start W where
  log := .read h.cursor.read.1 :: h.log
  cursor := h.cursor.read.2
  replays := by rw [Cursor.replay, h.replays, Option.bind_some, Cursor.handle, if_pos rfl]
  suppressions := h.suppressions
  world := h.world

/-- The hand behind a push back that leads to the cursor `c`. -/
def afterUnread (h : Hand start W) (p : Piece) (c : Cursor) (hc : h.cursor.unread p = some c) :
    Hand start W where
  log := .unread p :: h.log
  cursor := c
  replays := by rw [Cursor.replay, h.replays, Option.bind_some, Cursor.handle, hc]
  suppressions := h.suppressions
  world := h.world

end Hand

namespace Routine

variable {start : Cursor} {W : Type}

/-! ### Pieces -/

def read : Routine start W Piece := fun h => some (.ok h.cursor.read.1, h.afterRead)

def unread (p : Piece) : Routine start W Unit := fun h =>
  match hc : h.cursor.unread p with
  | some c => some (.ok (), h.afterUnread p c hc)
  | none => some (.error .pushback, h)

/-! ### What is known -/

def place : Routine start W Mark := fun h => some (.ok h.cursor.mark, h)

def suppressing : Routine start W Bool := fun h => some (.ok h.context.suppressing, h)

def fail {α : Type} (p : Problem) : Routine start W α := fun h =>
  some (.error (h.context.locate p), h)

def interpret (sv : Services W) (token : List Char) : Routine start W Form := fun h =>
  let (r, w) := sv.interpret h.context.locate token h.world
  some (r, { h with world := w })

/-- Takes more turns than it is given. -/
def endless {α : Type} : Routine start W α := fun _ => none

/-! ### Atoms -/

/-- The token that goes on behind what has been gathered of it. -/
def tokenFrom : ℕ → List Char → Routine start W (List Char)
  | 0, _ => endless
  | n + 1, gathered => do
    let p ← read
    if p.endsToken then
      unread p
      return gathered.reverse
    else tokenFrom n (p.reverse ++ gathered)

/-- The character that a piece stands for behind a backslash in a string. -/
def escape? : Piece → Option Char
  | [c] => State.unescape? c
  | _ => none

def stringFrom : ℕ → List Char → Routine start W Form
  | 0, _ => endless
  | n + 1, gathered => do
    let p ← read
    if p = [] then fail (.unfinished .string)
    else if p = ['"'] then return .text (.ofList gathered.reverse)
    else if p = ['\\'] then
      let q ← read
      if q = [] then fail (.unfinished .string)
      else match escape? q with
        | some x => stringFrom n (x :: gathered)
        | none => fail (.escape (.ofList q))
    else stringFrom n (p.reverse ++ gathered)

def character (n : ℕ) : Routine start W Form := do
  let p ← read
  if p = [] then fail (.unfinished .character)
  else
    let name ← tokenFrom n p.reverse
    match Token.character? name with
    | some c => return .text (.singleton c)
    | none => fail (.character (.ofList name))

def comment : ℕ → Routine start W Unit
  | 0 => endless
  | n + 1 => do
    let p ← read
    if p = [] ∨ p = ['\n'] ∨ p = ['\r'] then return ()
    else comment n

/-! ### Forms -/

/-- What a special character begins: a form, or a comment. The items of a list come from `items`. -/
def special (n : ℕ) (items : Routine start W (List Form)) (p : Piece) :
    Routine start W (Option Form) := do
  if p = ['"'] then return some (← stringFrom n [])
  else if p = [';'] then
    comment n
    return none
  else if p = ['\\'] then return some (← character n)
  else if p = ['('] then
    let first ← place
    let vs ← items
    let last ← place
    return some (.list vs (some (.between first last)))
  else fail (.delimiter (.ofList p))

section Special

variable (n : ℕ) (items : Routine start W (List Form))

theorem special_quote : special n items ['"'] = do return some (← stringFrom n []) := rfl

theorem special_semicolon : special n items [';'] = do comment n; return none := rfl

theorem special_backslash : special n items ['\\'] = do return some (← character n) := rfl

theorem special_opening : special n items ['('] = (do
    let first ← place
    let vs ← items
    let last ← place
    return some (.list vs (some (.between first last)))) := rfl

theorem special_closing : special n items [')'] = fail (.delimiter (.ofList [')'])) := rfl

end Special

mutual

/-- The forms before a closing piece, behind those read already, newest first. -/
def itemsFrom (sv : Services W) (close : Piece) : ℕ → List Form → Routine start W (List Form)
  | 0, _ => endless
  | n + 1, items => do
    let p ← read
    if p.isBlank then itemsFrom sv close n items
    else if p = [] then fail (.unfinished .form)
    else if p = close then return items.reverse
    else if p.isSpecial then
      let v ← special n (itemsFrom sv [')'] n []) p
      itemsFrom sv close n (v.toList ++ items)
    else
      unread p
      let v ← next sv true n
      itemsFrom sv close n (v.toList ++ items)

/-- The next form; none at the end of the text, unless that is an error. -/
def next (sv : Services W) (endIsError : Bool) : ℕ → Routine start W (Option Form)
  | 0 => endless
  | n + 1 => do
    let p ← read
    if p.isBlank then next sv endIsError n
    else if p = [] then
      if endIsError then fail (.unfinished .form) else return none
    else if p.isSpecial then
      let v ← special n (itemsFrom sv [')'] n []) p
      match v with
      | none => next sv endIsError n
      | some v => return some (if ← suppressing then .nil else v)
    else
      let token ← tokenFrom n p.reverse
      if ← suppressing then return some .nil else return some (← interpret sv token)

end

/-! ### Running a routine -/

variable {α β : Type} {x : Routine start W α} {f : α → Routine start W β} {h h' : Hand start W}

theorem bind_ok {a : α} (hx : x h = some (.ok a, h')) : (x >>= f) h = f a h' := by
  show (x h).bind _ = _
  rw [hx]
  rfl

theorem bind_error {e : Fault} (hx : x h = some (.error e, h')) :
    (x >>= f) h = some (.error e, h') := by
  show (x h).bind _ = _
  rw [hx]
  rfl

/-- What is made of a result, and of no fault. -/
theorem bind_return (f : α → β) {r : Except Fault α} (hx : x h = some (r, h')) :
    (do return f (← x) : Routine start W β) h = some (r.map f, h') := by
  cases r with
  | ok a => exact bind_ok hx
  | error e => exact bind_error hx

theorem read_eq (h : Hand start W) : read h = some (.ok h.cursor.read.1, h.afterRead) := rfl

theorem unread_eq {p : Piece} {c : Cursor} (hc : h.cursor.unread p = some c) :
    unread p h = some (.ok (), h.afterUnread p c hc) := by
  unfold unread
  split
  next d hd =>
    obtain rfl : d = c := Option.some.inj (hd.symm.trans hc)
    rfl
  next hd => cases hd.symm.trans hc

theorem unread_eq_error {p : Piece} (hc : h.cursor.unread p = none) :
    unread p h = some (.error .pushback, h) := by
  unfold unread
  split
  next d hd => cases hd.symm.trans hc
  next => rfl

end Routine
end LispForms
