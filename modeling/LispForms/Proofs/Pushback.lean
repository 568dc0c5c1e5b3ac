import LispForms.Proofs.Lockstep

/-! One piece of pushback is enough. Whatever is read from a text, and in whatever order, no reading
fails to push back what it has read too much. A push back fails only where none can be made: behind
another one, or before anything has been read. -/

namespace LispForms

variable {W : Type} {start : Cursor} {c d : Cursor} {log : List Handling}

/-! ### What is remembered of a text -/

/-- A text with the piece that is pending in it, and with the places that are remembered. -/
structure Tape where
  rest : List Char
  pending : Option Piece
  /-- The place of the last piece read. -/
  mark : Mark
  /-- The place of the piece before it, unless it has been given up. -/
  before : Option Mark

namespace Tape

def ofText (text : List Char) (line col : Option Int) : Tape :=
  ⟨text, none, .initial line col, none⟩

def read (t : Tape) : Piece × Tape :=
  let (p, rest) := match t.pending with
    | some p => (p, t.rest)
    | none => (t.rest.take 1, t.rest.drop 1)
  (p, ⟨rest, none, t.mark.next p, some t.mark⟩)

/-- Nothing may be pending, and there has to be a place to go back to. -/
def unread (t : Tape) (p : Piece) : Option Tape :=
  if t.pending.isSome then none else t.before.map fun m => ⟨t.rest, some p, m, none⟩

def handle (t : Tape) : Handling → Option Tape
  | .read p => if t.read.1 = p then some t.read.2 else none
  | .unread p => t.unread p

/-- The tape behind a log, which has the newest handling first. -/
def replay (t : Tape) : List Handling → Option Tape
  | [] => some t
  | a :: log => (t.replay log).bind (·.handle a)

def ofCursor (c : Cursor) : Tape :=
  match c.slot with
  | .fresh => ⟨c.rest, none, c.mark, none⟩
  | .taken before => ⟨c.rest, none, c.mark, some before⟩
  | .pushed p => ⟨c.rest, some p, c.mark, none⟩

theorem read_ofCursor (c : Cursor) : (ofCursor c).read = (c.read.1, ofCursor c.read.2) := by
  obtain ⟨rest, m, slot⟩ := c
  cases slot <;> cases rest <;> rfl

theorem unread_ofCursor (c : Cursor) (p : Piece) :
    (ofCursor c).unread p = (c.unread p).map ofCursor := by
  obtain ⟨rest, m, slot⟩ := c
  cases slot <;> rfl

theorem handle_ofCursor (c : Cursor) (a : Handling) :
    (ofCursor c).handle a = (c.handle a).map ofCursor := by
  cases a with
  | read p =>
    rw [handle, Cursor.handle, read_ofCursor]
    split_ifs <;> rfl
  | unread p => exact unread_ofCursor c p

/-- The slot of a cursor stands for the pending piece and the places that are remembered. -/
theorem replay_ofCursor (c : Cursor) (log : List Handling) :
    (ofCursor c).replay log = (c.replay log).map ofCursor := by
  induction log with
  | nil => rfl
  | cons a log ih =>
    rw [replay, Cursor.replay, ih, Option.bind_map, Option.map_bind]
    congr 1
    funext d
    exact handle_ofCursor d a

end Tape

/-! ### What a log tells -/

/-- The characters that have been taken from the text: what is read behind a push back is not. -/
def Handling.drawn : List Handling → List Char
  | [] => []
  | .read _ :: .unread q :: log => drawn (.unread q :: log)
  | .read p :: log => drawn log ++ p
  | .unread _ :: log => drawn log

/-- What the newest handling leaves in the slot of a cursor. -/
def Slot.Behind (s : Slot) : List Handling → Prop
  | [] => s = .fresh
  | .read _ :: _ => ∃ before, s = .taken before
  | .unread p :: _ => s = .pushed p

namespace Cursor

theorem replay_cons_eq_some {a : Handling} :
    c.replay (a :: log) = some d ↔ ∃ b, c.replay log = some b ∧ b.handle a = some d :=
  Option.bind_eq_some_iff

theorem handle_read_eq_some {p : Piece} :
    c.handle (.read p) = some d ↔ c.read.1 = p ∧ c.read.2 = d := by
  rw [handle]
  split_ifs with h <;> simp [h]

theorem slot_replay (hstart : start.slot = .fresh) (h : start.replay log = some d) :
    d.slot.Behind log := by
  match log with
  | [] =>
    obtain rfl := Option.some.inj h
    exact hstart
  | .read p :: log =>
    obtain ⟨b, -, hb⟩ := replay_cons_eq_some.1 h
    obtain ⟨-, rfl⟩ := handle_read_eq_some.1 hb
    exact ⟨b.mark, by rw [b.read_eq]⟩
  | .unread p :: log =>
    obtain ⟨b, -, hb⟩ := replay_cons_eq_some.1 h
    obtain ⟨before, -, rfl⟩ := unread_eq_some_iff.1 hb
    rfl

theorem rest_read (h : ∀ p, c.slot ≠ .pushed p) : c.read.1 ++ c.read.2.rest = c.rest := by
  obtain ⟨rest, m, slot⟩ := c
  cases slot with
  | pushed p => exact absurd rfl (h p)
  | fresh | taken => cases rest <;> rfl

/-- No character of the text is lost, and none is taken twice. -/
theorem drawn_append_rest (hstart : start.slot = .fresh) :
    ∀ {log : List Handling} {d : Cursor}, start.replay log = some d →
      Handling.drawn log ++ d.rest = start.rest
  | [], d, h => by
    obtain rfl := Option.some.inj h
    rfl
  | .unread p :: log, d, h => by
    obtain ⟨b, hlog, hb⟩ := replay_cons_eq_some.1 h
    obtain ⟨before, -, rfl⟩ := unread_eq_some_iff.1 hb
    rw [Handling.drawn]
    exact @drawn_append_rest hstart log b hlog
  | .read p :: .unread q :: log, d, h => by
    obtain ⟨b, hlog, hb⟩ := replay_cons_eq_some.1 h
    obtain ⟨-, rfl⟩ := handle_read_eq_some.1 hb
    have hslot : b.slot = .pushed q := slot_replay hstart hlog
    have hrest : b.read.2.rest = b.rest := by simp only [read, hslot]
    rw [Handling.drawn, hrest]
    exact drawn_append_rest hstart hlog
  | [.read p], d, h => by
    obtain ⟨b, hlog, hb⟩ := replay_cons_eq_some.1 h
    obtain ⟨rfl, rfl⟩ := handle_read_eq_some.1 hb
    have hslot : b.slot = .fresh := slot_replay hstart hlog
    rw [Handling.drawn, List.append_assoc, rest_read (by simp [hslot])]
    · exact drawn_append_rest hstart hlog
    · simp
  | .read p :: .read q :: log, d, h => by
    obtain ⟨b, hlog, hb⟩ := replay_cons_eq_some.1 h
    obtain ⟨rfl, rfl⟩ := handle_read_eq_some.1 hb
    obtain ⟨before, hslot⟩ := slot_replay hstart hlog
    rw [Handling.drawn, List.append_assoc, rest_read (by simp [hslot])]
    · exact drawn_append_rest hstart hlog
    · simp

/-- The next pieces that are read. -/
def pieces : ℕ → Cursor → List Piece
  | 0, _ => []
  | n + 1, c => c.read.1 :: pieces n c.read.2

/-- Where nothing is pending, the characters of the text are read one by one, and then its end. -/
theorem pieces_eq : ∀ (n : ℕ) {c : Cursor}, (∀ p, c.slot ≠ .pushed p) →
    c.pieces n = (List.range n).map fun i => (c.rest.drop i).take 1
  | 0, _, _ => rfl
  | n + 1, c, h => by
    have hread : c.read.1 = c.rest.take 1 ∧ c.read.2.rest = c.rest.drop 1 := by
      obtain ⟨rest, m, slot⟩ := c
      cases slot with
      | pushed p => exact absurd rfl (h p)
      | fresh | taken => cases rest <;> exact ⟨rfl, rfl⟩
    have hslot : ∀ p, c.read.2.slot ≠ .pushed p := by
      rw [c.read_eq]
      simp
    rw [pieces, pieces_eq n hslot, List.range_succ_eq_map, List.map_cons, List.map_map, hread.1,
      hread.2]
    simp [Function.comp_def]

end Cursor

/-! ### What a context comes to -/

variable {h : Hand start W}

/-- The run that does what is done by hand. -/
theorem suits_settings (sv : Services W) (goal : Goal) (endIsError : Bool) (h : Hand start W) :
    (h.context.settings sv goal endIsError).Suits sv h := ⟨rfl, rfl, rfl, rfl⟩

theorem Outcome.Meets.quiet {α : Type} {o : Outcome W} {f : Outcome W → Except Fault α}
    {r : Except Fault α} (ho : o.quiet.Meets f r h) (hf : f o.quiet = f o) : o.Meets f r h where
  result := hf.symm.trans ho.result
  cursor := ho.cursor
  world := ho.world
  ne_pushback := ho.ne_pushback

/-- The run and the routine leave the same context behind. -/
theorem Outcome.Meets.context {α : Type} {o : Outcome W} {f : Outcome W → Except Fault α}
    {r : Except Fault α} {h' : Hand start W} (ho : o.Meets f r h') (hon : h.Onward h') :
    h'.context = h.context.after o := by
  rw [Hand.context, hon.suppressions, ← ho.cursor, ← ho.world]
  rfl

namespace Routine

theorem next_context (sv : Services W) (endIsError : Bool) (h : Hand start W) :
    ∃ r h', next sv endIsError (h.cursor.ahead.length + 2) h = some (r, h') ∧
      h.context.next sv endIsError = (r, h'.context) ∧ r ≠ .error .pushback := by
  obtain ⟨r, h', heq, hon, hrun⟩ := next_spec sv endIsError _ h le_rfl
  have ho : (runFrom (h.context.settings sv .one endIsError) h.cursor h.world).Meets Outcome.first
      r h' := by
    refine Outcome.Meets.quiet ?_ rfl
    rw [runFrom_eq_resume rfl]
    exact hrun (suits_settings sv .one endIsError h) rfl rfl
  refine ⟨r, h', heq, ?_, ho.ne_pushback⟩
  rw [ho.context hon, ← ho.result]
  rfl

theorem items_context (sv : Services W) (close : Piece) (h : Hand start W) :
    ∃ r h', itemsFrom sv close (h.cursor.ahead.length + 2) [] h = some (r, h') ∧
      h.context.items sv close = (r, h'.context) ∧ r ≠ .error .pushback := by
  obtain ⟨r, h', heq, hon, hrun⟩ := itemsFrom_spec sv _ close [] h le_rfl
  have ho : (runFrom (h.context.settings sv (.upTo close) false) h.cursor h.world).Meets
      Outcome.before r h' := by
    refine Outcome.Meets.quiet ?_ rfl
    rw [runFrom_eq_resume rfl]
    have hfound := @hrun _ .outer (suits_settings sv (.upTo close) false h) rfl
    cases r with
    | error f => exact Outcome.Faults.meets_before hfound
    | ok vs =>
      refine Eq.symm hfound ▸ ⟨?_, rfl, rfl, nofun⟩
      exact congrArg Except.ok (List.reverse_reverse vs)
  refine ⟨r, h', heq, ?_, ho.ne_pushback⟩
  rw [ho.context hon, ← ho.result]
  rfl

theorem token_context (first : Piece) (h : Hand start W) :
    ∃ r h', tokenFrom (h.cursor.ahead.length + 1) first.reverse h = some (r, h') ∧
      h.context.token first = (r, h'.context) ∧ r ≠ .error .pushback := by
  obtain ⟨token, h', heq, hon, hw, htoken, -⟩ :=
    tokenFrom_spec _ first.reverse h (Nat.lt_succ_self _)
  refine ⟨.ok token, h', heq, ?_, nofun⟩
  have hcursor : Context.tokenFrom first.reverse h.context.cursor = (token, .ok h'.cursor) := htoken
  have hcontext : h'.context = { h.context with cursor := h'.cursor } := by
    rw [Hand.context, hon.suppressions, hw]
    rfl
  rw [Context.token, hcursor, hcontext]

theorem unread_context (p : Piece) (h : Hand start W) :
    ∃ r h', unread p h = some (r, h') ∧ h.context.unread p = (r, h'.context) := by
  cases hc : h.cursor.unread p with
  | some c =>
    refine ⟨_, _, unread_eq hc, ?_⟩
    have hcursor : h.context.cursor.unread p = some c := hc
    rw [Context.unread, hcursor]
    rfl
  | none =>
    refine ⟨_, _, unread_eq_error hc, ?_⟩
    have hcursor : h.context.cursor.unread p = none := hc
    rw [Context.unread, hcursor]

end Routine

/-! ### Whoever reads a text -/

/-- What is asked of a context. -/
inductive Act where
  | read
  | unread (p : Piece)
  | token (first : Piece)
  | items (close : Piece)
  | next (endIsError : Bool)
  | suppress (on : Bool)
  | release
  deriving DecidableEq, Repr

inductive Reply where
  | done
  | piece (p : Piece)
  | token (token : List Char)
  | forms (vs : List Form)
  | form (v : Option Form)

namespace Act

def run (sv : Services W) : Act → Context W → Except Fault Reply × Context W
  | .read, c => (.ok (.piece c.read.1), c.read.2)
  | .unread p, c => (c.unread p).map (·.map fun _ => .done) id
  | .token first, c => (c.token first).map (·.map .token) id
  | .items close, c => (c.items sv close).map (·.map .forms) id
  | .next endIsError, c => (c.next sv endIsError).map (·.map .form) id
  | .suppress on, c => (.ok .done, c.suppress on)
  | .release, c => (.ok .done, c.release)

/-- A routine is given as many turns as it can need. -/
def byHand (sv : Services W) : Act → Routine start W Reply
  | .read => do return .piece (← Routine.read)
  | .unread p => do
    Routine.unread p
    return .done
  | .token first => fun h =>
    (do return .token (← Routine.tokenFrom (h.cursor.ahead.length + 1) first.reverse) :
      Routine start W Reply) h
  | .items close => fun h =>
    (do return .forms (← Routine.itemsFrom sv close (h.cursor.ahead.length + 2) []) :
      Routine start W Reply) h
  | .next endIsError => fun h =>
    (do return .form (← Routine.next sv endIsError (h.cursor.ahead.length + 2)) :
      Routine start W Reply) h
  | .suppress on => fun h => some (.ok .done, { h with suppressions := on :: h.suppressions })
  | .release => fun h => some (.ok .done, { h with suppressions := h.suppressions.tail })

/-- The replies, one by one, and the context that is left; a fault does not end it. -/
def runAll (sv : Services W) : List Act → Context W → List (Except Fault Reply) × Context W
  | [], c => ([], c)
  | a :: as, c =>
    let (r, c) := a.run sv c
    let (rs, c) := runAll sv as c
    (r :: rs, c)

def allByHand (sv : Services W) :
    List Act → Hand start W → Option (List (Except Fault Reply) × Hand start W)
  | [], h => some ([], h)
  | a :: as, h => (a.byHand sv h).bind fun x =>
    (allByHand sv as x.2).map fun y => (x.1 :: y.1, y.2)

variable {sv : Services W} {a : Act}

theorem map_ne_pushback {α β : Type} {r : Except Fault α} (f : α → β)
    (hr : r ≠ .error .pushback) : r.map f ≠ .error .pushback := by
  cases r with
  | ok x => exact nofun
  | error e => exact fun he => hr (congrArg _ (Except.error.inj he))

/-- What is asked of a context can be done by hand, and nothing takes back more than it may, but for
a push back. -/
theorem byHand_spec (sv : Services W) (a : Act) (h : Hand start W) :
    ∃ r h', a.byHand sv h = some (r, h') ∧ a.run sv h.context = (r, h'.context) ∧
      ((∀ p, a ≠ .unread p) → r ≠ .error .pushback) := by
  cases a with
  | read => exact ⟨_, _, rfl, rfl, fun _ => nofun⟩
  | unread p =>
    obtain ⟨r, h', heq, hcontext⟩ := Routine.unread_context p h
    exact ⟨_, h', Routine.bind_return (fun _ => Reply.done) heq, by rw [run, hcontext]; rfl,
      fun ha => absurd rfl (ha p)⟩
  | token first =>
    obtain ⟨r, h', heq, hcontext, hne⟩ := Routine.token_context first h
    exact ⟨_, h', Routine.bind_return Reply.token heq, by rw [run, hcontext]; rfl,
      fun _ => map_ne_pushback _ hne⟩
  | items close =>
    obtain ⟨r, h', heq, hcontext, hne⟩ := Routine.items_context sv close h
    exact ⟨_, h', Routine.bind_return Reply.forms heq, by rw [run, hcontext]; rfl,
      fun _ => map_ne_pushback _ hne⟩
  | next endIsError =>
    obtain ⟨r, h', heq, hcontext, hne⟩ := Routine.next_context sv endIsError h
    exact ⟨_, h', Routine.bind_return Reply.form heq, by rw [run, hcontext]; rfl,
      fun _ => map_ne_pushback _ hne⟩
  | suppress on => exact ⟨_, _, rfl, rfl, fun _ => nofun⟩
  | release => exact ⟨_, _, rfl, rfl, fun _ => nofun⟩

/-- However often a context is asked, and whatever comes of it, it can all be done by hand. -/
theorem allByHand_spec (sv : Services W) : ∀ (as : List Act) (h : Hand start W),
    ∃ rs h', allByHand sv as h = some (rs, h') ∧ runAll sv as h.context = (rs, h'.context)
  | [], h => ⟨[], h, rfl, rfl⟩
  | a :: as, h => by
    obtain ⟨r, h₁, heq, hrun, -⟩ := byHand_spec sv a h
    obtain ⟨rs, h', heqs, hruns⟩ := allByHand_spec sv as h₁
    refine ⟨r :: rs, h', ?_, ?_⟩
    · rw [allByHand, heq, Option.bind_some, heqs]
      rfl
    · simp only [runAll, hrun, hruns]

theorem run_ne_pushback (h : Hand start W) (ha : ∀ p, a ≠ .unread p) :
    (a.run sv h.context).1 ≠ .error .pushback := by
  obtain ⟨r, h', -, hrun, hne⟩ := byHand_spec sv a h
  rw [hrun]
  exact hne ha

/-- A piece takes the place of the one just read, with the text behind it as it was. -/
theorem run_unread_taken {before : Mark} (hslot : h.cursor.slot = .taken before) (p : Piece) :
    (unread p).run sv h.context =
      (.ok .done, { h.context with cursor := ⟨h.cursor.rest, before, .pushed p⟩ }) := by
  have hcursor : h.context.cursor.unread p = some ⟨h.cursor.rest, before, .pushed p⟩ :=
    Cursor.unread_eq_some_iff.2 ⟨before, hslot, rfl⟩
  rw [run, Context.unread, hcursor]
  rfl

theorem run_unread_refused (hslot : ∀ before, h.cursor.slot ≠ .taken before) (p : Piece) :
    (unread p).run sv h.context = (.error .pushback, h.context) ∧
      (Tape.ofCursor h.cursor).unread p = none := by
  have hcursor : h.cursor.unread p = none := by
    rw [Option.eq_none_iff_forall_not_mem]
    intro c hc
    obtain ⟨before, hbefore, -⟩ := Cursor.unread_eq_some_iff.1 hc
    exact hslot before hbefore
  have hcontext : h.context.cursor.unread p = none := hcursor
  rw [run, Context.unread, hcontext, Tape.unread_ofCursor, hcursor]
  exact ⟨rfl, rfl⟩

/-- Whatever has been asked of a context, it comes from pieces that were read and pushed back one by
one, each character of the text once. Nothing but a push back is ever refused, and that only behind
another one, or before anything has been read; then it changes nothing. Else the piece is read next,
and the text goes on behind it. -/
theorem pushback_suffices (sv : Services W) (text : List Char) (line col : Option Int) (w : W)
    (as : List Act) :
    ∃ rs, ∃ h : Hand (.ofText text line col) W,
      allByHand sv as (.ofText text line col w) = some (rs, h) ∧
      runAll sv as (.ofText text line col w) = (rs, h.context) ∧
      (Tape.ofText text line col).replay h.log = some (.ofCursor h.cursor) ∧
      Handling.drawn h.log ++ h.cursor.rest = text ∧
      ∀ a : Act, match a, h.log with
        | .unread p, .read _ :: _ => ∃ c, a.run sv h.context = (.ok .done, c) ∧
            (Tape.ofCursor h.cursor).unread p = some (.ofCursor c.cursor) ∧
            ∀ n, c.cursor.pieces (n + 1) =
              p :: (List.range n).map fun i => (h.cursor.rest.drop i).take 1
        | .unread p, _ => a.run sv h.context = (.error .pushback, h.context) ∧
            (Tape.ofCursor h.cursor).unread p = none
        | _, _ => (a.run sv h.context).1 ≠ .error .pushback := by
  obtain ⟨rs, h, heq, hrun⟩ := allByHand_spec sv as (.ofText text line col w)
  have hstart : (Cursor.ofText text line col).slot = .fresh := rfl
  refine ⟨rs, h, heq, hrun, ?_, Cursor.drawn_append_rest hstart h.replays, fun a => ?_⟩
  · show (Tape.ofCursor (.ofText text line col)).replay h.log = _
    rw [Tape.replay_ofCursor, h.replays]
    rfl
  cases a with
  | unread p =>
    have hslot := Cursor.slot_replay hstart h.replays
    rcases hlog : h.log with _ | ⟨q | q, log⟩ <;> rw [hlog] at hslot
    · have hfresh : h.cursor.slot = .fresh := hslot
      exact run_unread_refused (by simp [hfresh]) p
    · obtain ⟨before, hslot⟩ := hslot
      have hpieces (n : ℕ) := @Cursor.pieces_eq n ⟨h.cursor.rest, before.next p, .taken before⟩
        (by simp)
      refine ⟨_, run_unread_taken hslot p, ?_, fun n => congrArg (p :: ·) (hpieces n)⟩
      rw [Tape.unread_ofCursor, Cursor.unread_eq_some_iff.2 ⟨before, hslot, rfl⟩]
      rfl
    · have hpending : h.cursor.slot = .pushed q := hslot
      exact run_unread_refused (by simp [hpending]) p
  | read | token | items | next | suppress | release => exact run_ne_pushback h nofun

end Act

end LispForms
