import LispForms.Proofs.Descent
import LispForms.Proofs.Passage

/-! The machine and the reading by hand. A run of the machine is resumed from a cursor, and where a
routine reads a piece, the run takes it too. A piece that ends a token is pushed back by hand and
read again; the machine looks at it twice, which comes to the same. -/

namespace LispForms

variable {W : Type} {start : Cursor} {cfg : Settings W} {ls : List OpenList} {fs : List Form}
  {w : W} {g : List Char} {k : List Char → Mode} {c : Cursor} {st st' : State W}

open State

/-! ### Cursors and hands -/

theorem Piece.ne_nil_of_isBlank {p : Piece} (h : p.isBlank = true) : p ≠ [] := by
  rintro rfl
  cases h

theorem Piece.ne_nil_of_not_endsToken {p : Piece} (h : ¬ p.endsToken = true) : p ≠ [] := by
  rintro rfl
  exact h rfl

namespace Cursor

theorem read_eq (c : Cursor) :
    c.read = (c.read.1, ⟨c.read.2.rest, c.mark.next c.read.1, .taken c.mark⟩) := by
  obtain ⟨rest, m, slot⟩ := c
  cases slot <;> cases rest <;> rfl

theorem mark_read (c : Cursor) : c.read.2.mark = c.mark.next c.read.1 := by rw [read_eq]

theorem ahead_read (c : Cursor) : c.ahead = c.read.1 ++ c.read.2.rest := by
  obtain ⟨rest, m, slot⟩ := c
  cases slot <;> cases rest <;> rfl

theorem ahead_eq_rest (c : Cursor) : c.read.2.ahead = c.read.2.rest := by rw [read_eq, ahead]

theorem length_read (h : c.read.1 ≠ []) : c.read.2.ahead.length < c.ahead.length := by
  have hpos := List.length_pos_iff.2 h
  rw [ahead_eq_rest, ahead_read, List.length_append]
  omega

/-- The cursor when the next piece has been read and pushed back. -/
def held (c : Cursor) : Cursor := ⟨c.read.2.rest, c.mark, .pushed c.read.1⟩

theorem read_held (c : Cursor) : c.held.read = c.read := by
  rw [c.read_eq]
  rfl

theorem ahead_held (c : Cursor) : c.held.ahead = c.ahead := by
  rw [ahead_read c]
  rfl

/-- At the end of the text only the end is read, over and over. -/
theorem read_end (hslot : ∀ p, c.slot ≠ .pushed p) (h : c.read.1 = []) :
    c.read.2.read.1 = [] ∧ c.read.2.read.2.rest = c.read.2.rest := by
  obtain ⟨rest, m, slot⟩ := c
  cases slot with
  | pushed p => exact absurd rfl (hslot p)
  | fresh | taken =>
    cases rest with
    | nil => exact ⟨rfl, rfl⟩
    | cons x xs => cases h

theorem unread_held (c : Cursor) : c.read.2.unread c.read.1 = some c.held :=
  unread_read c c.read.1

end Cursor

namespace Hand

variable {h h' h'' : Hand start W}

/-- A hand has moved on in its text. -/
structure Onward (h h' : Hand start W) : Prop where
  suppressions : h'.suppressions = h.suppressions
  ahead : h'.cursor.ahead.length ≤ h.cursor.ahead.length

theorem Onward.trans (hh : h.Onward h') (hh' : h'.Onward h'') : h.Onward h'' :=
  ⟨hh'.suppressions.trans hh.suppressions, hh'.ahead.trans hh.ahead⟩

theorem onward_afterRead (h : Hand start W) : h.Onward h.afterRead := by
  refine ⟨rfl, ?_⟩
  have hahead : h.afterRead.cursor.ahead = h.cursor.read.2.rest := h.cursor.ahead_eq_rest
  rw [hahead, h.cursor.ahead_read, List.length_append]
  omega

theorem length_afterRead (hp : h.cursor.read.1 ≠ []) :
    h.afterRead.cursor.ahead.length < h.cursor.ahead.length := Cursor.length_read hp

theorem slot_afterRead (h : Hand start W) (p : Piece) : h.afterRead.cursor.slot ≠ .pushed p := by
  have hslot : h.afterRead.cursor.slot = .taken h.cursor.mark := congrArg Cursor.slot
    (congrArg Prod.snd h.cursor.read_eq)
  rw [hslot]
  exact Slot.noConfusion

theorem mark_afterRead (h : Hand start W) :
    h.afterRead.cursor.mark = h.cursor.mark.next h.cursor.read.1 := h.cursor.mark_read

/-- The hand when the next piece has been read and pushed back. -/
def held (h : Hand start W) : Hand start W :=
  h.afterRead.afterUnread h.cursor.read.1 h.cursor.held h.cursor.unread_held

theorem onward_held (h : Hand start W) : h.Onward h.held :=
  ⟨rfl, le_of_eq (congrArg List.length h.cursor.ahead_held)⟩

theorem unread_afterRead (h : Hand start W) :
    Routine.unread h.cursor.read.1 h.afterRead = some (.ok (), h.held) :=
  Routine.unread_eq h.cursor.unread_held

end Hand

/-! ### Resuming a run -/

/-- The outcome without what the machine is left in the middle of. -/
def Outcome.quiet (o : Outcome W) : Outcome W :=
  { o with state := { o.state with mode := .between } }

/-- The rest of a run that has come to the state `st` with the cursor `c`. -/
def resume (cfg : Settings W) (st : State W) (c : Cursor) : Outcome W :=
  Outcome.quiet <|
    if c.read.1 = [] then st.close cfg c.read.2.rest
    else match st.feed cfg c.read.1 with
      | .on st => run cfg st c.read.2.rest
      | .past st stop before => .past st stop before c.read.2.rest
      | .back st stop => .back st stop c.read.1 c.read.2.rest

theorem resume_eq_run (he : cfg.ending = .complete) (st : State W) (hc : ∀ p, c.slot ≠ .pushed p) :
    resume cfg st c = (run cfg st c.rest).quiet := by
  obtain ⟨rest, m, slot⟩ := c
  cases slot with
  | pushed p => exact absurd rfl (hc p)
  | fresh | taken =>
    cases rest with
    | nil => rw [run_nil st he]; rfl
    | cons x xs => rw [run]; rfl

theorem runFrom_eq_resume (he : cfg.ending = .complete) (c : Cursor) (w : W) :
    (runFrom cfg c w).quiet = resume cfg (.initial c.mark w) c := by
  obtain ⟨rest, m, slot⟩ := c
  cases slot with
  | fresh | taken => exact (resume_eq_run he (.initial m w) (by simp)).symm
  | pushed p => cases p <;> rfl

theorem resume_nil (h : c.read.1 = []) (st : State W) :
    resume cfg st c = (st.close cfg c.read.2.rest).quiet := congrArg Outcome.quiet (if_pos h)

theorem resume_on (he : cfg.ending = .complete) (h : c.read.1 ≠ [])
    (hf : st.feed cfg c.read.1 = .on st') : resume cfg st c = resume cfg st' c.read.2 := by
  have hrun : resume cfg st' c.read.2 = (run cfg st' c.read.2.rest).quiet := by
    refine resume_eq_run he st' fun p hp => ?_
    rw [c.read_eq] at hp
    cases hp
  rw [hrun, resume, if_neg h, hf]

theorem resume_past {stop : Stop} {before : Mark} (h : c.read.1 ≠ [])
    (hf : st.feed cfg c.read.1 = .past st' stop before) :
    resume cfg st c = (Outcome.past st' stop before c.read.2.rest).quiet := by
  rw [resume, if_neg h, hf]

theorem resume_held (st : State W) (c : Cursor) : resume cfg st c.held = resume cfg st c := by
  rw [resume, resume, c.read_held]

/-- The outcome when a form is complete: the run is at its goal, or goes on. -/
def deliver (cfg : Settings W) (v : Form) (ls : List OpenList) (fs : List Form) (w : W)
    (c : Cursor) : Outcome W :=
  let st := put cfg v ⟨.between, ls, fs, c.mark, w⟩
  if st.satisfied cfg then ⟨st, .found, c⟩ else resume cfg st c

/-- The outcome when a token or a character is complete. -/
def settled (cfg : Settings W) (st : State W) (c : Cursor) : Outcome W :=
  match st.settle cfg with
  | (st, some f) => Outcome.quiet ⟨st, .failed f, c⟩
  | (st, none) => if st.satisfied cfg then Outcome.quiet ⟨st, .found, c⟩ else resume cfg st c

/-! ### Tokens -/

theorem resume_gather (he : cfg.ending = .complete) (hk : Gathers k)
    (h : c.read.1.endsToken = false) : resume cfg ⟨k g, ls, fs, c.mark, w⟩ c =
      resume cfg ⟨k (c.read.1.reverse ++ g), ls, fs, c.read.2.mark, w⟩ c.read.2 := by
  refine resume_on he (Piece.ne_nil_of_not_endsToken (by simp [h])) ?_
  rw [c.mark_read]
  cases hk <;> simp [feed, take, Mode.endsAt, advance, h]

/-- What ends a token is still there when the token has been settled. -/
theorem resume_ends (hk : Gathers k) (h : c.read.1.endsToken = true) :
    resume cfg ⟨k g, ls, fs, c.mark, w⟩ c = settled cfg ⟨k g, ls, fs, c.mark, w⟩ c.held := by
  have hends : (k g).endsAt c.read.1 = true := by cases hk <;> exact h
  have hback {st' : State W} (stop : Stop) (hm : st'.mark = c.mark) :
      Outcome.back st' stop c.read.1 c.read.2.rest = ⟨st', stop, c.held⟩ := by
    rw [Cursor.held, ← hm]
    rfl
  rw [settled]
  rcases hs : settle cfg ⟨k g, ls, fs, c.mark, w⟩ with ⟨st', _ | f⟩
  · have hmark : st'.mark = c.mark := by
      have hm := @mark_settle _ cfg ⟨k g, ls, fs, c.mark, w⟩
      rwa [hs] at hm
    have hmode := mode_settle hk hs
    dsimp only
    rw [← hback .found hmark, resume_held]
    by_cases hp : c.read.1 = []
    · rw [resume_nil hp, resume_nil hp, hp]
      cases hk <;> simp only [close, hs, hmode] <;> split_ifs <;> rfl
    · have htake : st'.feed cfg c.read.1 = st'.take cfg c.read.1 := by
        simp [feed, hmode, Mode.endsAt]
      rw [resume, resume, if_neg hp, if_neg hp, feed, if_pos hends, hs, htake]
      dsimp only
      split_ifs <;> rfl
  · have hmark : st'.mark = c.mark := by
      have hm := @mark_settle _ cfg ⟨k g, ls, fs, c.mark, w⟩
      rwa [hs] at hm
    dsimp only
    rw [← hback (.failed f) hmark]
    by_cases hp : c.read.1 = []
    · rw [resume_nil hp, hp]
      cases hk <;> simp only [close, hs]
    · rw [resume, if_neg hp, feed, if_pos hends, hs]

/-- Piece by piece, a token is read up to what ends it. -/
theorem Context.tokenFrom_eq (g : List Char) (c : Cursor) :
    Context.tokenFrom g c = if c.read.1.endsToken then (g.reverse, .ok c.held)
      else Context.tokenFrom (c.read.1.reverse ++ g) c.read.2 := by
  obtain ⟨rest, m, slot⟩ := c
  cases slot with
  | pushed p =>
    by_cases hp : p.endsToken = true
    · simp only [Context.tokenFrom, Cursor.read, hp, if_true]
      rfl
    · simp [Context.tokenFrom, Cursor.read, hp]
  | fresh | taken =>
    cases rest with
    | nil => rfl
    | cons x xs =>
      by_cases hx : Piece.endsToken [x] = true
      · simp only [Context.tokenFrom, Cursor.read, Context.scanToken, hx, if_true]
        rfl
      · simp [Context.tokenFrom, Cursor.read, Context.scanToken, hx]

/-- The token that is read by hand is the one that a context and a run come to. -/
theorem tokenFrom_spec : ∀ (n : ℕ) (g : List Char) (h : Hand start W),
    h.cursor.ahead.length < n → ∃ token h', Routine.tokenFrom n g h = some (.ok token, h') ∧
      h.Onward h' ∧ h'.world = h.world ∧
      Context.tokenFrom g h.cursor = (token, .ok h'.cursor) ∧
      ∀ {cfg : Settings W} {k : List Char → Mode} {ls : List OpenList} {fs : List Form} {w : W},
        cfg.ending = .complete → Gathers k → resume cfg ⟨k g, ls, fs, h.cursor.mark, w⟩ h.cursor =
          settled cfg ⟨k token.reverse, ls, fs, h'.cursor.mark, w⟩ h'.cursor
  | 0, _, _, hn => absurd hn (Nat.not_lt_zero _)
  | n + 1, g, h, hn => by
    rw [Routine.tokenFrom, Routine.bind_ok (Routine.read_eq h), Context.tokenFrom_eq]
    by_cases hp : h.cursor.read.1.endsToken = true
    · rw [if_pos hp, if_pos hp, Routine.bind_ok h.unread_afterRead]
      refine ⟨_, _, rfl, h.onward_held, rfl, rfl, fun he hk => ?_⟩
      rw [List.reverse_reverse]
      exact resume_ends hk hp
    · rw [if_neg hp, if_neg hp]
      have hlt := Hand.length_afterRead (Piece.ne_nil_of_not_endsToken hp)
      obtain ⟨token, h', heq, hon, hw, htoken, hrun⟩ :=
        tokenFrom_spec n (h.cursor.read.1.reverse ++ g) h.afterRead (by omega)
      refine ⟨token, h', heq, h.onward_afterRead.trans hon, hw, htoken, fun he hk => ?_⟩
      rw [resume_gather he hk (by simpa using hp)]
      exact hrun he hk

/-! ### What is come to -/

/-- The settings of a run that does what is done by hand. -/
structure Settings.Suits (cfg : Settings W) (sv : Services W) (h : Hand start W) : Prop where
  services : cfg.services = sv
  suppress : cfg.suppress = h.context.suppressing
  source : cfg.source = none
  ending : cfg.ending = .complete

/-- The run ends with the fault that is come to by hand, and at the same place. -/
structure Outcome.Faults (o : Outcome W) (f : Fault) (h : Hand start W) : Prop where
  stop : o.stop = .failed f
  cursor : o.cursor = h.cursor
  world : o.state.world = h.world
  ne_pushback : f ≠ .pushback

/-- The run goes on with the form that is come to by hand, or ends with the same fault. -/
def Outcome.Agrees (cfg : Settings W) (ls : List OpenList) (fs : List Form) (o : Outcome W) :
    Except Fault Form → Hand start W → Prop
  | .ok v, h => o = deliver cfg v ls fs h.world h.cursor
  | .error f, h => o.Faults f h

theorem Settings.Suits.onward {sv : Services W} {h h' : Hand start W} (hs : cfg.Suits sv h)
    (hh : h.Onward h') : cfg.Suits sv h' := by
  refine ⟨hs.services, hs.suppress.trans ?_, hs.source, hs.ending⟩
  rw [Context.suppressing, Context.suppressing]
  exact congrArg (fun l : List Bool => l.head? == some true) hh.suppressions.symm

/-! ### Strings, characters and comments -/

theorem past_eq {stop : Stop} (hm : st.mark = c.read.2.mark) :
    (Outcome.past st stop c.mark c.read.2.rest).quiet = Outcome.quiet ⟨st, stop, c.read.2⟩ := by
  have hread : c.read.2 = ⟨c.read.2.rest, c.read.2.mark, .taken c.mark⟩ := by
    rw [c.read_eq]
  rw [Outcome.past, hm, ← hread]

/-- A problem is a fault of the run and by hand where both are at the same place. -/
theorem faults_quiet {h : Hand start W} {p : Problem} (hsource : cfg.source = none)
    (hm : st.mark = h.cursor.mark) (hw : st.world = h.world) :
    (Outcome.quiet ⟨st, .failed (st.locate cfg p), h.cursor⟩).Faults (h.context.locate p) h := by
  have hlocate : st.locate cfg p = h.context.locate p := by
    rw [State.locate, hm, hsource]
    rfl
  rw [hlocate]
  exact ⟨rfl, rfl, hw, Fault.noConfusion⟩

theorem faults_past {h : Hand start W} {p : Problem} (hsource : cfg.source = none)
    (hm : st.mark = h.afterRead.cursor.mark) (hw : st.world = h.world) :
    (Outcome.past st (.failed (st.locate cfg p)) h.cursor.mark
      h.cursor.read.2.rest).quiet.Faults (h.afterRead.context.locate p) h.afterRead := by
  rw [past_eq hm]
  exact faults_quiet hsource hm hw

theorem quiet_put (v : Form) (st : State W) (stop : Stop) (c : Cursor) :
    Outcome.quiet ⟨put cfg v st, stop, c⟩ = ⟨put cfg v st, stop, c⟩ := by
  unfold put
  cases st.lists <;> rfl

theorem resume_proceed {v : Form} (mode : Mode) (he : cfg.ending = .complete)
    (hp : c.read.1 ≠ []) (hf : st.feed cfg c.read.1 =
      proceed cfg (put cfg v ⟨mode, ls, fs, c.read.2.mark, w⟩) c.mark) :
    resume cfg st c = deliver cfg v ls fs w c.read.2 := by
  rw [put_mode] at hf
  unfold proceed at hf
  rw [deliver]
  split_ifs at hf ⊢ with hsat
  · rw [resume_past hp hf, past_eq (mark_put _ _), quiet_put]
  · rw [resume_on he hp hf]

theorem feed_escape? (hp : c.read.1 ≠ []) : feed cfg ⟨.escape g, ls, fs, c.mark, w⟩ c.read.1 =
    match Routine.escape? c.read.1 with
    | some x => .on ⟨.string (x :: g), ls, fs, c.read.2.mark, w⟩
    | none => .past ⟨.escape g, ls, fs, c.read.2.mark, w⟩
        (.failed (locate cfg ⟨.escape g, ls, fs, c.read.2.mark, w⟩ (.escape (.ofList c.read.1))))
        c.mark := by
  rw [c.mark_read]
  rcases hread : c.read.1 with _ | ⟨x, _ | ⟨y, more⟩⟩
  · exact absurd hread hp
  · simp only [feed, Mode.endsAt, take, advance, Routine.escape?]
    cases State.unescape? x <;> rfl
  · rfl

theorem resume_string_quote (he : cfg.ending = .complete) (hp : c.read.1 = ['"']) :
    resume cfg ⟨.string g, ls, fs, c.mark, w⟩ c =
      deliver cfg (.text (.ofList g.reverse)) ls fs w c.read.2 := by
  refine resume_proceed (.string g) he (by simp [hp]) ?_
  rw [c.mark_read, hp]
  simp [feed, take, Mode.endsAt, advance]

theorem resume_string_backslash (he : cfg.ending = .complete) (hp : c.read.1 = ['\\']) :
    resume cfg ⟨.string g, ls, fs, c.mark, w⟩ c =
      resume cfg ⟨.escape g, ls, fs, c.read.2.mark, w⟩ c.read.2 := by
  refine resume_on he (by simp [hp]) ?_
  rw [c.mark_read, hp]
  simp [feed, take, Mode.endsAt, advance]

theorem resume_string (he : cfg.ending = .complete) (hp : c.read.1 ≠ []) (hq : c.read.1 ≠ ['"'])
    (hb : c.read.1 ≠ ['\\']) : resume cfg ⟨.string g, ls, fs, c.mark, w⟩ c =
      resume cfg ⟨.string (c.read.1.reverse ++ g), ls, fs, c.read.2.mark, w⟩ c.read.2 := by
  refine resume_on he hp ?_
  rw [c.mark_read]
  simp [feed, take, Mode.endsAt, advance, hq, hb]

/-- The text ends in a string. -/
theorem faults_cutOff {h : Hand start W} {mode : Mode} {what : Unfinished}
    (hsource : cfg.source = none) (hp : h.cursor.read.1 = []) :
    (cutOff cfg ⟨mode, ls, fs, h.cursor.mark, h.world⟩ what h.cursor.read.2.rest).quiet.Faults
      (h.afterRead.context.locate (.unfinished what)) h.afterRead := by
  have hmark := h.mark_afterRead
  rw [hp] at hmark
  exact faults_past hsource hmark.symm rfl

/-- A string that is read by hand is the one that the run comes to. -/
theorem stringFrom_spec (sv : Services W) : ∀ (n : ℕ) (g : List Char) (h : Hand start W),
    h.cursor.ahead.length < n → ∃ r h', Routine.stringFrom n g h = some (r, h') ∧ h.Onward h' ∧
      ∀ {cfg : Settings W} {ls : List OpenList} {fs : List Form}, cfg.Suits sv h →
        (resume cfg ⟨.string g, ls, fs, h.cursor.mark, h.world⟩ h.cursor).Agrees cfg ls fs r h'
  | 0, _, _, hn => absurd hn (Nat.not_lt_zero _)
  | n + 1, g, h, hn => by
    have hread := h.onward_afterRead
    rw [Routine.stringFrom, Routine.bind_ok (Routine.read_eq h)]
    by_cases hnil : h.cursor.read.1 = []
    · rw [if_pos hnil]
      refine ⟨_, _, rfl, hread, fun hs => ?_⟩
      rw [resume_nil hnil]
      exact faults_cutOff hs.source hnil
    rw [if_neg hnil]
    have hlt := Hand.length_afterRead hnil
    by_cases hq : h.cursor.read.1 = ['"']
    · rw [if_pos hq]
      exact ⟨_, _, rfl, hread, fun hs => resume_string_quote hs.ending hq⟩
    rw [if_neg hq]
    by_cases hb : h.cursor.read.1 = ['\\']
    · have hread' := hread.trans h.afterRead.onward_afterRead
      have hescape {cfg : Settings W} {ls : List OpenList} {fs : List Form} (hs : cfg.Suits sv h) :
          resume cfg ⟨.string g, ls, fs, h.cursor.mark, h.world⟩ h.cursor =
            resume cfg ⟨.escape g, ls, fs, h.afterRead.cursor.mark, h.afterRead.world⟩
              h.afterRead.cursor := resume_string_backslash hs.ending hb
      rw [if_pos hb, Routine.bind_ok (Routine.read_eq h.afterRead)]
      by_cases hnil' : h.afterRead.cursor.read.1 = []
      · rw [if_pos hnil']
        refine ⟨_, _, rfl, hread', fun hs => ?_⟩
        rw [hescape hs, resume_nil hnil']
        exact faults_cutOff hs.source hnil'
      rw [if_neg hnil']
      have hlt' := Hand.length_afterRead hnil'
      have hfeed (cfg : Settings W) (ls : List OpenList) (fs : List Form) :=
        @feed_escape? _ cfg ls fs h.afterRead.world g h.afterRead.cursor hnil'
      cases hx : Routine.escape? h.afterRead.cursor.read.1 with
      | none =>
        simp only [hx] at hfeed
        refine ⟨_, _, rfl, hread', fun hs => ?_⟩
        rw [hescape hs, resume_past hnil' (hfeed _ _ _)]
        exact faults_past hs.source rfl rfl
      | some x =>
        simp only [hx] at hfeed
        obtain ⟨r, h', heq, hon, hrun⟩ :=
          stringFrom_spec sv n (x :: g) h.afterRead.afterRead (by omega)
        refine ⟨r, h', heq, hread'.trans hon, fun hs => ?_⟩
        rw [hescape hs, resume_on hs.ending hnil' (hfeed _ _ _)]
        exact hrun (hs.onward hread')
    · rw [if_neg hb]
      obtain ⟨r, h', heq, hon, hrun⟩ :=
        stringFrom_spec sv n (h.cursor.read.1.reverse ++ g) h.afterRead (by omega)
      refine ⟨r, h', heq, hread.trans hon, fun hs => ?_⟩
      rw [resume_string hs.ending hnil hq hb]
      exact hrun (hs.onward hread)

/-- A comment that is read by hand is the one that the run comes to. Nothing is pending in it. -/
theorem comment_spec (sv : Services W) : ∀ (n : ℕ) (h : Hand start W),
    h.cursor.ahead.length < n → (∀ p, h.cursor.slot ≠ .pushed p) →
    ∃ h', Routine.comment n h = some (.ok (), h') ∧ h.Onward h' ∧
      ∀ {cfg : Settings W} {ls : List OpenList} {fs : List Form}, cfg.Suits sv h →
        resume cfg ⟨.comment, ls, fs, h.cursor.mark, h.world⟩ h.cursor =
          resume cfg ⟨.between, ls, fs, h'.cursor.mark, h'.world⟩ h'.cursor
  | 0, _, hn, _ => absurd hn (Nat.not_lt_zero _)
  | n + 1, h, hn, hslot => by
    have hmark := h.mark_afterRead
    rw [Routine.comment, Routine.bind_ok (Routine.read_eq h)]
    by_cases hnil : h.cursor.read.1 = []
    · rw [if_pos (.inl hnil)]
      refine ⟨_, rfl, h.onward_afterRead, fun hs => ?_⟩
      -- the end is read twice, once as the end of the comment
      obtain ⟨hnil', hrest⟩ : h.afterRead.cursor.read.1 = [] ∧
          h.afterRead.cursor.read.2.rest = h.cursor.read.2.rest := Cursor.read_end hslot hnil
      rw [resume_nil hnil, resume_nil hnil', hrest, hmark, hnil]
      rfl
    have hfeed (cfg : Settings W) (ls : List OpenList) (fs : List Form) :
        feed cfg ⟨.comment, ls, fs, h.cursor.mark, h.world⟩ h.cursor.read.1 =
          .on ⟨if h.cursor.read.1 = ['\n'] ∨ h.cursor.read.1 = ['\r'] then .between else .comment,
            ls, fs, h.afterRead.cursor.mark, h.world⟩ := by
      rw [hmark]
      simp only [feed, take, Mode.endsAt, advance]
      split_ifs <;> simp_all
    by_cases hbreak : h.cursor.read.1 = ['\n'] ∨ h.cursor.read.1 = ['\r']
    · rw [if_pos (.inr hbreak)]
      refine ⟨_, rfl, h.onward_afterRead, fun hs => ?_⟩
      rw [resume_on hs.ending hnil (hfeed _ _ _), if_pos hbreak]
      rfl
    · rw [if_neg (not_or.2 ⟨hnil, hbreak⟩)]
      have hlt := Hand.length_afterRead hnil
      obtain ⟨h', heq, hon, hrun⟩ := comment_spec sv n h.afterRead (by omega) h.slot_afterRead
      refine ⟨h', heq, h.onward_afterRead.trans hon, fun hs => ?_⟩
      rw [resume_on hs.ending hnil (hfeed _ _ _), if_neg hbreak]
      exact hrun (hs.onward h.onward_afterRead)

theorem settled_eq_deliver {v : Form} (mode : Mode)
    (h : st.settle cfg = (put cfg v ⟨mode, ls, fs, c.mark, w⟩, none)) :
    settled cfg st c = deliver cfg v ls fs w c := by
  rw [settled, h, put_mode, deliver]
  simp only [quiet_put]

/-- The name of a character that is read by hand is the one that the run comes to. -/
theorem character_spec (sv : Services W) {n : ℕ} {h : Hand start W}
    (hn : h.cursor.ahead.length < n) :
    ∃ r h', Routine.character n h = some (r, h') ∧ h.Onward h' ∧
      ∀ {cfg : Settings W} {ls : List OpenList} {fs : List Form}, cfg.Suits sv h →
        (resume cfg ⟨.backslash, ls, fs, h.cursor.mark, h.world⟩ h.cursor).Agrees cfg ls fs r
          h' := by
  rw [Routine.character, Routine.bind_ok (Routine.read_eq h)]
  by_cases hnil : h.cursor.read.1 = []
  · rw [if_pos hnil]
    refine ⟨_, _, rfl, h.onward_afterRead, fun hs => ?_⟩
    rw [resume_nil hnil]
    exact faults_cutOff hs.source hnil
  have hlt := Hand.length_afterRead hnil
  obtain ⟨name, h', heq, hread, hw, -, hrun⟩ :=
    tokenFrom_spec n h.cursor.read.1.reverse h.afterRead (by omega)
  have hon := h.onward_afterRead.trans hread
  have hresume {cfg : Settings W} {ls : List OpenList} {fs : List Form} (hs : cfg.Suits sv h) :
      resume cfg ⟨.backslash, ls, fs, h.cursor.mark, h.world⟩ h.cursor =
        settled cfg ⟨.character name.reverse, ls, fs, h'.cursor.mark, h'.world⟩ h'.cursor := by
    rw [hw]
    refine (resume_on hs.ending hnil ?_).trans (hrun hs.ending .character)
    exact congrArg (fun m => Step.on ⟨_, ls, fs, m, h.world⟩) h.cursor.mark_read.symm
  rw [if_neg hnil, Routine.bind_ok heq]
  cases hc : Token.character? name with
  | some c =>
    refine ⟨_, _, rfl, hon, fun hs => ?_⟩
    rw [hresume hs]
    refine settled_eq_deliver (.character name.reverse) ?_
    simp only [settle, List.reverse_reverse, hc]
  | none =>
    refine ⟨_, _, rfl, hon, fun hs => ?_⟩
    rw [hresume hs, settled]
    simp only [settle, List.reverse_reverse, hc]
    exact faults_quiet hs.source rfl rfl

end LispForms
