import LispForms.Proofs.Step
import LispForms.Reader.Context

/-! Reading form by form. A reading for the next form goes the way of a reading for all of them, up
to the end of its first form, and leaves the cursor behind what it has taken from the text. -/

namespace LispForms

variable {W : Type} {cfg : Settings W}

/-! ### Where a run leaves the text -/

/-- The cursor stands behind `taken`, read from `start` on. At the end of the text its place may be
further on, since the end is read too. -/
structure Cursor.Follows (start : Mark) (taken : List Char) (c : Cursor) : Prop where
  mark : c.ahead ≠ [] → c.mark = start.through taken
  pending : ∀ p, c.slot = .pushed p → (∃ x, p = [x]) ∨ p = [] ∧ c.rest = []

/-- Behind the end of a text nothing is ahead, unless the end itself. -/
theorem ahead_close (st : State W) :
    let c := (st.close cfg []).cursor
    c.ahead = [] ∧ ∀ p, c.slot = .pushed p → p = [] ∧ c.rest = [] := by
  have past (st : State W) (stop : Stop) (before : Mark) :
      let c := (Outcome.past st stop before []).cursor
      c.ahead = [] ∧ ∀ p, c.slot = .pushed p → p = [] ∧ c.rest = [] :=
    ⟨rfl, fun _ h => Slot.noConfusion h⟩
  have back (st : State W) (stop : Stop) :
      let c := (Outcome.back st stop [] []).cursor
      c.ahead = [] ∧ ∀ p, c.slot = .pushed p → p = [] ∧ c.rest = [] :=
    ⟨rfl, fun _ h => ⟨(Slot.pushed.inj h).symm, rfl⟩⟩
  unfold State.close
  split
  iterate 5 exact past _ _ _
  all_goals
    split
    · exact back _ _
    · split
      · exact back _ _
      · exact past _ _ _

/-- A run takes characters from the front of its text and stops behind them. -/
theorem run_follows (he : cfg.ending = .complete) (cs : List Char) : ∀ st : State W,
    ∃ taken, cs = taken ++ (run cfg st cs).cursor.ahead ∧
      (run cfg st cs).cursor.Follows st.mark taken := by
  induction cs with
  | nil =>
    intro st
    rw [run_nil st he]
    obtain ⟨hahead, hpending⟩ := @ahead_close _ cfg st
    exact ⟨[], hahead.symm, fun h => absurd hahead h, fun p hp => .inr (hpending p hp)⟩
  | cons c cs ih =>
    intro st
    have hmarks := @State.marks_feed _ cfg st [c]
    cases hf : st.feed cfg [c] with
    | on st₁ =>
      rw [hf] at hmarks
      have hmark₁ : st₁.mark = st.mark.next [c] := hmarks
      obtain ⟨taken, hcs, hmark, hpending⟩ := ih st₁
      rw [run_on hf]
      refine ⟨c :: taken, congrArg (c :: ·) hcs, fun h => ?_, hpending⟩
      rw [hmark h, hmark₁]
      rfl
    | past st₁ stop before =>
      rw [hf] at hmarks
      rw [run_past hf]
      exact ⟨[c], rfl, fun _ => hmarks.1, fun _ h => Slot.noConfusion h⟩
    | back st₁ stop =>
      rw [hf] at hmarks
      rw [run_back hf]
      exact ⟨[], rfl, fun _ => hmarks, fun _ h => .inl ⟨c, (Slot.pushed.inj h).symm⟩⟩

/-- A run from a cursor is one over what is ahead of it. -/
theorem runFrom_eq_run (he : cfg.ending = .complete) {start : Mark} {taken : List Char}
    {c : Cursor} (h : c.Follows start taken) (w : W) :
    runFrom cfg c w = run cfg (.initial c.mark w) c.ahead := by
  obtain ⟨rest, m, slot⟩ := c
  cases slot with
  | fresh | taken => rfl
  | pushed p =>
    rcases h.pending p rfl with ⟨x, rfl⟩ | ⟨rfl, hrest⟩
    · rfl
    · obtain rfl : rest = [] := hrest
      exact (run_nil (.initial m w) he).symm

/-! ### One form and all forms -/

/-- The settings of the same reading for the next form only. -/
abbrev Settings.forOne (cfg : Settings W) : Settings W := { cfg with goal := .one }

/-- A step of a reading for one form and the same step of a reading for all. -/
inductive Step.Follows : Step W → Step W → Prop
  /-- No form has been completed. -/
  | same {s : Step W} (h : ∀ st, s = .on st → st.forms = []) : Follows s s
  | past {st : State W} {before : Mark} (hmode : st.mode = .between) (hforms : st.forms ≠ []) :
    Follows (.past st .found before) (.on st)

theorem Step.Follows.on {st : State W} (h : st.forms = []) : Step.Follows (.on st) (.on st) :=
  .same fun _ hst => by rw [← Step.on.inj hst, h]

theorem Step.Follows.past_failed (st : State W) (f : Fault) (before : Mark) :
    Step.Follows (.past st (.failed f) before) (.past st (.failed f) before) :=
  .same fun _ hst => nomatch hst

namespace State

variable {st : State W}

theorem put_forOne (hg : cfg.goal = .all) (v : Form) (st : State W) :
    st.put cfg.forOne v = st.put cfg v := by
  unfold put
  rw [hg]

theorem settle_forOne (hg : cfg.goal = .all) (st : State W) :
    st.settle cfg.forOne = st.settle cfg := by
  unfold settle
  simp only [put_forOne hg]
  rfl

theorem proceed_forOne (hg : cfg.goal = .all) (hmode : st.mode = .between) (before : Mark) :
    Step.Follows (st.proceed cfg.forOne before) (st.proceed cfg before) := by
  rw [proceed_eq_on hg]
  unfold proceed satisfied
  split
  next h => exact .past hmode (by simpa using h)
  next h => exact .same fun st' hst => by simpa [← Step.on.inj hst] using h

theorem beginForm_forOne (hg : cfg.goal = .all) (h : st.forms = []) (before : Mark) (p : Piece) :
    Step.Follows (st.beginForm cfg.forOne before p) (st.beginForm cfg before p) := by
  cases p with
  | nil => exact .on h
  | cons c more =>
    have hgoal (g : Goal) (hg : g = .one ∨ g = .all) : (g == .upTo (c :: more)) = false := by
      rcases hg with rfl | rfl <;> rfl
    simp only [beginForm, hgoal cfg.goal (.inr hg), hgoal .one (.inl rfl), Bool.and_false,
      Bool.false_eq_true, ↓reduceIte]
    split_ifs
    iterate 6 exact .on h
    · split
      · rw [put_forOne hg]
        exact proceed_forOne hg (mode_put _ _) before
      · exact .past_failed _ _ _
    · exact .on h

theorem take_forOne (hg : cfg.goal = .all) (h : st.forms = []) (p : Piece) :
    Step.Follows (st.take cfg.forOne p) (st.take cfg p) := by
  obtain ⟨mode, ls, fs, m, w⟩ := st
  cases mode with
  | between => exact @beginForm_forOne _ cfg ⟨.between, ls, fs, m.next p, w⟩ hg h m p
  | comment =>
    simp only [take, advance]
    split <;> exact .on h
  | token | backslash | character => exact .on h
  | string g =>
    simp only [take, advance]
    split
    · rw [put_forOne hg]
      exact proceed_forOne hg (mode_put _ _) m
    · split <;> exact .on h
  | escape g =>
    simp only [take, advance]
    split
    · split
      · exact .on h
      · exact .past_failed _ _ _
    · exact .past_failed _ _ _

/-- A step of a reading for one form either follows the one of a reading for all or finds a form
that was completed in front of the piece. -/
theorem feed_forOne (hg : cfg.goal = .all) (h : st.forms = []) (p : Piece) :
    Step.Follows (st.feed cfg.forOne p) (st.feed cfg p) ∨
      ∃ st', st.settle cfg = (st', none) ∧ st'.forms ≠ [] ∧
        st.feed cfg.forOne p = .back st' .found ∧ st.feed cfg p = st'.take cfg p := by
  unfold feed
  rw [settle_forOne hg]
  split
  · rcases hs : st.settle cfg with ⟨st', _ | f⟩
    · simp only [satisfied_eq_false hg, Bool.false_eq_true, ↓reduceIte]
      by_cases hst : st'.forms = []
      · have hone : st'.satisfied cfg.forOne = false := by simp [satisfied, hst]
        rw [hone]
        exact .inl (take_forOne hg hst p)
      · have hone : st'.satisfied cfg.forOne = true := by simp [satisfied, hst]
        rw [hone]
        exact .inr ⟨st', rfl, hst, rfl, rfl⟩
    · exact .inl (.same fun _ hst => by cases hst)
  · exact .inl (take_forOne hg h p)

theorem close_forOne (hg : cfg.goal = .all) (rest : List Char) :
    (st.close cfg.forOne rest).stop = .found ∨ st.close cfg.forOne rest = st.close cfg rest := by
  have hend (st : State W) : st.endBetween cfg.forOne rest = st.endBetween cfg rest := by
    unfold endBetween
    rw [hg]
    rfl
  unfold close
  rw [settle_forOne hg]
  split
  iterate 2 exact .inr (hend _)
  iterate 3 exact .inr rfl
  all_goals
    split
    · exact .inr rfl
    · rw [satisfied_eq_false hg, hend]
      split
      · exact .inl rfl
      · exact .inr rfl

end State

/-- Up to its first form a reading for one form and a reading for all are the same. -/
theorem run_forOne (hg : cfg.goal = .all) (he : cfg.ending = .complete) (cs : List Char) :
    ∀ st : State W, st.forms = [] →
      (run cfg.forOne st cs).stop = .found ∨ run cfg.forOne st cs = run cfg st cs := by
  induction cs with
  | nil =>
    intro st _
    rw [run_nil st he, @run_nil _ cfg.forOne st he]
    exact State.close_forOne hg []
  | cons c cs ih =>
    intro st hforms
    rw [run, run]
    rcases @State.feed_forOne _ cfg st hg hforms [c] with hfeed | ⟨st', -, -, hfeed, -⟩
    · generalize st.feed cfg.forOne [c] = s₁, st.feed cfg [c] = s at hfeed
      cases hfeed with
      | same h =>
        cases s₁ with
        | on st₁ => exact ih st₁ (h st₁ rfl)
        | past | back => exact .inr rfl
      | past => exact .inl rfl
    · rw [hfeed]
      exact .inl rfl

theorem Context.next_eq_some_iff {sv : Services W} {endIsError : Bool} {c : Context W} {v : Form} :
    let o := runFrom (c.settings sv .one endIsError) c.cursor c.world
    (c.next sv endIsError).1 = .ok (some v) ↔ o.stop = .found ∧ o.forms.head? = some v := by
  intro o
  simp only [next]
  cases o.stop <;> simp [o]

/-- A reading for the next form that fails is a reading for all forms that does. -/
theorem Context.run_of_next_error {sv : Services W} {endIsError : Bool} {c : Context W}
    {start : Mark} {before : List Char} {f : Fault} (hc : c.cursor.Follows start before)
    (h : (c.next sv endIsError).1 = .error f) :
    let o := run (c.settings sv .all endIsError) (.initial c.cursor.mark c.world) c.cursor.ahead
    o.stop = .failed f ∧ (c.next sv endIsError).2.cursor = o.cursor := by
  let cfg := c.settings sv .all endIsError
  let st := State.initial c.cursor.mark c.world
  have hone : runFrom cfg.forOne c.cursor c.world = run cfg.forOne st c.cursor.ahead :=
    runFrom_eq_run rfl hc c.world
  have hstop : (runFrom cfg.forOne c.cursor c.world).stop = .failed f := by
    unfold Context.next at h
    dsimp only at h
    split at h <;> cases h
    next hstop => exact hstop
  have hcursor : (c.next sv endIsError).2.cursor =
    (runFrom cfg.forOne c.cursor c.world).cursor := rfl
  rw [hone] at hstop hcursor
  rcases @run_forOne _ cfg rfl rfl c.cursor.ahead st rfl with hfound | hall
  · rw [hstop] at hfound
    cases hfound
  · rw [hall] at hstop hcursor
    exact ⟨hstop, hcursor⟩

end LispForms
