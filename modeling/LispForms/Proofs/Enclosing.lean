import LispForms.Proofs.Completion
import LispForms.Proofs.Joining

/-! Reading a text with parentheses around it. Inside of a list the machine takes every step that it
takes outside of lists, and the list takes in the forms that would stand by themselves. Only a
closing parenthesis is another matter where no list is open. -/

namespace LispForms

variable {W : Type} {cfg : Settings W} {start : Mark} {c : Char}

/-- Whether a parenthesis was closed that had not been opened. -/
def Fault.isUnmatched : Fault → Bool
  | misread m => m.problem.kind == .unmatchedDelimiter
  | _ => false

/-- The state in a list that was opened before everything else. -/
def State.enclosed (start : Mark) (st : State W) : State W :=
  ⟨st.mode, st.lists ++ [⟨start, st.forms⟩], [], st.mark, st.world⟩

namespace Step

def enclosed (start : Mark) : Step W → Step W
  | on st => on (st.enclosed start)
  | past st stop before => past (st.enclosed start) stop before
  | back st stop => back (st.enclosed start) stop

/-- The step does not close a parenthesis that was not opened. -/
def Matched : Step W → Prop
  | past _ (.failed f) _ => f.isUnmatched = false
  | _ => True

end Step

/-! ### Steps -/

namespace State

theorem put_enclosed (hg : cfg.goal = .all) (hs : cfg.suppress = false) (v : Form) (st : State W) :
    put cfg v (st.enclosed start) = (put cfg v st).enclosed start := by
  obtain ⟨mode, ls, fs, m, w⟩ := st
  cases ls with
  | nil => simp [put, enclosed, hg, hs]
  | cons l ls => rfl

theorem settle_enclosed (hg : cfg.goal = .all) (hs : cfg.suppress = false) (st : State W) :
    settle cfg (st.enclosed start) = ((settle cfg st).1.enclosed start, (settle cfg st).2) := by
  obtain ⟨mode, ls, fs, m, w⟩ := st
  cases mode with
  | token g =>
    have hl : locate cfg ⟨.token g, ls ++ [⟨start, fs⟩], [], m, w⟩ =
      locate cfg ⟨.token g, ls, fs, m, w⟩ := rfl
    simp only [settle, hs, enclosed, hl, Bool.false_eq_true, ↓reduceIte]
    rcases cfg.services.interpret _ g.reverse w with ⟨f | v, w'⟩
    · rfl
    · exact congrArg (·, none) (put_enclosed hg hs v ⟨.token g, ls, fs, m, w'⟩)
  | character g =>
    simp only [settle, enclosed]
    cases Token.character? g.reverse with
    | some x => exact congrArg (·, none) (put_enclosed hg hs _ ⟨.character g, ls, fs, m, w⟩)
    | none => rfl
  | _ => rfl

theorem feed_between_enclosed (hg : cfg.goal = .all) (hs : cfg.suppress = false)
    {ls : List OpenList} {fs : List Form} {m : Mark} {w : W}
    (h : (feed cfg ⟨.between, ls, fs, m, w⟩ [c]).Matched) :
    feed cfg ⟨.between, ls ++ [⟨start, fs⟩], [], m, w⟩ [c] =
      (feed cfg ⟨.between, ls, fs, m, w⟩ [c]).enclosed start := by
  rcases Lexeme.first_cases c with hc | rfl | rfl | rfl | rfl | rfl | hc
  · rw [feed_blank hc, feed_blank hc]
    rfl
  · rw [feed_semicolon hg, feed_semicolon hg]
    rfl
  · rw [feed_opening hg, feed_opening hg]
    rfl
  · cases ls with
    | nil =>
      rw [feed_unmatched hg] at h
      cases h
    | cons l ls =>
      rw [List.cons_append, feed_closing hg, feed_closing hg]
      exact congrArg Step.on (put_enclosed hg hs _ ⟨.between, ls, fs, m.next [')'], w⟩)
  · rw [feed_quote hg, feed_quote hg]
    rfl
  · rw [feed_backslash hg, feed_backslash hg]
    rfl
  · rw [feed_ordinary hg hc, feed_ordinary hg hc]
    rfl

theorem feed_gather_enclosed (hg : cfg.goal = .all) (hs : cfg.suppress = false)
    {k : List Char → Mode} (hk : Gathers k) {g : List Char} {ls : List OpenList} {fs : List Form}
    {m : Mark} {w : W} (h : (feed cfg ⟨k g, ls, fs, m, w⟩ [c]).Matched) :
    feed cfg ⟨k g, ls ++ [⟨start, fs⟩], [], m, w⟩ [c] =
      (feed cfg ⟨k g, ls, fs, m, w⟩ [c]).enclosed start := by
  by_cases hc : isOrdinary c = true
  · rw [feed_gather hk hc, feed_gather hk hc]
    rfl
  · have hc : isOrdinary c = false := by simpa using hc
    have hsettle := @settle_enclosed _ cfg start hg hs ⟨k g, ls, fs, m, w⟩
    rw [feed_settle hg hk hc] at h ⊢
    rw [feed_settle hg hk hc]
    simp only [enclosed] at hsettle
    rw [hsettle]
    rcases hst : settle cfg ⟨k g, ls, fs, m, w⟩ with ⟨⟨mode, ls', fs', m', w'⟩, _ | f⟩
    · rw [hst] at h
      obtain rfl : mode = .between := mode_settle hk hst
      have hb := @feed_between_enclosed _ cfg start c hg hs ls' fs' m' w'
      rw [feed_eq_take rfl, feed_eq_take rfl] at hb
      exact hb h
    · rfl

/-- The machine takes the same step inside of the list. -/
theorem feed_enclosed (hg : cfg.goal = .all) (hs : cfg.suppress = false) {st : State W}
    (h : (st.feed cfg [c]).Matched) :
    (st.enclosed start).feed cfg [c] = (st.feed cfg [c]).enclosed start := by
  obtain ⟨mode, ls, fs, m, w⟩ := st
  cases mode with
  | between => exact feed_between_enclosed hg hs h
  | comment =>
    show feed cfg ⟨.comment, ls ++ [⟨start, fs⟩], [], m, w⟩ [c] = _
    rw [feed_comment, feed_comment]
    rfl
  | token g => exact feed_gather_enclosed hg hs .token h
  | character g => exact feed_gather_enclosed hg hs .character h
  | backslash =>
    show feed cfg ⟨.backslash, ls ++ [⟨start, fs⟩], [], m, w⟩ [c] = _
    rw [feed_character_first, feed_character_first]
    rfl
  | string g =>
    show feed cfg ⟨.string g, ls ++ [⟨start, fs⟩], [], m, w⟩ [c] = _
    by_cases hq : c = '"'
    · rw [hq, feed_string_quote hg, feed_string_quote hg]
      exact congrArg Step.on (put_enclosed hg hs _ ⟨.string g, ls, fs, m.next ['"'], w⟩)
    · by_cases hb : c = '\\'
      · rw [hb, feed_string_backslash, feed_string_backslash]
        rfl
      · rw [feed_string hq hb, feed_string hq hb]
        rfl
  | escape g =>
    show feed cfg ⟨.escape g, ls ++ [⟨start, fs⟩], [], m, w⟩ [c] = _
    cases hx : unescape? c with
    | some x =>
      rw [feed_escape hx, feed_escape hx]
      rfl
    | none =>
      rw [feed_unsupported hx, feed_unsupported hx]
      rfl

end State

/-! ### Runs -/

/-- Over a text the run inside of the list comes to the same state, whatever follows, or fails in
the same way, unless the text closes a parenthesis that it does not open. -/
theorem run_enclosed (hg : cfg.goal = .all) (hs : cfg.suppress = false) (start : Mark)
    (cs : List Char) : ∀ st : State W,
    (∃ st', st'.mark = st.mark.through cs ∧ ∀ ds, run cfg st (cs ++ ds) = run cfg st' ds ∧
      run cfg (st.enclosed start) (cs ++ ds) = run cfg (st'.enclosed start) ds) ∨
    ∃ f, f.isUnexpectedEnd = false ∧ ∀ ds, (run cfg st (cs ++ ds)).stop = .failed f ∧
      (f.isUnmatched = false → (run cfg (st.enclosed start) (cs ++ ds)).stop = .failed f ∧
        (run cfg (st.enclosed start) (cs ++ ds)).state.forms = []) := by
  induction cs with
  | nil => exact fun st => .inl ⟨st, rfl, fun _ => ⟨rfl, rfl⟩⟩
  | cons c cs ih =>
    intro st
    have hfails := fails_feed hg st c
    have hmarks := @State.marks_feed _ cfg st [c]
    have hfeed := @State.feed_enclosed _ cfg start c hg hs st
    cases hst : st.feed cfg [c] with
    | on st₁ =>
      rw [hst] at hmarks hfeed
      rcases ih st₁ with ⟨st', hmark, h⟩ | ⟨f, hf, h⟩
      · have hmark₁ : st₁.mark = st.mark.next [c] := hmarks
        rw [hmark₁] at hmark
        refine .inl ⟨st', hmark, fun ds => ?_⟩
        rw [List.cons_append, run_on hst, run_on (hfeed trivial)]
        exact h ds
      · refine .inr ⟨f, hf, fun ds => ?_⟩
        rw [List.cons_append, run_on hst, run_on (hfeed trivial)]
        exact h ds
    | past st₁ stop before =>
      rw [hst] at hfails hfeed
      obtain ⟨f, rfl, hf⟩ := hfails
      refine .inr ⟨f, hf, fun ds => ?_⟩
      rw [List.cons_append, run_past hst]
      refine ⟨rfl, fun hmatched => ?_⟩
      rw [run_past (hfeed hmatched)]
      exact ⟨rfl, rfl⟩
    | back st₁ stop =>
      rw [hst] at hfails hfeed
      obtain ⟨f, rfl, hf⟩ := hfails
      refine .inr ⟨f, hf, fun ds => ?_⟩
      rw [List.cons_append, run_back hst, run_back (hfeed trivial)]
      exact ⟨rfl, fun _ => ⟨rfl, rfl⟩⟩

/-- Behind a text that does not fail, a line feed and a parenthesis close the list around it. -/
theorem run_close_enclosed (hg : cfg.goal = .all) (he : cfg.ending = .complete)
    (hs : cfg.suppress = false) (hend : cfg.endIsError = false) {st : State W}
    (h : ∀ f, (st.close cfg []).stop ≠ .failed f) :
    let o := run cfg (st.enclosed start) ['\n', ')']
    o.stop = .ended ∧ o.state.world = (st.close cfg []).state.world ∧
      o.state.forms = [.list (st.close cfg []).state.forms.reverse
        (some (.between start (st.mark.through ['\n', ')'])))] := by
  have hfeed := feed_newline hg h
  have hnewline := @State.feed_enclosed _ cfg start '\n' hg hs st (by rw [hfeed]; trivial)
  rw [hfeed] at hnewline
  intro o
  have ho : o = run cfg _ [] := (run_on hnewline).trans (run_on (feed_closing hg _))
  rw [ho, run_nil _ he]
  simp [State.put, State.close, State.endBetween, Outcome.past, State.advance, hg, hs, hend,
    Mark.through]

/-- What fails when the text ends fails at the line feed. -/
theorem run_close_enclosed_failed (hg : cfg.goal = .all) (hs : cfg.suppress = false)
    (start : Mark) {st : State W} {f : Fault} (h : (st.close cfg []).stop = .failed f)
    (hf : f.isUnexpectedEnd = false) :
    let o := run cfg (st.enclosed start) ['\n', ')']
    o.stop = .failed f ∧ o.state.forms = [] := by
  have hfeed := feed_newline_failed hg h hf
  have hnewline := @State.feed_enclosed _ cfg start '\n' hg hs st (by rw [hfeed]; trivial)
  rw [hfeed] at hnewline
  intro o
  have ho : o = ⟨_, .failed f, _⟩ := run_back hnewline
  rw [ho]
  exact ⟨rfl, rfl⟩

/-- A whole text inside of the list, and the end of the list on a line of its own. -/
theorem run_parenthesized (hg : cfg.goal = .all) (he : cfg.ending = .complete)
    (hs : cfg.suppress = false) (hend : cfg.endIsError = false) (start : Mark) (cs : List Char)
    (st : State W) :
    let plain := run cfg st cs
    let o := run cfg (st.enclosed start) (cs ++ ['\n', ')'])
    ((∀ f, plain.stop ≠ .failed f) → o.stop = .ended ∧ o.state.world = plain.state.world ∧
      o.state.forms = [.list plain.forms
        (some (.between start ((st.mark.through cs).through ['\n', ')'])))]) ∧
    ∀ f, plain.stop = .failed f → f.isUnexpectedEnd = false → f.isUnmatched = false →
      o.stop = .failed f ∧ o.state.forms = [] := by
  intro plain o
  rcases run_enclosed hg hs start cs st with ⟨st', hmark, happ⟩ | ⟨f, hf, happ⟩
  · have hplain : plain = st'.close cfg [] := by
      have h := (happ []).1
      rwa [List.append_nil, run_nil _ he] at h
    have ho : o = run cfg (st'.enclosed start) ['\n', ')'] := (happ _).2
    rw [hplain, ho, ← hmark]
    exact ⟨run_close_enclosed hg he hs hend, fun f h hf _ =>
      run_close_enclosed_failed hg hs start h hf⟩
  · have hplain : plain.stop = .failed f := by
      have h := (happ []).1
      rwa [List.append_nil] at h
    refine ⟨fun h => (h f hplain).elim, fun g h _ hmatched => ?_⟩
    obtain rfl := Stop.failed.inj (hplain.symm.trans h)
    exact (happ ['\n', ')']).2 hmatched

/-! ### Readings -/

/-- A text with parentheses around it, the closing one on a line of its own. If the text by itself
is read without a fault, one list comes of it, with all its forms as they are; if it has a fault
other than an early end or a parenthesis too many, the fault stays the same and nothing comes of
it. -/
theorem read_parenthesized (sv : Services W) (line : Option Int) (col : Int) (text : String)
    (w : W) :
    let plain := read sv ⟨false, false, line, some (col + 1)⟩ (.ofString text) w
    let enclosed := read sv ⟨false, false, line, some col⟩ (.ofString ("(" ++ text ++ "\n)")) w
    let first := (Mark.initial line (some col)).through ['(']
    let last := (Mark.initial line (some col)).through ("(" ++ text ++ "\n)").toList
    (plain.fault = none → enclosed.fault = none ∧ enclosed.world = plain.world ∧
      enclosed.forms = [.list plain.forms (some (.between first last))]) ∧
    ∀ f, plain.fault = some f → f.isUnexpectedEnd = false → f.isUnmatched = false →
      enclosed.fault = some f ∧ enclosed.forms = [] := by
  intro plain enclosed first last
  let cfg : Settings W := ⟨sv, .all, false, false, none, .complete⟩
  let st : State W :=
    .initial (.initial line (some (col + 1))) (sv.note (Source.ofString text).opening w)
  let o := run cfg (st.enclosed first) (text.toList ++ ['\n', ')'])
  have ho : enclosed = ⟨o.forms, o.fault?, o.state.world⟩ := by
    have hopen : run cfg (.initial (.initial line (some col)) st.world)
        ('(' :: (text.toList ++ ['\n', ')'])) = o := run_on (feed_opening rfl)
    have htext : ("(" ++ text ++ "\n)").toList = '(' :: (text.toList ++ ['\n', ')']) := by simp
    rw [← hopen, ← htext]
    rfl
  have hlast : last = (st.mark.through text.toList).through ['\n', ')'] := by
    rw [← Mark.through_append]
    simp [last, Mark.through]
    rfl
  obtain ⟨hread, hfailed⟩ := @run_parenthesized _ cfg rfl rfl rfl rfl first text.toList st
  rw [ho, hlast]
  refine ⟨fun h => ?_, fun f h hf hmatched => ?_⟩
  · obtain ⟨hstop, hworld, hforms⟩ := hread (Outcome.fault?_eq_none_iff.1 h)
    refine ⟨Outcome.fault?_eq_none_iff.2 fun f hf => ?_, hworld, congrArg List.reverse hforms⟩
    rw [hstop] at hf
    cases hf
  · obtain ⟨hstop, hforms⟩ := hfailed f (Outcome.fault?_eq_some_iff.1 h) hf hmatched
    exact ⟨Outcome.fault?_eq_some_iff.2 hstop, congrArg List.reverse hforms⟩

/-- A text that ends in a comment, and one that ends in a character without a meaning. -/
theorem read_parenthesized_comment :
    let plain text := read (.standard .standard) ⟨false, false, some 3, some 8⟩ (.ofString text)
      .empty
    let enclosed text := read (.standard .standard) ⟨false, false, some 3, some 7⟩
      (.ofString ("(" ++ text ++ "\n)")) .empty
    (plain "a (b\r\n) ; c").fault = none ∧ (enclosed "a (b\r\n) ; c").fault = none ∧
      (enclosed "a (b\r\n) ; c").forms = [.list (plain "a (b\r\n) ; c").forms
        (some ⟨some 3, some 8, some 5, some 1⟩)] ∧
      (plain "a (b)\n\\cd").fault = some (.misread ⟨.character "cd", 4, 3, none⟩) ∧
      (enclosed "a (b)\n\\cd").fault = some (.misread ⟨.character "cd", 4, 3, none⟩) ∧
      (enclosed "a (b)\n\\cd").forms = [] := by
  intro plain enclosed
  have h : (plain "a (b\r\n) ; c").fault = none := by decide +kernel
  have h' : (plain "a (b)\n\\cd").fault = some (.misread ⟨.character "cd", 4, 3, none⟩) := by
    decide +kernel
  obtain ⟨hfault, -, hforms⟩ :=
    (read_parenthesized (.standard .standard) (some 3) 7 "a (b\r\n) ; c" .empty).1 h
  obtain ⟨hfailed, hnone⟩ :=
    (read_parenthesized (.standard .standard) (some 3) 7 "a (b)\n\\cd" .empty).2 _ h' rfl rfl
  exact ⟨h, hfault, hforms, h', hfailed, hnone⟩

end LispForms
