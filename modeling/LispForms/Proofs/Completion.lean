import LispForms.Proofs.Step

/-! Texts that end too soon. Such a text has a continuation with which it is read, its last form
completed; any other fault stays the first one whatever follows on the next line. -/

namespace LispForms

variable {W : Type} {cfg : Settings W} {ls : List OpenList} {fs : List Form} {m : Mark} {w : W}
  {k : List Char → Mode} {st : State W} {f : Fault}

open State

/-! ### Ends that come too soon -/

/-- The run ends with its text and one form more than `fs`. -/
structure Outcome.Completes (fs : List Form) (o : Outcome W) : Prop where
  stop : o.stop = .ended
  forms : ∃ v, o.state.forms = v :: fs

/-- The parentheses that close lists. -/
abbrev closers (ls : List OpenList) : List Char := List.replicate ls.length ')'

theorem stopsToken_closers (ls : List OpenList) : StopsToken (closers ls) := by
  intro c hc
  obtain rfl : c = ')' := List.eq_of_mem_replicate (List.mem_of_mem_head? hc)
  decide

section

variable (hg : cfg.goal = .all) (he : cfg.ending = .complete) (hend : cfg.endIsError = false)

include hg he hend

/-- Behind a form in open lists, their parentheses complete the outermost one. -/
theorem run_put_closers (ls : List OpenList) : ∀ (v : Form) (m : Mark),
    (run cfg (put cfg v ⟨.between, ls, fs, m, w⟩) (closers ls)).Completes fs := by
  induction ls with
  | nil =>
    intro v m
    have hstop (fs : List Form) : (endBetween cfg ⟨.between, [], fs, m, w⟩ []).stop = .ended := by
      simp [endBetween, Outcome.past, hend, hg]
    refine ⟨?_, ?_⟩
    · exact (congrArg Outcome.stop (run_nil _ he)).trans (hstop _)
    · exact ⟨_, congrArg (fun o => o.state.forms) (run_nil _ he)⟩
  | cons l ls ih =>
    intro v m
    have hrun : run cfg (put cfg v ⟨.between, l :: ls, fs, m, w⟩) (closers (l :: ls)) =
        run cfg _ (closers ls) := run_on (feed_closing hg ⟨l.start, v :: l.items⟩)
    rw [hrun]
    exact ih _ _

/-- Between forms in open lists, their parentheses complete the outermost one. -/
theorem run_closers (hls : ls ≠ []) (m : Mark) :
    (run cfg ⟨.between, ls, fs, m, w⟩ (closers ls)).Completes fs := by
  cases ls with
  | nil => exact absurd rfl hls
  | cons l ls =>
    have hrun : run cfg ⟨.between, l :: ls, fs, m, w⟩ (closers (l :: ls)) =
        run cfg _ (closers ls) := run_on (feed_closing hg l)
    rw [hrun]
    exact run_put_closers hg he hend ls _ _

omit he in
theorem lists_ne_nil (mode : Mode)
    (h : (endBetween cfg ⟨mode, ls, fs, m, w⟩ []).stop = .failed f) : ls ≠ [] := by
  rintro rfl
  simp [endBetween, Outcome.past, hend, hg] at h

/-- Where the end of a text is unexpected, there is a text that may follow instead. -/
theorem exists_completion (h : (st.close cfg []).stop = .failed f)
    (hf : f.isUnexpectedEnd = true) :
    ∃ ds, (run cfg st ds).Completes (st.close cfg []).state.forms := by
  obtain ⟨mode, ls, fs, m, w⟩ := st
  have gather {k : List Char → Mode} (hk : Gathers k) (g : List Char)
      (h : (close cfg ⟨k g, ls, fs, m, w⟩ []).stop = .failed f) :
      (run cfg ⟨k g, ls, fs, m, w⟩ (closers (settle cfg ⟨k g, ls, fs, m, w⟩).1.lists)).Completes
        (close cfg ⟨k g, ls, fs, m, w⟩ []).state.forms := by
    rw [close_gather hg hk] at h ⊢
    rcases hs : settle cfg ⟨k g, ls, fs, m, w⟩ with ⟨⟨mode, ls, fs, m, w⟩, _ | f'⟩
    · rw [hs] at h
      obtain rfl : mode = .between := mode_settle hk hs
      rw [run_settle hg he hk (stopsToken_closers ls) hs]
      exact run_closers hg he hend (lists_ne_nil hg hend .between h) m
    · rw [hs] at h
      obtain rfl : f' = f := Stop.failed.inj h
      rw [isUnexpectedEnd_settle hk hs] at hf
      cases hf
  cases mode with
  | between => exact ⟨_, run_closers hg he hend (lists_ne_nil hg hend _ h) m⟩
  | comment =>
    refine ⟨'\n' :: closers ls, ?_⟩
    rw [run_on feed_comment]
    exact run_closers hg he hend (lists_ne_nil hg hend _ h) _
  | token g => exact ⟨_, gather .token g h⟩
  | character g => exact ⟨_, gather .character g h⟩
  | string g =>
    refine ⟨'"' :: closers ls, ?_⟩
    rw [run_on (feed_string_quote hg)]
    exact run_put_closers hg he hend ls _ _
  | escape g =>
    refine ⟨'"' :: '"' :: closers ls, ?_⟩
    rw [run_on (feed_escape rfl), run_on (feed_string_quote hg)]
    exact run_put_closers hg he hend ls _ _
  | backslash =>
    refine ⟨'a' :: closers ls, ?_⟩
    rw [run_on feed_character_first, run_settle hg he .character (stopsToken_closers ls) rfl]
    exact run_put_closers hg he hend ls _ _

end

/-! ### Other ends -/

/-- If the end of a text is at fault and not unexpected, then a token or a character is, and it is
with a line feed in place of the end. -/
theorem feed_newline_failed (hg : cfg.goal = .all) (h : (st.close cfg []).stop = .failed f)
    (hf : f.isUnexpectedEnd = false) :
    st.feed cfg ['\n'] = .back (st.close cfg []).state (.failed f) := by
  obtain ⟨mode, ls, fs, m, w⟩ := st
  have between {st : State W} (h : (st.endBetween cfg []).stop = .failed f) : False := by
    rw [isUnexpectedEnd_endBetween h] at hf
    cases hf
  have gather {k : List Char → Mode} (hk : Gathers k) (g : List Char)
      (h : (close cfg ⟨k g, ls, fs, m, w⟩ []).stop = .failed f) :
      feed cfg ⟨k g, ls, fs, m, w⟩ ['\n'] =
        .back (close cfg ⟨k g, ls, fs, m, w⟩ []).state (.failed f) := by
    rw [feed_settle hg hk (by decide)]
    rw [close_gather hg hk] at h ⊢
    rcases hs : settle cfg ⟨k g, ls, fs, m, w⟩ with ⟨st', _ | f'⟩
    · rw [hs] at h
      exact (between h).elim
    · rw [hs] at h
      exact congrArg (Step.back st') h
  cases mode with
  | between | comment => exact (between h).elim
  | token g => exact gather .token g h
  | character g => exact gather .character g h
  | string | escape | backslash =>
    cases h
    cases hf

theorem run_newline (hg : cfg.goal = .all) (h : (st.close cfg []).stop = .failed f)
    (hf : f.isUnexpectedEnd = false) (ds : List Char) :
    (run cfg st ('\n' :: ds)).state = (st.close cfg []).state ∧
      (run cfg st ('\n' :: ds)).stop = .failed f := by
  rw [run_back (feed_newline_failed hg h hf)]
  exact ⟨rfl, rfl⟩

/-! ### Whole texts -/

/-- What a failing run has to do with the runs over longer texts: it fails because the text ends, or
it fails on the next line too. -/
theorem run_incomplete (hg : cfg.goal = .all) (he : cfg.ending = .complete)
    (hend : cfg.endIsError = false) {cs : List Char} (h : (run cfg st cs).stop = .failed f) :
    (f.isUnexpectedEnd = true →
      ∃ ds, (run cfg st (cs ++ ds)).Completes (run cfg st cs).state.forms) ∧
    (f.isUnexpectedEnd = false → ∀ ds,
      (run cfg st (cs ++ '\n' :: ds)).state = (run cfg st cs).state ∧
        (run cfg st (cs ++ '\n' :: ds)).stop = .failed f) := by
  rcases run_append hg cs st with ⟨st', -, happ⟩ | ⟨st', f', hf', happ⟩
  · -- the whole text is taken, and it fails at its end
    have happ (ds : List Char) : run cfg st (cs ++ ds) = run cfg st' ds := happ cfg.endIsError ds
    have hclose : run cfg st cs = st'.close cfg [] := by
      rw [← run_nil st' he]
      simpa using happ []
    rw [hclose] at h ⊢
    refine ⟨fun hf => ?_, fun hf ds => ?_⟩
    · obtain ⟨ds, hds⟩ := exists_completion hg he hend h hf
      exact ⟨ds, by rwa [happ]⟩
    · rw [happ]
      exact run_newline hg h hf ds
  · have hrun (ds : List Char) : (run cfg st (cs ++ ds)).state = st' ∧
        (run cfg st (cs ++ ds)).stop = .failed f' := by
      obtain ⟨cursor, hcursor⟩ := happ cfg.endIsError ds
      exact ⟨congrArg Outcome.state hcursor, congrArg Outcome.stop hcursor⟩
    have hempty := hrun []
    rw [List.append_nil] at hempty
    obtain rfl : f' = f := Stop.failed.inj (hempty.2.symm.trans h)
    refine ⟨fun hf => ?_, fun _ ds => ?_⟩
    · rw [hf'] at hf
      cases hf
    · exact ⟨(hrun _).1.trans hempty.1.symm, (hrun _).2⟩

/-- A text whose end is unexpected can be completed, and then has one form more. Any other fault
stays as it is, whatever follows on the next line. -/
theorem read_incomplete (sv : Services W) (suppress : Bool) (line col : Option Int) (t : String)
    (w : W) {f : Fault}
    (hfault : (read sv ⟨false, suppress, line, col⟩ (.ofString t) w).fault = some f) :
    let reading (text : String) := read sv ⟨false, suppress, line, col⟩ (.ofString text) w
    (f.isUnexpectedEnd = true → ∃ u v, (reading (t ++ u)).fault = none ∧
      (reading (t ++ u)).forms = (reading t).forms ++ [v]) ∧
    (f.isUnexpectedEnd = false → ∀ u, reading (t ++ "\n" ++ u) = reading t) := by
  intro reading
  let cfg : Settings W := ⟨sv, .all, suppress, false, none, .complete⟩
  let st := State.initial (.initial line col) (sv.note (Source.ofString t).opening w)
  have hread (text : String) : reading text =
      ⟨(run cfg st text.toList).forms, (run cfg st text.toList).fault?,
        (run cfg st text.toList).state.world⟩ := rfl
  have hstop : (run cfg st t.toList).stop = .failed f := Outcome.fault?_eq_some_iff.1 hfault
  obtain ⟨hcomplete, hsame⟩ := @run_incomplete _ cfg st f rfl rfl rfl t.toList hstop
  refine ⟨fun hf => ?_, fun hf u => ?_⟩
  · obtain ⟨ds, hended, v, hforms⟩ := hcomplete hf
    have hds : (t ++ String.ofList ds).toList = t.toList ++ ds := by
      rw [String.toList_append, String.toList_ofList]
    refine ⟨.ofList ds, v, ?_, ?_⟩
    · rw [hread, hds]
      apply Outcome.fault?_eq_none_iff.2
      rw [hended]
      exact fun _ => Stop.noConfusion
    · rw [hread, hread, hds]
      show (run cfg st (t.toList ++ ds)).state.forms.reverse = _
      rw [hforms, List.reverse_cons]
      rfl
  · obtain ⟨hstate, hfailed⟩ := hsame hf u.toList
    have hu : (t ++ "\n" ++ u).toList = t.toList ++ '\n' :: u.toList := by
      rw [String.toList_append, String.toList_append, List.append_assoc]
      rfl
    rw [hread, hread, hu]
    simp only [Outcome.forms, Outcome.fault?, hstate, hfailed, hstop]

/-- A text that ends in a string in a list can be completed, and one with a token without a value
cannot. -/
theorem read_incomplete_string :
    let reading (text : String) :=
      read (.standard .standard) ⟨false, false, some 5, none⟩ (.ofString text) .empty
    (∃ u v, (reading ("a (b \"c\\" ++ u)).fault = none ∧
      (reading ("a (b \"c\\" ++ u)).forms = (reading "a (b \"c\\").forms ++ [v]) ∧
    ∀ u, reading ("a (1x" ++ "\n" ++ u) = reading "a (1x" := by
  intro reading
  have h : (reading "a (b \"c\\").fault = some (.misread ⟨.unfinished .string, 5, 9, none⟩) := by
    decide +kernel
  have h' : (reading "a (1x").fault = some (.misread ⟨.token "1x", 5, 5, none⟩) := by
    decide +kernel
  exact ⟨(read_incomplete (.standard .standard) false (some 5) none "a (b \"c\\" .empty h).1 rfl,
    (read_incomplete (.standard .standard) false (some 5) none "a (1x" .empty h').2 rfl⟩

end LispForms
