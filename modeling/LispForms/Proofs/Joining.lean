import LispForms.Proofs.Step
import LispForms.Proofs.Store.Agreement
import LispForms.Reader.Reading

/-! Reading a text that is put together from two with a line feed between them. What the first
part leaves behind for the second is the world and the line; the forms of the first part are only
carried along. -/

namespace LispForms

variable {W : Type} {cfg : Settings W} {R : W → W → Prop} {F : List Form} {ls : List OpenList}
  {fs : List Form} {m m' : Mark} {w v : W} {c : Char}

/-! ### Forms that are carried along -/

/-- Two states that differ in their worlds and in that one has more forms behind it. -/
inductive State.Carries (R : W → W → Prop) (F : List Form) : State W → State W → Prop
  | mk {mode ls fs m w v} (hw : R w v) : Carries R F ⟨mode, ls, fs ++ F, m, v⟩ ⟨mode, ls, fs, m, w⟩

inductive Step.Carries (R : W → W → Prop) (F : List Form) : Step W → Step W → Prop
  | on {st st'} : State.Carries R F st st' → Carries R F (.on st) (.on st')
  | past {st st' stop before before'} :
    State.Carries R F st st' → Carries R F (.past st stop before) (.past st' stop before')
  | back {st st' stop} : State.Carries R F st st' → Carries R F (.back st stop) (.back st' stop)

namespace State.Carries

variable {st st' : State W}

theorem put (h : State.Carries R F st st') (x : Form) :
    State.Carries R F (st.put cfg x) (st'.put cfg x) := by
  obtain @⟨mode, ls, fs, m, w, v, hw⟩ := h
  cases ls with
  | nil => exact @mk _ R F _ _ (_ :: fs) _ _ _ hw
  | cons l ls => exact mk hw

/-- Where no form has begun, the two places need only agree on what follows them. -/
theorem feed_between (hg : cfg.goal = .all) (hm : m.next [c] = m'.next [c]) (hw : R w v) :
    Step.Carries R F (State.feed cfg ⟨.between, ls, fs ++ F, m, v⟩ [c])
      (State.feed cfg ⟨.between, ls, fs, m', w⟩ [c]) := by
  rcases Lexeme.first_cases c with hc | rfl | rfl | rfl | rfl | rfl | hc
  · rw [feed_blank hc, feed_blank hc, hm]
    exact .on (.mk hw)
  · rw [feed_semicolon hg, feed_semicolon hg, hm]
    exact .on (.mk hw)
  · rw [feed_opening hg, feed_opening hg, hm]
    exact .on (.mk hw)
  · cases ls with
    | nil =>
      rw [feed_unmatched hg, feed_unmatched hg, hm]
      exact .past (.mk hw)
    | cons l ls =>
      rw [feed_closing hg, feed_closing hg, hm]
      exact .on ((mk hw).put _)
  · rw [feed_quote hg, feed_quote hg, hm]
    exact .on (.mk hw)
  · rw [feed_backslash hg, feed_backslash hg, hm]
    exact .on (.mk hw)
  · rw [feed_ordinary hg hc, feed_ordinary hg hc, hm]
    exact .on (.mk hw)

theorem settle (hr : cfg.services.Respects R) {k : List Char → Mode} (hk : Gathers k) (hw : R w v)
    (g : List Char) :
    State.Carries R F (State.settle cfg ⟨k g, ls, fs ++ F, m, v⟩).1
        (State.settle cfg ⟨k g, ls, fs, m, w⟩).1 ∧
      (State.settle cfg ⟨k g, ls, fs ++ F, m, v⟩).2 = (State.settle cfg ⟨k g, ls, fs, m, w⟩).2 := by
  cases hk with
  | character =>
    simp only [State.settle]
    cases Token.character? g.reverse with
    | some c => exact ⟨(mk hw).put _, rfl⟩
    | none => exact ⟨.mk hw, rfl⟩
  | token =>
    simp only [State.settle]
    split
    · exact ⟨(mk hw).put _, rfl⟩
    · have hi := hr.interpret hw (State.locate cfg ⟨.token g, ls, fs, m, w⟩) g.reverse
      have hl : State.locate cfg ⟨.token g, ls, fs ++ F, m, v⟩ =
        State.locate cfg ⟨.token g, ls, fs, m, w⟩ := rfl
      rw [hl]
      revert hi
      rcases cfg.services.interpret _ g.reverse w with ⟨r, w'⟩
      rcases cfg.services.interpret _ g.reverse v with ⟨r', v'⟩
      rintro ⟨rfl, hw'⟩
      cases r' with
      | ok x => exact ⟨(mk hw').put x, rfl⟩
      | error f => exact ⟨.mk hw', rfl⟩

theorem feed (hg : cfg.goal = .all) (hr : cfg.services.Respects R) (h : State.Carries R F st st') :
    Step.Carries R F (st.feed cfg [c]) (st'.feed cfg [c]) := by
  obtain @⟨mode, ls, fs, m, w, v, hw⟩ := h
  have gather {k : List Char → Mode} (hk : Gathers k) (g : List Char) :
      Step.Carries R F (State.feed cfg ⟨k g, ls, fs ++ F, m, v⟩ [c])
        (State.feed cfg ⟨k g, ls, fs, m, w⟩ [c]) := by
    by_cases hc : isOrdinary c = true
    · rw [feed_gather hk hc, feed_gather hk hc]
      exact .on (.mk hw)
    · have hc : isOrdinary c = false := by simpa using hc
      rw [feed_settle hg hk hc, feed_settle hg hk hc]
      obtain ⟨hs, hf⟩ := @settle _ cfg R F ls fs m w v hr k hk hw g
      rcases hv : State.settle cfg ⟨k g, ls, fs ++ F, m, v⟩ with ⟨s, f⟩
      rcases hw' : State.settle cfg ⟨k g, ls, fs, m, w⟩ with ⟨s', f'⟩
      rw [hv, hw'] at hs hf
      obtain rfl : f = f' := hf
      cases f with
      | some f => exact .back hs
      | none =>
        have hm' := mode_settle hk hw'
        obtain @⟨mode, ls', fs', m', w', v', hs⟩ := hs
        obtain rfl : mode = .between := hm'
        have hb := @feed_between _ cfg R F ls' fs' m' m' w' v' c hg rfl hs
        rwa [feed_eq_take rfl, feed_eq_take rfl] at hb
  cases mode with
  | between => exact feed_between hg rfl hw
  | comment =>
    rw [feed_comment, feed_comment]
    exact .on (.mk hw)
  | token g => exact gather .token g
  | character g => exact gather .character g
  | backslash =>
    rw [feed_character_first, feed_character_first]
    exact .on (.mk hw)
  | string g =>
    by_cases hq : c = '"'
    · rw [hq, feed_string_quote hg, feed_string_quote hg]
      exact .on ((mk hw).put _)
    · by_cases hb : c = '\\'
      · rw [hb, feed_string_backslash, feed_string_backslash]
        exact .on (.mk hw)
      · rw [feed_string hq hb, feed_string hq hb]
        exact .on (.mk hw)
  | escape g =>
    cases hx : State.unescape? c with
    | some x =>
      rw [feed_escape hx, feed_escape hx]
      exact .on (.mk hw)
    | none =>
      rw [feed_unsupported hx, feed_unsupported hx]
      exact .past (.mk hw)

theorem endBetween (hm : m.next [] = m'.next []) (hw : R w v) (mode : Mode) (rest : List Char) :
    State.Carries R F (State.endBetween cfg ⟨mode, ls, fs ++ F, m, v⟩ rest).state
        (State.endBetween cfg ⟨mode, ls, fs, m', w⟩ rest).state ∧
      (State.endBetween cfg ⟨mode, ls, fs ++ F, m, v⟩ rest).stop =
        (State.endBetween cfg ⟨mode, ls, fs, m', w⟩ rest).stop := by
  simp only [State.endBetween, State.advance, State.locate, Outcome.past, hm, and_true]
  exact .mk hw

theorem close (hg : cfg.goal = .all) (hr : cfg.services.Respects R) (h : State.Carries R F st st')
    (rest : List Char) : State.Carries R F (st.close cfg rest).state (st'.close cfg rest).state ∧
      (st.close cfg rest).stop = (st'.close cfg rest).stop := by
  obtain @⟨mode, ls, fs, m, w, v, hw⟩ := h
  have gather {k : List Char → Mode} (hk : Gathers k) (g : List Char) :
      State.Carries R F (State.close cfg ⟨k g, ls, fs ++ F, m, v⟩ rest).state
          (State.close cfg ⟨k g, ls, fs, m, w⟩ rest).state ∧
        (State.close cfg ⟨k g, ls, fs ++ F, m, v⟩ rest).stop =
          (State.close cfg ⟨k g, ls, fs, m, w⟩ rest).stop := by
    obtain ⟨hs, hf⟩ := @settle _ cfg R F ls fs m w v hr k hk hw g
    rcases hv : State.settle cfg ⟨k g, ls, fs ++ F, m, v⟩ with ⟨s, f⟩
    rcases hw' : State.settle cfg ⟨k g, ls, fs, m, w⟩ with ⟨s', f'⟩
    rw [hv, hw'] at hs hf
    obtain rfl : f = f' := hf
    rw [close_gather hg hk, close_gather hg hk, hv, hw']
    cases f with
    | some f => exact ⟨hs, rfl⟩
    | none =>
      obtain @⟨mode, ls', fs', m', w', v', hs⟩ := hs
      exact endBetween rfl hs _ _
  cases mode with
  | between => exact endBetween rfl hw _ _
  | comment => exact endBetween rfl hw _ _
  | token g => exact gather .token g
  | character g => exact gather .character g
  | string | escape | backslash => exact ⟨.mk hw, rfl⟩

theorem run (hg : cfg.goal = .all) (he : cfg.ending = .complete) (hr : cfg.services.Respects R)
    (cs : List Char) : ∀ {st st' : State W}, State.Carries R F st st' →
      State.Carries R F (run cfg st cs).state (run cfg st' cs).state ∧
        (run cfg st cs).stop = (run cfg st' cs).stop := by
  induction cs with
  | nil =>
    intro st st' h
    rw [run_nil _ he, run_nil _ he]
    exact close hg hr h []
  | cons c cs ih =>
    intro st st' h
    have hf : Step.Carries R F (st.feed cfg [c]) (st'.feed cfg [c]) := h.feed hg hr
    rw [LispForms.run, LispForms.run]
    generalize st.feed cfg [c] = s, st'.feed cfg [c] = s' at hf
    cases hf with
    | on h => exact ih h
    | past h => exact ⟨h, rfl⟩
    | back h => exact ⟨h, rfl⟩

end State.Carries

/-! ### The end of a text and a line feed in its place -/

/-- Where the end of a text is no error, a line feed in its place brings the machine between forms
outside of lists, and no form is lost. -/
theorem feed_newline (hg : cfg.goal = .all) {st : State W}
    (h : ∀ f, (st.close cfg []).stop ≠ .failed f) :
    st.feed cfg ['\n'] = .on ⟨.between, [], (st.close cfg []).state.forms, st.mark.next ['\n'],
      (st.close cfg []).state.world⟩ := by
  have hb : Text.isBlank '\n' = true := by decide
  obtain ⟨mode, ls, fs, m, w⟩ := st
  have lists {mode : Mode} {ls : List OpenList} {fs : List Form} {m : Mark} {w : W}
      (h : ∀ f, (State.endBetween cfg ⟨mode, ls, fs, m, w⟩ []).stop ≠ .failed f) : ls = [] := by
    cases ls with
    | nil => rfl
    | cons l ls => exact (h _ rfl).elim
  have gather {k : List Char → Mode} (hk : Gathers k) (g : List Char)
      (hend : ∀ f, (State.close cfg ⟨k g, ls, fs, m, w⟩ []).stop ≠ .failed f) :
      State.feed cfg ⟨k g, ls, fs, m, w⟩ ['\n'] =
        .on ⟨.between, [], (State.close cfg ⟨k g, ls, fs, m, w⟩ []).state.forms, m.next ['\n'],
          (State.close cfg ⟨k g, ls, fs, m, w⟩ []).state.world⟩ := by
    rw [close_gather hg hk] at hend ⊢
    rw [feed_settle hg hk (by decide)]
    have hmark := @State.mark_settle _ cfg ⟨k g, ls, fs, m, w⟩
    rcases hs : State.settle cfg ⟨k g, ls, fs, m, w⟩ with ⟨⟨mode, ls, fs, m', w⟩, _ | f⟩
    · rw [hs] at hend hmark
      obtain rfl : mode = .between := mode_settle hk hs
      obtain rfl : m' = m := hmark
      obtain rfl := lists hend
      exact (feed_eq_take rfl).symm.trans (feed_blank hb)
    · rw [hs] at hend
      exact (hend f rfl).elim
  cases mode with
  | between =>
    obtain rfl := lists h
    exact feed_blank hb
  | comment =>
    obtain rfl : ls = [] := lists h
    exact feed_comment
  | token g => exact gather .token g h
  | character g => exact gather .character g h
  | string | escape | backslash => exact (h _ rfl).elim

/-- Behind a text that does not fail and a line feed, the machine stands between forms outside of
lists, with the forms and the world that the text alone comes to. -/
theorem run_append_newline (hg : cfg.goal = .all) (he : cfg.ending = .complete) {cs : List Char}
    {st : State W} (h : ∀ f, (run cfg st cs).stop ≠ .failed f) (endIsError : Bool)
    (ds : List Char) :
    run { cfg with endIsError } st (cs ++ ['\n'] ++ ds) =
      run { cfg with endIsError } ⟨.between, [], (run cfg st cs).state.forms,
        st.mark.through (cs ++ ['\n']), (run cfg st cs).state.world⟩ ds := by
  rcases run_append hg cs st with ⟨st', hmark, happ⟩ | ⟨st', f, -, hfailed⟩
  · have hclose : run cfg st cs = st'.close cfg [] := by
      rw [← run_nil st' he]
      simpa using happ cfg.endIsError []
    rw [hclose] at h ⊢
    have hf : st'.feed { cfg with endIsError } ['\n'] = _ := feed_newline hg h
    rw [List.append_assoc, happ, Mark.through_append, ← hmark]
    exact run_on hf
  · obtain ⟨cursor, hrun⟩ := hfailed cfg.endIsError []
    have hstop : (run cfg st cs).stop = .failed f := by
      rw [← List.append_nil cs]
      exact congrArg Outcome.stop hrun
    exact (h f hstop).elim

/-- Behind a line feed the line is the next one, as it is before a text that is given that line. -/
theorem next_newline (m : Mark) (p : Piece) :
    (m.next ['\n']).next p =
      (Mark.initial (some ((m.next ['\n']).line + 1)) (some 0)).next p := by
  have h : (m.next ['\n']).after = .lf := by
    unfold Mark.next
    split <;> rfl
  generalize m.next ['\n'] = n at h ⊢
  simp [Mark.next, Mark.breaksBefore, Mark.initial, h]

theorem State.Carries.forms {st st' : State W} (h : State.Carries R F st st') :
    st.forms = st'.forms ++ F := by
  cases h
  rfl

theorem State.Carries.world {st st' : State W} (h : State.Carries R F st st') :
    R st'.world st.world := by
  cases h
  assumption

/-- From between forms on, forms that are there already are only carried along, and the two places
need only agree on what follows them. -/
theorem run_next (hg : cfg.goal = .all) (he : cfg.ending = .complete)
    (hr : cfg.services.Respects R) (hw : R w v) {cs : List Char}
    (hm : m.next cs.head?.toList = m'.next cs.head?.toList) :
    State.Carries R F (run cfg ⟨.between, ls, fs ++ F, m, v⟩ cs).state
        (run cfg ⟨.between, ls, fs, m', w⟩ cs).state ∧
      (run cfg ⟨.between, ls, fs ++ F, m, v⟩ cs).stop =
        (run cfg ⟨.between, ls, fs, m', w⟩ cs).stop := by
  cases cs with
  | nil =>
    rw [run_nil _ he, run_nil _ he]
    exact @State.Carries.endBetween _ cfg R F ls fs m m' w v hm hw .between []
  | cons c cs =>
    have hf : Step.Carries R F (State.feed cfg ⟨.between, ls, fs ++ F, m, v⟩ [c])
        (State.feed cfg ⟨.between, ls, fs, m', w⟩ [c]) := State.Carries.feed_between hg hm hw
    rw [run, run]
    generalize State.feed cfg ⟨.between, ls, fs ++ F, m, v⟩ [c] = s,
      State.feed cfg ⟨.between, ls, fs, m', w⟩ [c] = s' at hf
    cases hf with
    | on h => exact h.run hg he hr cs
    | past h => exact ⟨h, rfl⟩
    | back h => exact ⟨h, rfl⟩

theorem run_between (hg : cfg.goal = .all) (he : cfg.ending = .complete)
    (hr : cfg.services.Respects R) (hm : ∀ p, m.next p = m'.next p) (hw : R w v) (cs : List Char) :
    State.Carries R F (run cfg ⟨.between, [], F, m, v⟩ cs).state
        (run cfg ⟨.between, [], [], m', w⟩ cs).state ∧
      (run cfg ⟨.between, [], F, m, v⟩ cs).stop = (run cfg ⟨.between, [], [], m', w⟩ cs).stop :=
  @run_next _ cfg R F [] [] m m' w v hg he hr hw cs (hm _)

/-- A text, a line feed and another text: the forms of the first, then whatever reading the second
comes to on the line behind the line feed, with the world that the first leaves. -/
theorem read_append_newline (env : Host.Environment) (s : Store) (line col : Option Int)
    (suppress endIsError : Bool) (t u : String)
    (h : (read (.standard env) ⟨false, suppress, line, col⟩ (.ofString t) s).fault = none) :
    let first := read (.standard env) ⟨false, suppress, line, col⟩ (.ofString t) s
    let newline := (Mark.initial line col).through (t.toList ++ ['\n'])
    let second := read (.standard env) ⟨endIsError, suppress, some (newline.line + 1), some 0⟩
      (.ofString u) first.world
    let joined := read (.standard env) ⟨endIsError, suppress, line, col⟩
      (.ofString (t ++ "\n" ++ u)) s
    joined.forms = first.forms ++ second.forms ∧ joined.fault = second.fault ∧
      second.world.Agrees joined.world := by
  intro first newline second joined
  let cfg : Settings Store := ⟨.standard env, .all, suppress, false, none, .complete⟩
  let st := State.initial (.initial line col)
    ((Services.standard env).note (Source.ofString t).opening s)
  have hstop : ∀ f, (run cfg st t.toList).stop ≠ .failed f := Outcome.fault?_eq_none_iff.1 h
  have hnext (p : Piece) :
      newline.next p = (Mark.initial (some (newline.line + 1)) (some 0)).next p := by
    have hn : newline = ((Mark.initial line col).through t.toList).next ['\n'] :=
      Mark.through_append _ _ _
    rw [hn]
    exact next_newline _ p
  -- the run over the joined text, from behind the line feed
  have hjoined : run { cfg with endIsError } st (t ++ "\n" ++ u).toList =
      run { cfg with endIsError } ⟨.between, [], (run cfg st t.toList).state.forms, newline,
        first.world⟩ u.toList := by
    rw [String.toList_append, String.toList_append]
    exact run_append_newline rfl rfl hstop endIsError u.toList
  obtain ⟨hcarries, hstops⟩ := @run_between _ { cfg with endIsError } Store.Agrees
    (run cfg st t.toList).state.forms newline (.initial (some (newline.line + 1)) (some 0))
    ((Services.standard env).note (Source.ofString u).opening first.world) first.world
    rfl rfl (Services.respects_standard env) hnext ((Store.Agrees.refl _).note_left _ _ _) u.toList
  rw [← hjoined] at hcarries hstops
  refine ⟨?_, ?_, hcarries.world⟩
  · exact (congrArg List.reverse hcarries.forms).trans List.reverse_append
  · exact Outcome.fault?_congr hstops

/-- A first text that ends in a comment, and a second one that fails. -/
theorem read_append_newline_comment :
    let first := read (.standard .standard) ⟨false, false, some 5, none⟩ (.ofString "(a) ; b")
      .empty
    let second := read (.standard .standard) ⟨true, false, some 6, some 0⟩ (.ofString " c)")
      first.world
    let joined := read (.standard .standard) ⟨true, false, some 5, none⟩
      (.ofString "(a) ; b\n c)") .empty
    first.fault = none ∧ second.fault = some (.misread ⟨.delimiter ")", 6, 3, none⟩) ∧
      joined.forms = first.forms ++ second.forms ∧ joined.fault = second.fault ∧
      second.world.Agrees joined.world := by
  intro first second joined
  have h : first.fault = none := by decide +kernel
  exact ⟨h, by decide +kernel,
    read_append_newline .standard .empty (some 5) none false true "(a) ; b" " c)" h⟩

end LispForms
