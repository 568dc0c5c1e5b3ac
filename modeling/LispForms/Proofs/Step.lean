import LispForms.Proofs.Lexeme
import LispForms.Proofs.TokenFault
import LispForms.Reader.Reading

/-! What one character does in each mode of the reading machine, and what the end of the text does.
A reading for every form of a text never ends at a form, so that each character either leads on or
fails. -/

namespace LispForms

variable {W : Type} {cfg : Settings W} {ls : List OpenList} {fs : List Form} {m : Mark} {w : W}
  {g : List Char} {c : Char} {cs : List Char}

open State

/-- The place behind characters that are read from a place on. -/
def Mark.through (m : Mark) (cs : List Char) : Mark := cs.foldl (fun m c => m.next [c]) m

theorem Mark.through_append (m : Mark) (cs ds : List Char) :
    m.through (cs ++ ds) = (m.through cs).through ds := List.foldl_append

theorem Mark.through_cons (m : Mark) (c : Char) (cs : List Char) :
    m.through (c :: cs) = (m.next [c]).through cs := rfl

theorem Mark.through_concat (m : Mark) (cs : List Char) (c : Char) :
    m.through (cs ++ [c]) = (m.through cs).next [c] := through_append m cs [c]

theorem run_nil (st : State W) (he : cfg.ending = .complete) : run cfg st [] = st.close cfg [] := by
  rw [run, he]

theorem run_on {st st' : State W} (h : st.feed cfg [c] = .on st') :
    run cfg st (c :: cs) = run cfg st' cs := by
  rw [run, h]

theorem run_past {st st' : State W} {stop : Stop} {before : Mark}
    (h : st.feed cfg [c] = .past st' stop before) :
    run cfg st (c :: cs) = .past st' stop before cs := by
  rw [run, h]

theorem run_back {st st' : State W} {stop : Stop} (h : st.feed cfg [c] = .back st' stop) :
    run cfg st (c :: cs) = .back st' stop [c] cs := by
  rw [run, h]

/-! ### Runs that fail -/

/-- What is still to be read, the pending piece first. -/
def Cursor.ahead (c : Cursor) : List Char :=
  match c.slot with
  | .pushed p => p ++ c.rest
  | _ => c.rest

/-- The fault of a problem in a text whose last character read stands at `m`. -/
def Mark.locate (m : Mark) (source : Option String) (p : Problem) : Fault :=
  .misread ⟨p, m.line, m.col, source⟩

/-- The run ends in a fault. The place, the open lists, the forms and the world are those of `st`,
and `ahead` is still to be read. -/
structure Outcome.Fails (st : State W) (f : Fault) (ahead : List Char) (o : Outcome W) : Prop where
  stop : o.stop = .failed f
  lists : o.state.lists = st.lists
  forms : o.state.forms = st.forms
  world : o.state.world = st.world
  mark : o.cursor.mark = st.mark
  ahead : o.cursor.ahead = ahead

/-- What the machine was in the middle of does not matter any more. -/
theorem Outcome.Fails.of_mode {mode mode' : Mode} {f : Fault} {ahead : List Char} {o : Outcome W}
    (h : o.Fails ⟨mode, ls, fs, m, w⟩ f ahead) : o.Fails ⟨mode', ls, fs, m, w⟩ f ahead :=
  ⟨h.stop, h.lists, h.forms, h.world, h.mark, h.ahead⟩

/-! ### A form is never the goal -/

theorem satisfied_eq_false (hg : cfg.goal = .all) (st : State W) : st.satisfied cfg = false := by
  rw [satisfied, hg]
  rfl

theorem proceed_eq_on (hg : cfg.goal = .all) (st : State W) (before : Mark) :
    st.proceed cfg before = .on st := by
  simp [proceed, satisfied_eq_false hg]

@[simp] theorem mode_put (v : Form) (st : State W) : (st.put cfg v).mode = .between := by
  unfold put
  cases st.lists <;> rfl

/-! ### Between forms -/

theorem feed_blank (h : Text.isBlank c = true) :
    feed cfg ⟨.between, ls, fs, m, w⟩ [c] = .on ⟨.between, ls, fs, m.next [c], w⟩ := by
  simp [feed, take, beginForm, Mode.endsAt, advance, h]

theorem feed_quote (hg : cfg.goal = .all) :
    feed cfg ⟨.between, ls, fs, m, w⟩ ['"'] = .on ⟨.string [], ls, fs, m.next ['"'], w⟩ := by
  have hb : Text.isBlank '"' = false := by decide
  simp [feed, take, beginForm, Mode.endsAt, advance, hb, hg]

theorem feed_semicolon (hg : cfg.goal = .all) :
    feed cfg ⟨.between, ls, fs, m, w⟩ [';'] = .on ⟨.comment, ls, fs, m.next [';'], w⟩ := by
  have hb : Text.isBlank ';' = false := by decide
  simp [feed, take, beginForm, Mode.endsAt, advance, hb, hg]

theorem feed_backslash (hg : cfg.goal = .all) :
    feed cfg ⟨.between, ls, fs, m, w⟩ ['\\'] = .on ⟨.backslash, ls, fs, m.next ['\\'], w⟩ := by
  have hb : Text.isBlank '\\' = false := by decide
  simp [feed, take, beginForm, Mode.endsAt, advance, hb, hg]

theorem feed_opening (hg : cfg.goal = .all) :
    feed cfg ⟨.between, ls, fs, m, w⟩ ['('] =
      .on ⟨.between, ⟨m.next ['('], []⟩ :: ls, fs, m.next ['('], w⟩ := by
  have hb : Text.isBlank '(' = false := by decide
  simp [feed, take, beginForm, Mode.endsAt, advance, hb, hg]

theorem feed_closing (hg : cfg.goal = .all) (l : OpenList) :
    feed cfg ⟨.between, l :: ls, fs, m, w⟩ [')'] =
      .on (put cfg (.list l.items.reverse (some (.between l.start (m.next [')']))))
        ⟨.between, ls, fs, m.next [')'], w⟩) := by
  have hb : Text.isBlank ')' = false := by decide
  simp [feed, take, beginForm, Mode.endsAt, advance, hb, proceed_eq_on hg]

theorem feed_unmatched (hg : cfg.goal = .all) :
    feed cfg ⟨.between, [], fs, m, w⟩ [')'] =
      .past ⟨.between, [], fs, m.next [')'], w⟩
        (.failed (locate cfg ⟨.between, [], fs, m.next [')'], w⟩ (.delimiter ")"))) m := by
  have hb : Text.isBlank ')' = false := by decide
  simp [feed, take, beginForm, Mode.endsAt, advance, hb, hg]

theorem feed_ordinary (hg : cfg.goal = .all) (h : isOrdinary c = true) :
    feed cfg ⟨.between, ls, fs, m, w⟩ [c] = .on ⟨.token [c], ls, fs, m.next [c], w⟩ := by
  simp only [isOrdinary, isSpecial, Bool.and_eq_true, Bool.not_eq_true', List.contains_eq_mem,
    decide_eq_false_iff_not, List.mem_cons, List.not_mem_nil, not_or] at h
  simp [feed, take, beginForm, Mode.endsAt, advance, h, hg]

/-! ### Inside a comment or a string -/

theorem feed_comment :
    feed cfg ⟨.comment, ls, fs, m, w⟩ [c] =
      .on ⟨if Text.isLineBreak c then .between else .comment, ls, fs, m.next [c], w⟩ := by
  by_cases h : c = '\n' ∨ c = '\r' <;>
    simp [feed, take, Mode.endsAt, advance, Text.isLineBreak, h]

/-- A comment ends with its line, or the text ends in it. -/
theorem run_comment (he : cfg.ending = .complete) : ∀ (cs : List Char) (m : Mark),
    let body := (Lexeme.splitComment cs).1
    let rest := (Lexeme.splitComment cs).2
    Lexeme.endsLine body = true ∧ run cfg ⟨.comment, ls, fs, m, w⟩ cs =
        run cfg ⟨.between, ls, fs, m.through body, w⟩ rest ∨
      Lexeme.endsLine body = false ∧ rest = [] ∧ run cfg ⟨.comment, ls, fs, m, w⟩ cs =
        endBetween cfg ⟨.comment, ls, fs, (m.through body).next [], w⟩ []
  | [], m => .inr ⟨rfl, rfl, run_nil _ he⟩
  | c :: cs, m => by
    rw [run_on feed_comment]
    by_cases hc : Text.isLineBreak c = true
    · left
      simp [Lexeme.splitComment, Lexeme.endsLine, hc, Mark.through]
    · have hends (body : List Char) :
          Lexeme.endsLine (c :: body) = Lexeme.endsLine body := by
        cases body <;> simp [Lexeme.endsLine, hc]
      simpa [Lexeme.splitComment, hc, Mark.through_cons, hends] using run_comment he cs (m.next [c])

theorem feed_string_quote (hg : cfg.goal = .all) :
    feed cfg ⟨.string g, ls, fs, m, w⟩ ['"'] =
      .on (put cfg (.text (.ofList g.reverse)) ⟨.string g, ls, fs, m.next ['"'], w⟩) := by
  simp [feed, take, Mode.endsAt, advance, proceed_eq_on hg]

theorem feed_string_backslash :
    feed cfg ⟨.string g, ls, fs, m, w⟩ ['\\'] = .on ⟨.escape g, ls, fs, m.next ['\\'], w⟩ := by
  simp [feed, take, Mode.endsAt, advance]

theorem feed_string (hq : c ≠ '"') (hb : c ≠ '\\') :
    feed cfg ⟨.string g, ls, fs, m, w⟩ [c] = .on ⟨.string (c :: g), ls, fs, m.next [c], w⟩ := by
  simp [feed, take, Mode.endsAt, advance, hq, hb]

theorem feed_escape {x : Char} (h : unescape? c = some x) :
    feed cfg ⟨.escape g, ls, fs, m, w⟩ [c] = .on ⟨.string (x :: g), ls, fs, m.next [c], w⟩ := by
  simp [feed, take, Mode.endsAt, advance, h]

theorem feed_unsupported (h : unescape? c = none) :
    feed cfg ⟨.escape g, ls, fs, m, w⟩ [c] =
      .past ⟨.escape g, ls, fs, m.next [c], w⟩
        (.failed (locate cfg ⟨.escape g, ls, fs, m.next [c], w⟩ (.escape (.singleton c)))) m := by
  simp [feed, take, Mode.endsAt, advance, h]

/-! ### Inside a character or a token -/

theorem feed_character_first :
    feed cfg ⟨.backslash, ls, fs, m, w⟩ [c] = .on ⟨.character [c], ls, fs, m.next [c], w⟩ := by
  simp [feed, take, Mode.endsAt, advance]

/-- What a token or the name of a character gathers. -/
inductive Gathers : (List Char → Mode) → Prop
  | token : Gathers .token
  | character : Gathers .character

variable {k : List Char → Mode}

theorem feed_gather (hk : Gathers k) (h : isOrdinary c = true) :
    feed cfg ⟨k g, ls, fs, m, w⟩ [c] = .on ⟨k (c :: g), ls, fs, m.next [c], w⟩ := by
  simp only [isOrdinary, Bool.and_eq_true, Bool.not_eq_true'] at h
  cases hk <;> simp [feed, take, Mode.endsAt, Piece.endsToken, advance, h]

theorem run_gather (hk : Gathers k) : ∀ (cs g : List Char) (m : Mark),
    run cfg ⟨k g, ls, fs, m, w⟩ cs =
      run cfg ⟨k ((cs.takeWhile isOrdinary).reverse ++ g), ls, fs,
        m.through (cs.takeWhile isOrdinary), w⟩ (cs.dropWhile isOrdinary)
  | [], _, _ => rfl
  | c :: cs, g, m => by
    by_cases hc : isOrdinary c = true
    · rw [run_on (feed_gather hk hc), run_gather hk cs (c :: g) (m.next [c])]
      simp [hc, Mark.through_cons]
    · simp [hc, Mark.through]

/-- The end of a token or of the name of a character. -/
theorem feed_settle (hg : cfg.goal = .all) (hk : Gathers k) (h : isOrdinary c = false) :
    feed cfg ⟨k g, ls, fs, m, w⟩ [c] =
      match settle cfg ⟨k g, ls, fs, m, w⟩ with
      | (st, some f) => .back st (.failed f)
      | (st, none) => st.take cfg [c] := by
  have he : Mode.endsAt (k g) [c] = true := by
    have h : Text.isBlank c = true ∨ isSpecial c = true := by
      simpa [isOrdinary, Classical.or_iff_not_imp_left] using h
    cases hk <;> simpa [Mode.endsAt, Piece.endsToken] using h
  simp only [feed, he, satisfied_eq_false hg]
  rfl

theorem mode_settle (hk : Gathers k) {st : State W}
    (h : settle cfg ⟨k g, ls, fs, m, w⟩ = (st, none)) : st.mode = .between := by
  cases hk with
  | token =>
    simp only [settle] at h
    split at h
    · obtain rfl := (Prod.mk.inj h).1
      exact mode_put _ _
    · split at h
      · obtain rfl := (Prod.mk.inj h).1
        exact mode_put _ _
      · cases (Prod.mk.inj h).2
  | character =>
    simp only [settle] at h
    split at h
    · obtain rfl := (Prod.mk.inj h).1
      exact mode_put _ _
    · cases (Prod.mk.inj h).2

theorem close_gather (hg : cfg.goal = .all) (hk : Gathers k) (rest : List Char) :
    close cfg ⟨k g, ls, fs, m, w⟩ rest =
      match settle cfg ⟨k g, ls, fs, m, w⟩ with
      | (st, some f) => .back st (.failed f) [] rest
      | (st, none) => st.endBetween cfg rest := by
  cases hk <;> simp only [close, satisfied_eq_false hg] <;> rfl

/-- Where a form may begin, nothing is settled before the next character is taken. -/
theorem feed_eq_take {st : State W} (h : st.mode = .between) :
    st.feed cfg [c] = st.take cfg [c] := by
  simp [feed, h, Mode.endsAt]

/-- A token or the name of a character is settled in front of what stops it, and the run goes on
from there. -/
theorem run_settle (hg : cfg.goal = .all) (he : cfg.ending = .complete) (hk : Gathers k)
    {rest : List Char} (hr : StopsToken rest) {st : State W}
    (h : settle cfg ⟨k g, ls, fs, m, w⟩ = (st, none)) :
    run cfg ⟨k g, ls, fs, m, w⟩ rest = run cfg st rest := by
  have hmode := mode_settle hk h
  cases rest with
  | nil =>
    rw [run_nil _ he, run_nil _ he, close_gather hg hk, h]
    simp only [close, hmode]
  | cons c cs =>
    rw [run, run, feed_settle hg hk (hr c rfl), h, feed_eq_take hmode]

theorem run_settle_failed (hg : cfg.goal = .all) (he : cfg.ending = .complete) (hk : Gathers k)
    {rest : List Char} (hr : StopsToken rest) {st : State W} {f : Fault}
    (h : settle cfg ⟨k g, ls, fs, m, w⟩ = (st, some f)) :
    (run cfg ⟨k g, ls, fs, m, w⟩ rest).Fails st f rest := by
  cases rest with
  | nil =>
    rw [run_nil _ he, close_gather hg hk, h]
    exact ⟨rfl, rfl, rfl, rfl, rfl, rfl⟩
  | cons c cs =>
    rw [run_back (by rw [feed_settle hg hk (hr c rfl), h])]
    exact ⟨rfl, rfl, rfl, rfl, rfl, rfl⟩

/-! ### Places -/

/-- A step leaves the place `after` behind it, or `before` if it gives its piece back. -/
def Step.Marks (before after : Mark) : Step W → Prop
  | .on st => st.mark = after
  | .past st _ b => st.mark = after ∧ b = before
  | .back st _ => st.mark = before

namespace State

@[simp] theorem mark_put (v : Form) (st : State W) : (st.put cfg v).mark = st.mark := by
  unfold put
  cases st.lists <;> rfl

theorem mark_settle (st : State W) : (st.settle cfg).1.mark = st.mark := by
  unfold settle
  split
  · split
    · exact mark_put _ _
    · split <;> simp
  · split <;> simp
  · rfl

theorem marks_proceed {st : State W} {after : Mark} (h : st.mark = after) (before : Mark) :
    (st.proceed cfg before).Marks before after := by
  unfold proceed
  split
  · exact ⟨h, rfl⟩
  · exact h

theorem marks_beginForm (st : State W) (before : Mark) (p : Piece) :
    (st.beginForm cfg before p).Marks before st.mark := by
  cases p with
  | nil => exact rfl
  | cons c more =>
    simp only [beginForm]
    split_ifs
    iterate 7 first | exact rfl | exact ⟨rfl, rfl⟩
    · split
      · exact marks_proceed (mark_put _ _) before
      · exact ⟨rfl, rfl⟩
    · exact rfl

theorem marks_take (st : State W) (p : Piece) : (st.take cfg p).Marks st.mark (st.mark.next p) := by
  obtain ⟨mode, ls, fs, m, w⟩ := st
  cases mode with
  | between => exact marks_beginForm _ _ _
  | comment =>
    simp only [take, advance]
    split <;> exact rfl
  | string g =>
    simp only [take, advance]
    split
    · exact marks_proceed (mark_put _ _) m
    · split <;> exact rfl
  | escape g =>
    simp only [take, advance]
    split
    · split
      · exact rfl
      · exact ⟨rfl, rfl⟩
    · exact ⟨rfl, rfl⟩
  | token | backslash | character => exact rfl

theorem marks_feed (st : State W) (p : Piece) : (st.feed cfg p).Marks st.mark (st.mark.next p) := by
  unfold feed
  have hs := @mark_settle _ cfg st
  split
  · split
    next st' f h =>
      rw [h] at hs
      exact hs
    next st' h =>
      rw [h] at hs
      split
      · exact hs
      · rw [← hs]
        exact marks_take st' p
  · exact marks_take st p

end State

/-! ### Ends of a run -/

/-- A step does not end a run but by a fault, which is no end that comes too soon. -/
def Step.Fails : Step W → Prop
  | .on _ => True
  | .past _ stop _ | .back _ stop => ∃ f, stop = .failed f ∧ f.isUnexpectedEnd = false

theorem isUnexpectedEnd_settle (hk : Gathers k) {st : State W} {f : Fault}
    (h : settle cfg ⟨k g, ls, fs, m, w⟩ = (st, some f)) : f.isUnexpectedEnd = false := by
  cases hk with
  | token =>
    simp only [settle] at h
    split at h
    · cases h
    · split at h
      · cases h
      next hi =>
        cases h
        have hf := (Services.fails_of_interpret hi).isStructural fun _ => rfl
        exact Bool.eq_false_iff.2 fun he =>
          Bool.eq_false_iff.1 hf (Fault.isStructural_of_isUnexpectedEnd he)
  | character =>
    simp only [settle] at h
    split at h <;> cases h
    rfl

theorem isUnexpectedEnd_endBetween {st : State W} {f : Fault}
    {rest : List Char}
    (h : (st.endBetween cfg rest).stop = .failed f) : f.isUnexpectedEnd = true := by
  simp only [endBetween, Outcome.past] at h
  split_ifs at h
  obtain rfl := Stop.failed.inj h
  rfl

theorem kind_endBetween {st : State W} {e : Misreading} {rest : List Char}
    (h : (st.endBetween cfg rest).stop = .failed (.misread e)) :
    e.problem.kind = .unexpectedEnd := beq_iff_eq.1 (isUnexpectedEnd_endBetween h)

theorem fails_feed (hg : cfg.goal = .all) (st : State W) (c : Char) : (st.feed cfg [c]).Fails := by
  have between (ls : List OpenList) (fs : List Form) (m : Mark) (w : W) :
      (feed cfg ⟨.between, ls, fs, m, w⟩ [c]).Fails := by
    rcases Lexeme.first_cases c with hc | rfl | rfl | rfl | rfl | rfl | hc
    · rw [feed_blank hc]; trivial
    · rw [feed_semicolon hg]; trivial
    · rw [feed_opening hg]; trivial
    · cases ls with
      | nil => rw [feed_unmatched hg]; exact ⟨_, rfl, rfl⟩
      | cons l ls => rw [feed_closing hg]; trivial
    · rw [feed_quote hg]; trivial
    · rw [feed_backslash hg]; trivial
    · rw [feed_ordinary hg hc]; trivial
  obtain ⟨mode, ls, fs, m, w⟩ := st
  have gather {k : List Char → Mode} (hk : Gathers k) (g : List Char) :
      (feed cfg ⟨k g, ls, fs, m, w⟩ [c]).Fails := by
    by_cases hc : isOrdinary c = true
    · rw [feed_gather hk hc]; trivial
    · rw [feed_settle hg hk (by simpa using hc)]
      rcases h : settle cfg ⟨k g, ls, fs, m, w⟩ with ⟨⟨mode, ls, fs, m, w⟩, _ | f⟩
      · obtain rfl : mode = .between := mode_settle hk h
        have hb := between ls fs m w
        rwa [feed_eq_take rfl] at hb
      · exact ⟨f, rfl, isUnexpectedEnd_settle hk h⟩
  cases mode with
  | between => exact between ls fs m w
  | comment => rw [feed_comment]; trivial
  | token g => exact gather .token g
  | character g => exact gather .character g
  | backslash => rw [feed_character_first]; trivial
  | string g =>
    by_cases hq : c = '"'
    · rw [hq, feed_string_quote hg]; trivial
    · by_cases hb : c = '\\'
      · rw [hb, feed_string_backslash]; trivial
      · rw [feed_string hq hb]; trivial
  | escape g =>
    cases hx : unescape? c with
    | some x => rw [feed_escape hx]; trivial
    | none => rw [feed_unsupported hx]; exact ⟨_, rfl, rfl⟩

/-- A run either goes on behind a text from one state, whatever follows there, or fails within it
in the same way, whatever follows. -/
theorem run_append (hg : cfg.goal = .all) (cs : List Char) : ∀ st : State W,
    (∃ st', st'.mark = st.mark.through cs ∧ ∀ endIsError ds,
      run { cfg with endIsError } st (cs ++ ds) = run { cfg with endIsError } st' ds) ∨
    ∃ st' f, f.isUnexpectedEnd = false ∧ ∀ endIsError ds, ∃ cursor,
      run { cfg with endIsError } st (cs ++ ds) = ⟨st', .failed f, cursor⟩ := by
  induction cs with
  | nil => exact fun st => .inl ⟨st, rfl, fun _ _ => rfl⟩
  | cons c cs ih =>
    intro st
    have hfails := fails_feed hg st c
    have hmarks := @State.marks_feed _ cfg st [c]
    -- no step looks at what the end of the text would be
    have hfeed (endIsError : Bool) : st.feed { cfg with endIsError } [c] = st.feed cfg [c] := rfl
    cases hf : st.feed cfg [c] with
    | on st₁ =>
      rw [hf] at hmarks
      have hmark₁ : st₁.mark = st.mark.next [c] := hmarks
      rcases ih st₁ with ⟨st', hmark, h⟩ | ⟨st', f, hend, h⟩
      · rw [hmark₁] at hmark
        refine .inl ⟨st', hmark, fun endIsError ds => ?_⟩
        rw [List.cons_append, run_on ((hfeed endIsError).trans hf), h]
      · refine .inr ⟨st', f, hend, fun endIsError ds => ?_⟩
        obtain ⟨cursor, h⟩ := h endIsError ds
        exact ⟨cursor, by rw [List.cons_append, run_on ((hfeed endIsError).trans hf), h]⟩
    | past st₁ stop before =>
      rw [hf] at hfails
      obtain ⟨f, rfl, hend⟩ := hfails
      refine .inr ⟨st₁, f, hend, fun endIsError ds => ⟨⟨cs ++ ds, st₁.mark, .taken before⟩, ?_⟩⟩
      exact run_past ((hfeed endIsError).trans hf)
    | back st₁ stop =>
      rw [hf] at hfails
      obtain ⟨f, rfl, hend⟩ := hfails
      refine .inr ⟨st₁, f, hend, fun endIsError ds => ⟨⟨cs ++ ds, st₁.mark, .pushed [c]⟩, ?_⟩⟩
      exact run_back ((hfeed endIsError).trans hf)

/-- The fault that ends a run, if one does. -/
def Outcome.fault? (o : Outcome W) : Option Fault :=
  match o.stop with
  | .failed f => some f
  | _ => none

theorem Outcome.fault?_congr {V : Type} {o : Outcome V} {o' : Outcome W} (h : o.stop = o'.stop) :
    o.fault? = o'.fault? := by
  rw [Outcome.fault?, h]
  rfl

theorem Outcome.fault?_eq_none_iff {o : Outcome W} : o.fault? = none ↔ ∀ f, o.stop ≠ .failed f := by
  unfold Outcome.fault?
  cases o.stop <;> simp

theorem Outcome.fault?_eq_some_iff {o : Outcome W} {f : Fault} :
    o.fault? = some f ↔ o.stop = .failed f := by
  unfold Outcome.fault?
  cases o.stop <;> simp

theorem read_ofString (sv : Services W) (opts : Options) (text : String) (w : W) :
    let o := run ⟨sv, .all, opts.suppress, opts.endIsError, none, .complete⟩
      (.initial (.initial opts.line opts.col) (sv.note (Source.ofString text).opening w))
      text.toList
    read sv opts (.ofString text) w = ⟨o.forms, o.fault?, o.state.world⟩ := rfl

end LispForms
