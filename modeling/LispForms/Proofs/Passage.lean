import LispForms.Proofs.Assembly
import LispForms.Proofs.TokenFault

/-! Runs over whole lexemes. From between forms the machine either reads the next lexeme and stands
between forms again, behind it, or its run ends at the lexeme. Every run over a text is a passage
over the first lexemes of the text, behind which it ends with the text or at the next lexeme. -/

namespace LispForms

variable {W : Type}

namespace Lexeme

open Assembly (splitEscape)

/-- The value of a string or a character, or its problem. -/
def literal? : Lexeme → Option (Except Problem Form)
  | string body closed => some (Assembly.stringValue body closed)
  | character name => some (Assembly.characterValue name)
  | _ => none

/-- A string or a character has a string for its value. -/
theorem exists_text_of_literal? {x : Lexeme} {v : Form} (h : x.literal? = some (.ok v)) :
    ∃ content, v = .text content := by
  cases x with
  | string body closed =>
    obtain ⟨-, xs, -, rfl⟩ := Assembly.stringValue_eq_ok_iff.1 (Option.some.inj h)
    exact ⟨_, rfl⟩
  | character name =>
    obtain ⟨c, -, rfl⟩ := Assembly.characterValue_eq_ok_iff.1 (Option.some.inj h)
    exact ⟨_, rfl⟩
  | _ => cases h

/-- The lexeme as far as it is read if it is at fault, and what is left of it then. -/
def split : Lexeme → List Char × List Char
  | string body closed =>
    ('"' :: (splitEscape body).1, (splitEscape body).2 ++ if closed then ['"'] else [])
  | x => (x.text, [])

theorem split_append (x : Lexeme) : x.split.1 ++ x.split.2 = x.text := by
  cases x with
  | string body closed =>
    have h := Assembly.splitEscape_append body
    simp only [split, text]
    rw [List.cons_append, ← List.append_assoc, h]
  | _ => exact List.append_nil _

/-- The place at which a problem of the lexeme is noticed if the lexeme stands behind `m`. That it
is unfinished shows only at the end of the text. -/
def problemMark (x : Lexeme) (m : Mark) : Problem → Mark
  | .unfinished _ => (m.through x.text).next []
  | _ => m.through x.split.1

end Lexeme

/-- The two runs end in the same way, with the same forms and in the same world. -/
structure Outcome.Alike (o o' : Outcome W) : Prop where
  stop : o.stop = o'.stop
  forms : o.state.forms = o'.state.forms
  world : o.state.world = o'.state.world

namespace Outcome

theorem Alike.refl (o : Outcome W) : o.Alike o := ⟨rfl, rfl, rfl⟩

theorem Alike.trans {o o' o'' : Outcome W} (h : o.Alike o') (h' : o'.Alike o'') : o.Alike o'' :=
  ⟨h.stop.trans h'.stop, h.forms.trans h'.forms, h.world.trans h'.world⟩

/-- Runs with the same fault in the same state are alike, whatever they leave. -/
theorem Fails.alike {st : State W} {f : Fault} {ahead ahead' : List Char} {o o' : Outcome W}
    (h : o.Fails st f ahead) (h' : o'.Fails st f ahead') : o.Alike o' :=
  ⟨h.stop.trans h'.stop.symm, h.forms.trans h'.forms.symm, h.world.trans h'.world.symm⟩

/-- Nothing but the end, the forms and the world of a run is seen of a reading. -/
theorem Alike.reading {o o' : Outcome W} (h : o.Alike o') :
    (⟨o.forms, o.fault?, o.state.world⟩ : Reading W) = ⟨o'.forms, o'.fault?, o'.state.world⟩ := by
  rw [Outcome.forms, Outcome.forms, h.forms, h.world, fault?_congr h.stop]

end Outcome

/-- The value of a token; it is nil where values are not asked for. -/
inductive Settings.Evaluates (cfg : Settings W) (cs : List Char) (w : W) : Form → W → Prop
  | value {v : Form} {w' : W} (hs : cfg.suppress = false)
    (h : cfg.services.interpret Problem.unplaced cs w = (.ok v, w')) : Evaluates cfg cs w v w'
  | suppressed (hs : cfg.suppress = true) : Evaluates cfg cs w .nil w

namespace State

/-- What a lexeme that is read to its end does. -/
inductive Reads (cfg : Settings W) : State W → Lexeme → State W → Prop
  | blank {ls fs m w c} : Reads cfg ⟨.between, ls, fs, m, w⟩ (.blank c)
    ⟨.between, ls, fs, m.next [c], w⟩
  | comment {ls fs m w body} (h : Lexeme.endsLine body = true) :
    Reads cfg ⟨.between, ls, fs, m, w⟩ (.comment body)
      ⟨.between, ls, fs, m.through (';' :: body), w⟩
  | opening {ls fs m w} : Reads cfg ⟨.between, ls, fs, m, w⟩ .opening
    ⟨.between, ⟨m.next ['('], []⟩ :: ls, fs, m.next ['('], w⟩
  | closing {l ls fs m w} : Reads cfg ⟨.between, l :: ls, fs, m, w⟩ .closing
    (put cfg (.list l.items.reverse (some (.between l.start (m.next [')']))))
      ⟨.between, ls, fs, m.next [')'], w⟩)
  | literal {ls fs m w x v} (h : Lexeme.literal? x = some (.ok v)) :
    Reads cfg ⟨.between, ls, fs, m, w⟩ x (put cfg v ⟨.between, ls, fs, m.through x.text, w⟩)
  | token {ls fs m w cs v w'} (h : cfg.Evaluates cs w v w') :
    Reads cfg ⟨.between, ls, fs, m, w⟩ (.token cs) (put cfg v ⟨.between, ls, fs, m.through cs, w'⟩)

/-- How a run ends at a lexeme in front of `rest`. -/
inductive Halts (cfg : Settings W) : State W → Lexeme → List Char → Outcome W → Prop
  /-- The text ends in a comment. The end is read once for the comment and once for itself. -/
  | comment {ls fs m w body} (h : Lexeme.endsLine body = false) :
    Halts cfg ⟨.between, ls, fs, m, w⟩ (.comment body) []
      (endBetween cfg ⟨.comment, ls, fs, (m.through (';' :: body)).next [], w⟩ [])
  | unmatched {fs m w rest o}
    (h : Outcome.Fails ⟨.between, [], fs, m.next [')'], w⟩
      ((m.next [')']).locate cfg.source (.delimiter ")")) rest o) :
    Halts cfg ⟨.between, [], fs, m, w⟩ .closing rest o
  | literal {ls fs m w x p rest o} (hx : Lexeme.literal? x = some (.error p))
    (h : Outcome.Fails ⟨.between, ls, fs, x.problemMark m p, w⟩
      ((x.problemMark m p).locate cfg.source p) (x.split.2 ++ rest) o) :
    Halts cfg ⟨.between, ls, fs, m, w⟩ x rest o
  | token {ls fs m w w' cs f rest o} (hs : cfg.suppress = false)
    (hi : cfg.services.interpret ((m.through cs).locate cfg.source) cs w = (.error f, w'))
    (h : Outcome.Fails ⟨.between, ls, fs, m.through cs, w'⟩ f rest o) :
    Halts cfg ⟨.between, ls, fs, m, w⟩ (.token cs) rest o

/-- The run either reads the lexeme and goes on behind it or ends at it. -/
def Passes (cfg : Settings W) (st : State W) (x : Lexeme) (rest : List Char) (o : Outcome W) :
    Prop :=
  (∃ st', Reads cfg st x st' ∧ o = run cfg st' rest) ∨ Halts cfg st x rest o

/-- Lexemes are read one after the other. -/
inductive ReadsAll (cfg : Settings W) : State W → List Lexeme → State W → Prop
  | nil {st} : ReadsAll cfg st [] st
  | cons {st st' st'' x xs} : Reads cfg st x st' → ReadsAll cfg st' xs st'' →
    ReadsAll cfg st (x :: xs) st''

end State

open State (Reads ReadsAll Halts Passes put settle)

variable {cfg : Settings W} {ls : List OpenList} {fs : List Form} {m : Mark} {w : W}
  {c : Char} {cs rest : List Char} {x : Lexeme} {xs ys : List Lexeme} {st st' st'' : State W}

/-! ### The kinds of lexeme -/

/-- A value does not depend on where its token stands. -/
theorem Services.interpret_of_ok {sv : Services W} {locate : Problem → Fault} {v : Form} {w' : W}
    (hl : ∀ p, (locate p).unplaced = p.unplaced) (h : sv.interpret locate cs w = (.ok v, w')) :
    sv.interpret Problem.unplaced cs w = (.ok v, w') := by
  rw [interpret_unplaced hl, h]
  rfl

theorem State.put_mode (mode : Mode) (v : Form) :
    put cfg v ⟨mode, ls, fs, m, w⟩ = put cfg v ⟨.between, ls, fs, m, w⟩ := by
  cases ls <;> rfl

theorem State.settle_token (g : List Char) :
    (∃ v w', cfg.Evaluates g.reverse w v w' ∧
      settle cfg ⟨.token g, ls, fs, m, w⟩ = (put cfg v ⟨.between, ls, fs, m, w'⟩, none)) ∨
    (∃ f w', cfg.suppress = false ∧
      cfg.services.interpret (m.locate cfg.source) g.reverse w = (.error f, w') ∧
      settle cfg ⟨.token g, ls, fs, m, w⟩ = (⟨.token g, ls, fs, m, w'⟩, some f)) := by
  cases hs : cfg.suppress with
  | true =>
    exact .inl ⟨.nil, w, .suppressed hs, by simp only [settle, hs, ↓reduceIte, put_mode (.token g)]⟩
  | false =>
    have hl : locate cfg ⟨.token g, ls, fs, m, w⟩ = m.locate cfg.source := rfl
    rcases hi : cfg.services.interpret (m.locate cfg.source) g.reverse w with ⟨f | v, w'⟩
    · right
      refine ⟨f, w', rfl, rfl, ?_⟩
      simp only [settle, hs, hl, hi, Bool.false_eq_true, ↓reduceIte]
    · left
      refine ⟨v, w', .value hs (Services.interpret_of_ok (fun _ => rfl) hi), ?_⟩
      simp only [settle, hs, hl, hi, Bool.false_eq_true, ↓reduceIte, put_mode (.token g)]

section

variable (hg : cfg.goal = .all) (he : cfg.ending = .complete)

include hg he

theorem passes_comment (cs : List Char) :
    Passes cfg ⟨.between, ls, fs, m, w⟩ (.comment (Lexeme.splitComment cs).1)
      (Lexeme.splitComment cs).2 (run cfg ⟨.between, ls, fs, m, w⟩ (';' :: cs)) := by
  rw [run_on (feed_semicolon hg)]
  rcases @run_comment _ cfg ls fs w he cs (m.next [';']) with ⟨hends, h⟩ | ⟨hends, hrest, h⟩
  · exact .inl ⟨_, .comment hends, h⟩
  · rw [h, hrest]
    exact .inr (.comment hends)

omit he in
theorem passes_closing (cs : List Char) : Passes cfg ⟨.between, ls, fs, m, w⟩ .closing cs
    (run cfg ⟨.between, ls, fs, m, w⟩ (')' :: cs)) := by
  cases ls with
  | nil =>
    rw [run_past (feed_unmatched hg)]
    exact .inr (.unmatched ⟨rfl, rfl, rfl, rfl, rfl, rfl⟩)
  | cons l ls => exact .inl ⟨_, .closing, run_on (feed_closing hg l)⟩

theorem passes_string (cs : List Char) :
    Passes cfg ⟨.between, ls, fs, m, w⟩
      (.string (Lexeme.splitString cs).1 (Lexeme.splitString cs).2.1)
      (Lexeme.splitString cs).2.2 (run cfg ⟨.between, ls, fs, m, w⟩ ('"' :: cs)) := by
  have h := @run_string _ cfg ls fs w hg he cs [] (m.next ['"'])
  rw [run_on (feed_quote hg)]
  cases hu : Assembly.unescape (Lexeme.splitString cs).1 with
  | error p =>
    rw [hu] at h
    obtain ⟨c, rfl, -⟩ := Assembly.suffix_splitEscape hu
    right
    refine .literal (p := .escape (.singleton c)) ?_ ?_
    · simp only [Lexeme.literal?, Assembly.stringValue, hu]
    · rw [Lexeme.split, List.append_assoc]
      exact h
  | ok xs =>
    rw [hu] at h
    cases hc : (Lexeme.splitString cs).2.1 with
    | true =>
      rw [hc] at h
      left
      refine ⟨_, .literal (v := .text (.ofList xs)) ?_, h⟩
      simp only [Lexeme.literal?, Assembly.stringValue, hu, ↓reduceIte]
    | false =>
      rw [hc] at h
      right
      refine .literal (p := .unfinished .string) ?_ ?_
      · simp only [Lexeme.literal?, Assembly.stringValue, hu, Bool.false_eq_true, ↓reduceIte]
      · rw [Lexeme.split, Assembly.splitEscape_eq_self hu, Lexeme.splitString_rest hc]
        simpa [Lexeme.problemMark, Lexeme.text, Mark.through_cons] using h

theorem passes_backslash (cs : List Char) :
    Passes cfg ⟨.between, ls, fs, m, w⟩ (Lexeme.first '\\' cs).1 (Lexeme.first '\\' cs).2
      (run cfg ⟨.between, ls, fs, m, w⟩ ('\\' :: cs)) := by
  rw [run_on (feed_backslash hg)]
  cases cs with
  | nil =>
    rw [run_nil _ he]
    exact .inr (.literal (p := .unfinished .character) rfl ⟨rfl, rfl, rfl, rfl, rfl, rfl⟩)
  | cons d ds =>
    have hstops := Lexeme.stopsToken_dropWhile ds
    have hname : ((ds.takeWhile isOrdinary).reverse ++ [d]).reverse =
      d :: ds.takeWhile isOrdinary := by simp
    rw [run_on feed_character_first, run_gather .character ds [d]]
    cases hx : Token.character? (d :: ds.takeWhile isOrdinary) with
    | some x =>
      left
      refine ⟨_, .literal (v := .text (.singleton x)) ?_, run_settle hg he .character hstops ?_⟩
      · exact congrArg some (by simp only [Assembly.characterValue, hx])
      · simp only [settle, hname, hx, State.put_mode (.character _)]
        rfl
    | none =>
      right
      refine .literal (p := .character (.ofList (d :: ds.takeWhile isOrdinary))) ?_ ?_
      · exact congrArg some (by simp [Assembly.characterValue, hx])
      · let st : State W := ⟨.character ((ds.takeWhile isOrdinary).reverse ++ [d]), ls, fs,
          ((m.next ['\\']).next [d]).through (ds.takeWhile isOrdinary), w⟩
        have hs : settle cfg st =
            (st, some (st.mark.locate cfg.source (.character (.ofList
              (d :: ds.takeWhile isOrdinary))))) := by
          simp only [st, settle, hname, hx]
          rfl
        exact (run_settle_failed hg he .character hstops hs).of_mode

theorem passes_token (h : isOrdinary c = true) (cs : List Char) :
    Passes cfg ⟨.between, ls, fs, m, w⟩ (.token (c :: cs.takeWhile isOrdinary))
      (cs.dropWhile isOrdinary) (run cfg ⟨.between, ls, fs, m, w⟩ (c :: cs)) := by
  have hstops := Lexeme.stopsToken_dropWhile cs
  have hname : ((cs.takeWhile isOrdinary).reverse ++ [c]).reverse =
    c :: cs.takeWhile isOrdinary := by simp
  rw [run_on (feed_ordinary hg h), run_gather .token cs [c]]
  rcases @State.settle_token _ cfg ls fs ((m.next [c]).through (cs.takeWhile isOrdinary)) w
    ((cs.takeWhile isOrdinary).reverse ++ [c]) with ⟨v, w', hv, hs⟩ | ⟨f, w', hsup, hf, hs⟩
  · rw [hname] at hv
    exact .inl ⟨_, .token hv, run_settle hg he .token hstops hs⟩
  · rw [hname] at hf
    exact .inr (.token hsup hf (run_settle_failed hg he .token hstops hs).of_mode)

/-- From between forms a run passes the first lexeme of its text. -/
theorem passes_first (hmode : st.mode = .between) (c : Char) (cs : List Char) :
    Passes cfg st (Lexeme.first c cs).1 (Lexeme.first c cs).2 (run cfg st (c :: cs)) := by
  obtain ⟨mode, ls, fs, m, w⟩ := st
  obtain rfl : mode = .between := hmode
  rcases Lexeme.first_cases c with hc | rfl | rfl | rfl | rfl | rfl | hc
  · have hf : Lexeme.first c cs = (.blank c, cs) := by simp [Lexeme.first, hc]
    rw [hf]
    exact .inl ⟨_, .blank, run_on (feed_blank hc)⟩
  · exact passes_comment hg he cs
  · exact .inl ⟨_, .opening, run_on (feed_opening hg)⟩
  · exact passes_closing hg cs
  · exact passes_string hg he cs
  · exact passes_backslash hg he cs
  · rw [Lexeme.first_ordinary hc]
    exact passes_token hg he hc cs

end

/-! ### Lexemes one after the other -/

namespace State

theorem Reads.mode (h : Reads cfg st x st') : st'.mode = .between := by
  cases h with
  | blank | comment | opening => rfl
  | closing | literal | token => exact mode_put _ _

theorem Reads.mark (h : Reads cfg st x st') : st'.mark = st.mark.through x.text := by
  cases h with
  | blank | comment | opening => rfl
  | closing | literal | token => exact mark_put _ _

theorem Halts.forms {o : Outcome W} (h : Halts cfg st x rest o) : o.state.forms = st.forms := by
  cases h with
  | comment => rfl
  | unmatched h | literal _ h | token _ _ h => exact h.forms

theorem ReadsAll.mode (h : ReadsAll cfg st xs st') (hmode : st.mode = .between) :
    st'.mode = .between := by
  induction h with
  | nil => exact hmode
  | cons hx _ ih => exact ih hx.mode

theorem ReadsAll.mark (h : ReadsAll cfg st xs st') :
    st'.mark = st.mark.through (xs.flatMap Lexeme.text) := by
  induction h with
  | nil => rfl
  | cons h _ ih => rw [ih, h.mark, List.flatMap_cons, Mark.through_append]

theorem ReadsAll.append (h : ReadsAll cfg st xs st') (h' : ReadsAll cfg st' ys st'') :
    ReadsAll cfg st (xs ++ ys) st'' := by
  induction h with
  | nil => exact h'
  | cons h _ ih => exact .cons h (ih h')

theorem ReadsAll.single (h : Reads cfg st x st') : ReadsAll cfg st [x] st' := .cons h .nil

end State

theorem Settings.Evaluates.unique {v v' : Form} {w' w'' : W} (h : cfg.Evaluates cs w v w')
    (h' : cfg.Evaluates cs w v' w'') : v = v' ∧ w' = w'' := by
  cases h with
  | value hs h =>
    cases h' with
    | value _ h' =>
      obtain ⟨hv, hw⟩ := Prod.mk.inj (h.symm.trans h')
      exact ⟨Except.ok.inj hv, hw⟩
    | suppressed hs' => rw [hs] at hs'; cases hs'
  | suppressed hs =>
    cases h' with
    | value hs' => rw [hs] at hs'; cases hs'
    | suppressed => exact ⟨rfl, rfl⟩

namespace State

theorem Reads.unique (h : Reads cfg st x st') (h' : Reads cfg st x st'') : st' = st'' := by
  cases h with
  | blank => cases h' with
    | blank => rfl
    | literal h => cases h
  | comment => cases h' with
    | comment => rfl
    | literal h => cases h
  | opening => cases h' with
    | opening => rfl
    | literal h => cases h
  | closing => cases h' with
    | closing => rfl
    | literal h => cases h
  | literal h => cases h' with
    | literal h' =>
      obtain rfl := Except.ok.inj (Option.some.inj (h.symm.trans h'))
      rfl
    | _ => cases h
  | token h => cases h' with
    | token h' =>
      obtain ⟨rfl, rfl⟩ := h.unique h'
      rfl
    | literal h => cases h

/-- Only a token can be read in one run and be at fault in another, at the same depth. -/
theorem Reads.exists_token_of_halts {cfg' : Settings W} {o : Outcome W} (h : Reads cfg st x st')
    (h' : Halts cfg' st'' x rest o) (hl : st.lists.length = st''.lists.length) :
    ∃ cs, x = .token cs := by
  cases h' with
  | comment hends => cases h with
    | comment hends' => rw [hends] at hends'; cases hends'
    | literal h => cases h
  | unmatched => cases h with
    | closing => cases hl
    | literal h => cases h
  | literal hx => cases h with
    | literal hx' => rw [hx] at hx'; cases hx'
    | _ => cases hx
  | token => exact ⟨_, rfl⟩

theorem Reads.not_halts {o : Outcome W} (h : Reads cfg st x st') : ¬ Halts cfg st x rest o := by
  intro h'
  obtain ⟨cs, rfl⟩ := h.exists_token_of_halts h' rfl
  cases h' with
  | literal hx => cases hx
  | token hs hi => cases h with
    | literal hx => cases hx
    | token hv => cases hv with
      | suppressed hs' => rw [hs] at hs'; cases hs'
      | value _ hv =>
        have hl (m : Mark) (p : Problem) : (m.locate cfg.source p).unplaced = p.unplaced := rfl
        rw [Services.interpret_unplaced (hl _), hi] at hv
        cases hv

/-- How a run ends at a lexeme is settled by the lexeme and what stands before it. -/
theorem Halts.unique {rest' : List Char} {o o' : Outcome W} (h : Halts cfg st x rest o)
    (h' : Halts cfg st x rest' o') : o.Alike o' := by
  cases h with
  | comment => cases h' with
    | comment => exact .refl _
    | literal hx => cases hx
  | unmatched h => cases h' with
    | unmatched h' => exact h.alike h'
    | literal hx => cases hx
  | literal hx h => cases h' with
    | literal hx' h' =>
      obtain rfl := Except.error.inj (Option.some.inj (hx.symm.trans hx'))
      exact h.alike h'
    | _ => cases hx
  | token _ hi h => cases h' with
    | literal hx => cases hx
    | token _ hi' h' =>
      obtain ⟨hf, rfl⟩ := Prod.mk.inj (hi.symm.trans hi')
      obtain rfl := Except.error.inj hf
      exact h.alike h'

end State

/-! ### Whole runs -/

section

variable (hg : cfg.goal = .all) (he : cfg.ending = .complete)

include hg he

/-- A run passes the lexemes that it reads and goes on behind them. -/
theorem State.ReadsAll.run (h : ReadsAll cfg st xs st') (hmode : st.mode = .between) :
    ∀ {cs : List Char}, Lexeme.cut cs = xs ++ ys →
      ∃ rest, Lexeme.cut rest = ys ∧ cs = xs.flatMap Lexeme.text ++ rest ∧
        LispForms.run cfg st cs = LispForms.run cfg st' rest := by
  induction h with
  | nil => exact fun {cs} hcut => ⟨cs, hcut, rfl, rfl⟩
  | @cons st st₁ st₂ x xs hx _ ih =>
    intro cs hcut
    cases cs with
    | nil => simp at hcut
    | cons c cs =>
      rw [Lexeme.cut_cons, List.cons_append] at hcut
      obtain ⟨rfl, hcuts⟩ := List.cons.inj hcut
      obtain ⟨rest, hrest, htext, hrun⟩ := ih hx.mode hcuts
      refine ⟨rest, hrest, ?_, ?_⟩
      · rw [List.flatMap_cons, List.append_assoc, ← htext, Lexeme.text_first]
      · rcases passes_first hg he hmode c cs with ⟨st', hst', h⟩ | h
        · rw [h, ← hrun, hx.unique hst']
        · exact absurd h hx.not_halts

theorem State.ReadsAll.run_cut (h : ReadsAll cfg st (Lexeme.cut cs) st')
    (hmode : st.mode = .between) : LispForms.run cfg st cs = LispForms.run cfg st' [] := by
  obtain ⟨rest, hrest, -, hrun⟩ := h.run hg he hmode (List.append_nil _).symm
  rw [hrun, Lexeme.cut_injective (hrest.trans Lexeme.cut_nil.symm)]

/-- A run that can halt at a lexeme halts there, whatever stands behind it. -/
theorem State.ReadsAll.halts {o : Outcome W} (h : ReadsAll cfg st xs st')
    (hx : Halts cfg st' x rest o) (hmode : st.mode = .between)
    (hcut : Lexeme.cut cs = xs ++ x :: ys) :
    ∃ rest', Halts cfg st' x rest' (LispForms.run cfg st cs) := by
  obtain ⟨behind, hbehind, -, hrun⟩ := h.run hg he hmode hcut
  cases behind with
  | nil => simp at hbehind
  | cons c ds =>
    rw [Lexeme.cut_cons] at hbehind
    obtain ⟨rfl, -⟩ := List.cons.inj hbehind
    rw [hrun]
    rcases passes_first hg he (h.mode hmode) c ds with ⟨_, hst, -⟩ | hhalts
    · exact absurd hx hst.not_halts
    · exact ⟨_, hhalts⟩

/-- Every run reads lexemes until its text ends or it halts at one. -/
theorem exists_readsAll (cs : List Char) : ∀ st : State W, st.mode = .between →
    ∃ xs st', ReadsAll cfg st xs st' ∧
      (xs = Lexeme.cut cs ∧ run cfg st cs = run cfg st' [] ∨
        ∃ x rest, Lexeme.cut cs = xs ++ x :: Lexeme.cut rest ∧
          Halts cfg st' x rest (run cfg st cs)) := by
  fun_induction Lexeme.cut cs with
  | case1 => exact fun st _ => ⟨[], st, .nil, .inl ⟨rfl, rfl⟩⟩
  | case2 c cs ih =>
    intro st hmode
    rcases passes_first hg he hmode c cs with ⟨st₁, hst₁, h⟩ | h
    · obtain ⟨xs, st', hall, hend⟩ := ih st₁ hst₁.mode
      refine ⟨_, st', .cons hst₁ hall, ?_⟩
      rw [h]
      rcases hend with ⟨rfl, hend⟩ | ⟨x, rest, hcut, hhalts⟩
      · exact .inl ⟨rfl, hend⟩
      · refine .inr ⟨x, rest, ?_, hhalts⟩
        rw [hcut, List.cons_append]
    · exact ⟨[], st, .nil, .inr ⟨_, _, rfl, h⟩⟩

/-- The lexemes that are read leave the forms of the whole run. -/
theorem exists_readsAll_forms (cs : List Char) {st : State W} (hmode : st.mode = .between) :
    ∃ xs ys st' rest, Lexeme.cut cs = xs ++ ys ∧ ReadsAll cfg st xs st' ∧
      run cfg st cs = run cfg st' rest ∧ (run cfg st cs).state.forms = st'.forms := by
  obtain ⟨xs, st', hall, ⟨rfl, hrun⟩ | ⟨x, rest, hcut, hhalts⟩⟩ := exists_readsAll hg he cs st hmode
  · refine ⟨_, [], st', [], (List.append_nil _).symm, hall, hrun, ?_⟩
    rw [hrun, run_nil _ he, State.close, hall.mode hmode]
    rfl
  · obtain ⟨rest', -, -, hrun⟩ := hall.run hg he hmode hcut
    exact ⟨xs, _, st', rest', hcut, hall, hrun, hhalts.forms⟩

end

end LispForms
