import LispForms.Proofs.NextForm
import LispForms.Proofs.Passage

/-! The places of faults. A reading that fails, but not because its text ends too soon, fails at the
last character that it has taken, and what it has taken ends with the text at fault. -/

namespace LispForms

variable {W : Type} {cfg : Settings W} {sv : Services W}

/-! ### The text at fault -/

/-- The token is the last lexeme of `taken`, in front of `after`. -/
def Token.EndsText (cs taken after : List Char) : Prop :=
  ∃ before, taken = before ++ cs ∧
    Lexeme.cut (taken ++ after) = Lexeme.cut before ++ .token cs :: Lexeme.cut after

/-- What is taken from a text up to a problem ends with the text at fault. -/
def Problem.EndsText (p : Problem) (taken after : List Char) : Prop :=
  ∃ token, p.token? = some token ∧ match p.kind with
    | .invalidToken => Token.EndsText token.toList taken after
    | .unsupportedCharacter => '\\' :: token.toList <:+ taken
    | .unsupportedEscape => ∃ c, token.toList = ['\\', c] ∧ ['\\', c] <:+ taken
    | .unmatchedDelimiter => token.toList <:+ taken
    | .malformed => ∃ cs, Token.EndsText cs taken after ∧ Token.HasPath cs token
    | _ => False

variable {cs before taken after rest : List Char} {e : Misreading} {x : Lexeme} {st : State W}
  {o : Outcome W} {m : Mark}

theorem Outcome.Fails.misread {source : Option String} {p : Problem}
    (h : o.Fails st (m.locate source p) rest) (hstop : o.stop = .failed (.misread e)) :
    e = ⟨p, m.line, m.col, source⟩ :=
  Fault.misread.inj (Stop.failed.inj (hstop.symm.trans h.stop))

/-- A literal that is at fault but not unfinished is at fault where it is split. -/
theorem Lexeme.endsText_of_literal? {p : Problem} (hx : x.literal? = some (.error p))
    (hp : p.kind ≠ .unexpectedEnd) : x.problemMark m p = m.through x.split.1 ∧
      p.EndsText (before ++ x.split.1) after := by
  have suffix {ds es : List Char} (h : ds <:+ es) : ds <:+ before ++ es :=
    h.trans (List.suffix_append before es)
  cases x with
  | string body closed =>
    have h := Option.some.inj hx
    unfold Assembly.stringValue at h
    cases hu : Assembly.unescape body with
    | ok cs =>
      rw [hu] at h
      cases closed with
      | true => cases h
      | false =>
        cases h
        exact absurd rfl hp
    | error q =>
      rw [hu] at h
      obtain rfl := Except.error.inj h
      obtain ⟨c, rfl, hsuffix⟩ := Assembly.suffix_splitEscape hu
      refine ⟨rfl, _, rfl, c, ?_, suffix (hsuffix.trans (List.suffix_cons _ _))⟩
      simp
  | character name =>
    have h := Option.some.inj hx
    unfold Assembly.characterValue at h
    split at h
    · cases h
    · split at h
      · cases h
        exact absurd rfl hp
      · cases h
        refine ⟨rfl, _, rfl, suffix ?_⟩
        rw [String.toList_ofList]
        exact List.suffix_refl _
  | _ => cases hx

/-- A run that halts at a lexeme, but not because the text ends, has taken as much of the lexeme as
is at fault. -/
theorem State.Halts.place (h : Halts cfg st x rest o) (hstop : o.stop = .failed (.misread e))
    (hkind : e.problem.kind ≠ .unexpectedEnd)
    (hcut : Lexeme.cut (before ++ x.text ++ rest) = Lexeme.cut before ++ x :: Lexeme.cut rest) :
    ∃ taken left, x.text = taken ++ left ∧ o.cursor.ahead = left ++ rest ∧
      o.cursor.mark = st.mark.through taken ∧ e.line = (st.mark.through taken).line ∧
      e.col = (st.mark.through taken).col ∧
      e.problem.EndsText (before ++ taken) (left ++ rest) := by
  cases h with
  | comment => exact absurd (kind_endBetween hstop) hkind
  | unmatched h =>
    obtain rfl := h.misread hstop
    exact ⟨[')'], [], rfl, h.ahead, h.mark, rfl, rfl, ")", rfl, List.suffix_append before [')']⟩
  | @literal ls fs m w x p rest o hx h =>
    obtain rfl := h.misread hstop
    obtain ⟨hmark, hends⟩ := @Lexeme.endsText_of_literal? before (x.split.2 ++ rest) x m p hx hkind
    have hm := h.mark
    rw [hmark] at hm
    exact ⟨_, _, (Lexeme.split_append x).symm, h.ahead, hm, by rw [hmark], by rw [hmark], hends⟩
  | @token ls fs m w w' cs f rest o hs hi h =>
    obtain rfl : f = .misread e := Stop.failed.inj (h.stop.symm.trans hstop)
    have htoken : Token.EndsText cs (before ++ cs) rest := ⟨before, rfl, hcut⟩
    have hfails := Services.fails_of_interpret hi
    refine ⟨cs, [], (List.append_nil cs).symm, h.ahead, h.mark, ?_⟩
    generalize hf : Fault.misread e = f at hfails
    cases hfails with
    | unknown | zeroDenominator =>
      obtain rfl := Fault.misread.inj hf
      refine ⟨rfl, rfl, _, rfl, ?_⟩
      rwa [String.toList_ofList]
    | host hpath =>
      obtain rfl := Fault.misread.inj hf
      exact ⟨rfl, rfl, _, rfl, cs, htoken, hpath⟩
    | tooManyDigits | importing => cases hf

/-- A run that fails, but not because its text ends, has the fault at the last character that it has
taken, and gives back what is behind it. -/
theorem run_fault_place (hg : cfg.goal = .all) (he : cfg.ending = .complete)
    (hmode : st.mode = .between) (hstop : (run cfg st cs).stop = .failed (.misread e))
    (hkind : e.problem.kind ≠ .unexpectedEnd) :
    ∃ taken, cs = taken ++ (run cfg st cs).cursor.ahead ∧
      (run cfg st cs).cursor.mark = st.mark.through taken ∧
      e.line = (st.mark.through taken).line ∧ e.col = (st.mark.through taken).col ∧
      e.problem.EndsText taken (run cfg st cs).cursor.ahead := by
  obtain ⟨xs, st', hall, ⟨-, hrun⟩ | ⟨x, rest, hcut, hhalts⟩⟩ := exists_readsAll hg he cs st hmode
  · rw [hrun, run_nil st' he, State.close, hall.mode hmode] at hstop
    exact absurd (kind_endBetween hstop) hkind
  · obtain ⟨before, behind, rfl, rfl, hbehind⟩ := Lexeme.cut_eq_append hcut
    have htext : behind = x.text ++ rest := by
      rw [← Lexeme.flatMap_text_cut behind, hbehind, List.flatMap_cons, Lexeme.flatMap_text_cut]
    rw [htext, ← List.append_assoc] at hcut
    obtain ⟨taken, left, hx, hahead, hmark, hline, hcol, hends⟩ :=
      hhalts.place hstop hkind hcut
    rw [hall.mark, Lexeme.flatMap_text_cut, ← Mark.through_append] at hmark hline hcol
    refine ⟨before ++ taken, ?_, hmark, hline, hcol, by rwa [hahead]⟩
    rw [hahead, htext, hx, List.append_assoc, List.append_assoc]

/-! ### Readings one after the other -/

/-- What a program comes to that reads from a text form by form, and in between the items of a list
or nothing at all; whatever it does to the world. -/
inductive Context.Reached (sv : Services W) (text : List Char) (line col : Option Int) :
    Context W → Prop
  | ofText (w : W) : Reached sv text line col (.ofText text line col w)
  | next {c : Context W} (endIsError : Bool) : Reached sv text line col c →
    Reached sv text line col (c.next sv endIsError).2
  | items {c : Context W} (close : Piece) : Reached sv text line col c →
    Reached sv text line col (c.items sv close).2
  | suppress {c : Context W} (on : Bool) : Reached sv text line col c →
    Reached sv text line col (c.suppress on)
  | release {c : Context W} : Reached sv text line col c → Reached sv text line col c.release
  | world {c : Context W} (w : W) : Reached sv text line col c →
    Reached sv text line col { c with world := w }

theorem Cursor.Follows.runFrom (he : cfg.ending = .complete) {start : Mark} {c : Cursor}
    (h : c.Follows start taken) (w : W) : ∃ taken',
      c.ahead = taken' ++ (runFrom cfg c w).cursor.ahead ∧
        (runFrom cfg c w).cursor.Follows start (taken ++ taken') := by
  rw [runFrom_eq_run he h]
  obtain ⟨taken', hahead, hmark, hpending⟩ := run_follows he c.ahead (.initial c.mark w)
  refine ⟨taken', hahead, fun hne => ?_, hpending⟩
  have hc : c.ahead ≠ [] := by
    rw [hahead]
    exact fun h => hne (List.append_eq_nil_iff.1 h).2
  have hinitial : (State.initial c.mark w).mark = c.mark := rfl
  rw [hmark hne, hinitial, h.mark hc, Mark.through_append]

namespace Context.Reached

variable {text : List Char} {line col : Option Int} {c : Context W}

/-- Wherever a program comes to in a text, it stands behind what it has taken from it. -/
theorem follows (h : c.Reached sv text line col) : ∃ before,
    text = before ++ c.cursor.ahead ∧ c.cursor.Follows (.initial line col) before := by
  have step {cfg : Settings W} {c : Context W} (he : cfg.ending = .complete)
      (ih : ∃ before, text = before ++ c.cursor.ahead ∧
        c.cursor.Follows (.initial line col) before) :
      ∃ before, text = before ++ (runFrom cfg c.cursor c.world).cursor.ahead ∧
        (runFrom cfg c.cursor c.world).cursor.Follows (.initial line col) before := by
    obtain ⟨before, htext, hfollows⟩ := ih
    obtain ⟨taken, hahead, h⟩ := hfollows.runFrom he c.world
    refine ⟨before ++ taken, ?_, h⟩
    rw [List.append_assoc, ← hahead, htext]
  induction h with
  | ofText w => exact ⟨[], rfl, fun _ => rfl, fun _ h => Slot.noConfusion h⟩
  | next endIsError _ ih => exact step rfl ih
  | items close _ ih => exact step rfl ih
  | suppress | release | world => assumption

/-- A fault of the next form, unless it is that the text ends, has the place of the last character
taken, and ahead is what follows there. What is taken ends with the text at fault. -/
theorem next_fault (hc : c.Reached sv text line col) (endIsError : Bool) {e : Misreading}
    (h : (c.next sv endIsError).1 = .error (.misread e))
    (hkind : e.problem.kind ≠ .unexpectedEnd) :
    let behind := (c.next sv endIsError).2.cursor
    ∃ before taken, text = before ++ taken ++ behind.ahead ∧
      c.cursor.ahead = taken ++ behind.ahead ∧
      let last := (Mark.initial line col).through (before ++ taken)
      behind.mark = last ∧ e.line = last.line ∧ e.col = last.col ∧
        e.problem.EndsText taken behind.ahead := by
  intro behind
  obtain ⟨before, htext, hfollows⟩ := hc.follows
  obtain ⟨hstop, hbehind⟩ := Context.run_of_next_error hfollows h
  have hne : c.cursor.ahead ≠ [] := by
    intro hnil
    rw [hnil, run_nil _ rfl] at hstop
    exact absurd (kind_endBetween hstop) hkind
  obtain ⟨taken, hahead, hmark, hline, hcol, hends⟩ := run_fault_place rfl rfl rfl hstop hkind
  have hstart : (State.initial c.cursor.mark c.world).mark.through taken =
      (Mark.initial line col).through (before ++ taken) := by
    rw [Mark.through_append, ← hfollows.mark hne]
    rfl
  rw [← hbehind] at hahead hmark hends
  rw [hstart] at hmark hline hcol
  refine ⟨before, taken, ?_, hahead, hmark, hline, hcol, hends⟩
  rw [List.append_assoc, ← hahead, htext]

/-- A token without a value in a list on two lines, behind another form. -/
theorem next_fault_token :
    let sv := Services.standard .standard
    let text := "a (b\n 1x) c".toList
    let c := (Context.next sv false (.ofText text (some 5) none Store.empty)).2
    let behind := (c.next sv false).2.cursor
    c.Reached sv text (some 5) none ∧
    (c.next sv false).1 = .error (.misread ⟨.token "1x", 6, 3, none⟩) ∧
    ∃ before taken, text = before ++ taken ++ behind.ahead ∧
      behind.mark = (Mark.initial (some 5) none).through (before ++ taken) ∧
      Token.EndsText ['1', 'x'] taken behind.ahead := by
  intro sv text c behind
  have hc : c.Reached sv text (some 5) none := .next false (.ofText Store.empty)
  have hstop : (runFrom (c.settings sv .one false) c.cursor c.world).stop =
      .failed (.misread ⟨.token "1x", 6, 3, none⟩) := by decide +kernel
  have h : (c.next sv false).1 = .error (.misread ⟨.token "1x", 6, 3, none⟩) := by
    rw [Context.next, hstop]
  obtain ⟨before, taken, htext, -, hmark, -, -, token, htoken, hends⟩ :=
    next_fault hc false h (by decide)
  obtain rfl := Option.some.inj htoken
  exact ⟨hc, h, before, taken, htext, hmark, hends⟩

end Context.Reached

end LispForms
