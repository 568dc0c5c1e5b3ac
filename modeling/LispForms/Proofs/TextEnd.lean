import LispForms.Proofs.FaultPlace

/-! The place of an end that comes too soon. It is the place of the end of the text, one step behind
the last character, unless the text ends in a comment: the end is then read once as the end of the
comment and once more for itself, and the place is one column too far. -/

namespace LispForms

variable {W : Type} {cfg : Settings W} {st st' : State W} {e : Misreading} {x : Lexeme}
  {xs : List Lexeme} {cs rest : List Char} {m : Mark} {o : Outcome W}

/-! ### The end of a text -/

/-- The cursor after some reads. -/
def Cursor.skip (c : Cursor) : ℕ → Cursor
  | 0 => c
  | n + 1 => c.read.2.skip n

/-- Every character of a text is read, and then its end. -/
theorem Cursor.mark_skip (before : Mark) : ∀ (cs : List Char) (m : Mark),
    (Cursor.skip ⟨cs, m, .taken before⟩ (cs.length + 1)).mark = (m.through cs).next []
  | [], _ => rfl
  | c :: cs, m => mark_skip m cs (m.next [c])

theorem Cursor.mark_skip_ofText (text : List Char) (line col : Option Int) :
    ((Cursor.ofText text line col).skip (text.length + 1)).mark =
      ((Mark.initial line col).through text).next [] := by
  cases text with
  | nil => rfl
  | cons c cs => exact mark_skip (.initial line col) cs ((Mark.initial line col).next [c])

/-- The end of a text ends no line, so that it moves on by a column when it is read again. -/
theorem Mark.next_end (m : Mark) :
    ((m.next []).next []).line = (m.next []).line ∧
      ((m.next []).next []).col = (m.next []).col + 1 := by
  unfold Mark.next
  split <;> exact ⟨rfl, rfl⟩

/-! ### Texts that end in a comment -/

namespace Lexeme

/-- Whether the text ends in the lexeme, if the lexeme is a comment. -/
def isOpenComment : Lexeme → Bool
  | comment body => !endsLine body
  | _ => false

/-- Whether a text ends in a comment. -/
def endsInComment (cs : List Char) : Bool := (cut cs).getLast?.any isOpenComment

theorem isOpenComment_of_literal? {r : Except Problem Form} (hx : x.literal? = some r) :
    x.isOpenComment = false := by
  cases x <;> first | rfl | cases hx

/-- Behind a string or a character that is unfinished the text is at its end. -/
theorem rest_of_unfinished {what : Unfinished}
    (hx : x.literal? = some (.error (.unfinished what)))
    (hcut : cut (x.text ++ rest) = x :: cut rest) : rest = [] := by
  cases x with
  | string body closed =>
    have hx := Option.some.inj hx
    unfold Assembly.stringValue at hx
    split at hx
    · split at hx
      · cases hx
      next hclosed =>
        obtain rfl : closed = false := by simpa using hclosed
        have htext : (string body false).text ++ rest = '"' :: (body ++ rest) := by simp [text]
        rw [htext, cut_string] at hcut
        obtain ⟨hstring, hrest⟩ := List.cons.inj hcut
        rw [splitString_rest (string.inj hstring).2] at hrest
        exact (cut_injective hrest).symm
    next hu =>
      obtain ⟨c, rfl, -⟩ := Assembly.suffix_splitEscape hu
      cases hx
  | character name =>
    have hx := Option.some.inj hx
    unfold Assembly.characterValue at hx
    split at hx
    · cases hx
    · split at hx
      next hname =>
        subst hname
        cases rest with
        | nil => rfl
        | cons d ds =>
          have hcut := (cut_cons '\\' (d :: ds)).symm.trans hcut
          cases character.inj (List.cons.inj hcut).1
      next => cases hx
  | _ => cases hx

end Lexeme

theorem State.Reads.isOpenComment (h : State.Reads cfg st x st') : x.isOpenComment = false := by
  cases h with
  | comment hends => simp [Lexeme.isOpenComment, hends]
  | literal hx => exact Lexeme.isOpenComment_of_literal? hx
  | _ => rfl

theorem State.ReadsAll.isOpenComment (h : State.ReadsAll cfg st xs st') :
    ∀ x ∈ xs, x.isOpenComment = false := by
  induction h with
  | nil => exact fun _ hx => (List.not_mem_nil hx).elim
  | cons hx _ ih => exact List.forall_mem_cons.2 ⟨hx.isOpenComment, ih⟩

/-- What is read to its end does not end in a comment. -/
theorem State.ReadsAll.endsInComment (h : State.ReadsAll cfg st (Lexeme.cut cs) st') :
    Lexeme.endsInComment cs = false := by
  unfold Lexeme.endsInComment
  cases hlast : (Lexeme.cut cs).getLast? with
  | none => rfl
  | some x => exact h.isOpenComment x (List.mem_of_getLast? hlast)

/-! ### Runs -/

/-- Where a form may begin, the end of the text has the place behind. -/
theorem misread_endBetween (h : (st.endBetween cfg rest).stop = .failed (.misread e)) :
    e.line = (st.mark.next []).line ∧ e.col = (st.mark.next []).col := by
  simp only [State.endBetween, Outcome.past] at h
  split_ifs at h
  obtain rfl := Fault.misread.inj (Stop.failed.inj h)
  exact ⟨rfl, rfl⟩

/-- A run that halts at a lexeme because the text ends has taken the whole text, and its end twice
if the lexeme is a comment. -/
theorem State.Halts.end_place (h : State.Halts cfg st x rest o)
    (hstop : o.stop = .failed (.misread e)) (hkind : e.problem.kind = .unexpectedEnd)
    (hcut : Lexeme.cut (x.text ++ rest) = x :: Lexeme.cut rest) :
    let last := (st.mark.through x.text).next []
    rest = [] ∧ e.line = last.line ∧ e.col = last.col + if x.isOpenComment then 1 else 0 := by
  cases h with
  | @comment ls fs m w body hends =>
    obtain ⟨hline, hcol⟩ := misread_endBetween hstop
    obtain ⟨hsame, hnext⟩ := Mark.next_end (m.through (';' :: body))
    refine ⟨rfl, hline.trans hsame, ?_⟩
    rw [hcol, hnext, Lexeme.isOpenComment, hends]
    rfl
  | unmatched h =>
    obtain rfl := h.misread hstop
    cases hkind
  | @literal ls fs m w x p rest o hx h =>
    obtain rfl := h.misread hstop
    cases p with
    | unfinished what =>
      refine ⟨Lexeme.rest_of_unfinished hx hcut, rfl, ?_⟩
      simp [Lexeme.isOpenComment_of_literal? hx, Lexeme.problemMark]
    | _ => cases hkind
  | token hs hi h =>
    obtain rfl := Stop.failed.inj (h.stop.symm.trans hstop)
    have hstructural := (Services.fails_of_interpret hi).isStructural fun _ => rfl
    have hend : Fault.isUnexpectedEnd (.misread e) = true := beq_iff_eq.2 hkind
    rw [Fault.isStructural_of_isUnexpectedEnd hend] at hstructural
    cases hstructural

/-- A run that fails because its text ends has the place of the end, one column further if the text
ends in a comment. -/
theorem run_end_place (hg : cfg.goal = .all) (he : cfg.ending = .complete)
    (hmode : st.mode = .between) (hstop : (run cfg st cs).stop = .failed (.misread e))
    (hkind : e.problem.kind = .unexpectedEnd) :
    let last := (st.mark.through cs).next []
    e.line = last.line ∧ e.col = last.col + if Lexeme.endsInComment cs then 1 else 0 := by
  obtain ⟨xs, st', hall, ⟨rfl, hrun⟩ | ⟨x, rest, hcut, hhalts⟩⟩ := exists_readsAll hg he cs st hmode
  · rw [hrun, run_nil st' he, State.close, hall.mode hmode] at hstop
    obtain ⟨hline, hcol⟩ := misread_endBetween hstop
    rw [hall.mark, Lexeme.flatMap_text_cut] at hline hcol
    refine ⟨hline, ?_⟩
    rw [hcol, hall.endsInComment]
    exact (Int.add_zero _).symm
  · obtain ⟨rfl, hline, hcol⟩ := hhalts.end_place hstop hkind (Lexeme.cut_text_append hcut)
    have htext : cs = xs.flatMap Lexeme.text ++ x.text := by
      rw [← Lexeme.flatMap_text_cut cs, hcut]
      simp
    rw [hall.mark, ← Mark.through_append, ← htext] at hline hcol
    refine ⟨hline, ?_⟩
    rw [hcol, Lexeme.endsInComment, hcut, Lexeme.cut_nil, List.getLast?_concat]
    rfl

/-! ### Readings -/

/-- An end of the text that comes too soon has the place at which the text stands once every
character and then the end has been read, but the column behind if the text ends in a comment. -/
theorem read_end_place (sv : Services W) (opts : Options) (text : String) (w : W)
    (h : (read sv opts (.ofString text) w).fault = some (.misread e))
    (hkind : e.problem.kind = .unexpectedEnd) :
    let last := ((Cursor.ofText text.toList opts.line opts.col).skip (text.toList.length + 1)).mark
    e.line = last.line ∧
      e.col = last.col + if Lexeme.endsInComment text.toList then 1 else 0 := by
  intro last
  have hlast : last = ((Mark.initial opts.line opts.col).through text.toList).next [] :=
    Cursor.mark_skip_ofText _ _ _
  rw [hlast]
  have hstop := Outcome.fault?_eq_some_iff.1 h
  exact run_end_place rfl rfl rfl hstop hkind

/-- A list is cut off in front of the end of the text, behind a carriage return; then in a
comment. -/
theorem read_end_place_list :
    let opts : Options := ⟨false, false, some 5, none⟩
    let reading (text : String) := read (.standard .standard) opts (.ofString text) .empty
    let last (text : String) :=
      ((Cursor.ofText text.toList opts.line opts.col).skip (text.toList.length + 1)).mark
    (reading "a (\n b\r").fault = some (.misread ⟨.unfinished .form, 7, 1, none⟩) ∧
    (7 = (last "a (\n b\r").line ∧ 1 = (last "a (\n b\r").col +
      if Lexeme.endsInComment "a (\n b\r".toList then 1 else 0) ∧
    (reading "a (\n ;").fault = some (.misread ⟨.unfinished .form, 6, 4, none⟩) ∧
    6 = (last "a (\n ;").line ∧ 4 = (last "a (\n ;").col +
      if Lexeme.endsInComment "a (\n ;".toList then 1 else 0 := by
  intro opts reading last
  have h : (reading "a (\n b\r").fault = some (.misread ⟨.unfinished .form, 7, 1, none⟩) := by
    decide +kernel
  have h' : (reading "a (\n ;").fault = some (.misread ⟨.unfinished .form, 6, 4, none⟩) := by
    decide +kernel
  exact ⟨h, read_end_place (.standard .standard) opts _ .empty h rfl, h',
    read_end_place (.standard .standard) opts _ .empty h' rfl⟩

/-- In a comment the end of the text has the wrong place. -/
theorem read_end_place_comment :
    let r := read (.standard .standard) .standard (.ofString "(;") .empty
    let last := ((Cursor.ofText "(;".toList none none).skip ("(;".toList.length + 1)).mark
    r.fault = some (.misread ⟨.unfinished .form, 1, 4, none⟩) ∧ last.line = 1 ∧ last.col = 3 := by
  decide +kernel

end LispForms
