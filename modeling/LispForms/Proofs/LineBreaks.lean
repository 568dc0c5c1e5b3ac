import LispForms.Proofs.Joining
import LispForms.Proofs.Passage

/-! Conventions for line breaks. Outside of strings and characters it does not matter to a reading
whether lines end with a line feed, with a carriage return or with both: places are counted so that
both are one break, and what a break leaves behind differs only in the column that the break itself
has taken, which no form and no fault shows. -/

namespace LispForms

open Text (unifyBreaks isLineBreak isBlank)

variable {W : Type} {cfg : Settings W} {m : Mark} {c : Char} {cs : List Char}

/-! ### Texts -/

namespace Text

theorem unifyBreaks_append {a : List Char} (h : '\r' ∉ a) (b : List Char) :
    unifyBreaks (a ++ b) = a ++ unifyBreaks b := by
  induction a with
  | nil => rfl
  | cons c cs ih =>
    obtain ⟨hc, hcs⟩ := not_or.1 fun e => h (List.mem_cons.2 e)
    rw [List.cons_append, unifyBreaks.eq_3 c _ (fun _ e _ => hc e.symm) fun e => hc e.symm, ih hcs]
    rfl

/-- What follows a carriage return and the line feed that belongs to it, if one does. -/
def behindReturn : List Char → List Char
  | '\n' :: cs => cs
  | cs => cs

theorem unifyBreaks_return (cs : List Char) :
    unifyBreaks ('\r' :: cs) = '\n' :: unifyBreaks (behindReturn cs) := by
  fun_cases behindReturn cs with
  | case1 cs => rfl
  | case2 cs h => exact unifyBreaks.eq_2 cs fun ds hds => h ds hds

end Text

theorem isOrdinary_return : isOrdinary '\r' = false := by decide

/-- Tokens end where they did. -/
theorem stopsToken_unifyBreaks (h : StopsToken cs) : StopsToken (unifyBreaks cs) := by
  have hfeed : isOrdinary '\n' = false := by decide
  fun_cases unifyBreaks cs with
  | case1 cs | case2 cs => exact fun d hd => Option.some.inj hd ▸ hfeed
  | case3 c cs => exact h
  | case4 => exact h

namespace Lexeme

/-- Whether a carriage return stands in a string, or is a character itself. -/
def holdsReturn : Lexeme → Bool
  | string body _ => body.contains '\r'
  | character name => name.contains '\r'
  | _ => false

theorem splitComment_break {b : List Char} (hb : ∀ d ∈ b, isLineBreak d = false)
    (hc : isLineBreak c = true) (rest : List Char) :
    splitComment (b ++ c :: rest) = (b ++ [c], rest) := by
  induction b with
  | nil => simp [splitComment, hc]
  | cons d ds ih =>
    obtain ⟨hd, hds⟩ := List.forall_mem_cons.1 hb
    simp [splitComment, hd, ih hds]

/-- A carriage return ends a comment. -/
theorem exists_of_mem_splitComment (h : '\r' ∈ (splitComment cs).1) :
    ∃ b, (∀ d ∈ b, isLineBreak d = false) ∧ (splitComment cs).1 = b ++ ['\r'] := by
  induction cs with
  | nil => exact absurd h List.not_mem_nil
  | cons c cs ih =>
    by_cases hc : isLineBreak c = true
    · simp only [splitComment, hc, ↓reduceIte, List.mem_singleton] at h ⊢
      exact ⟨[], fun _ hd => absurd hd List.not_mem_nil, by rw [h]; rfl⟩
    · have hc : isLineBreak c = false := by simpa using hc
      simp only [splitComment, hc, Bool.false_eq_true, ↓reduceIte, List.mem_cons] at h ⊢
      rcases h with rfl | h
      · cases hc
      · obtain ⟨b, hb, hsplit⟩ := ih h
        exact ⟨c :: b, List.forall_mem_cons.2 ⟨hc, hb⟩, by rw [hsplit]; rfl⟩

/-- Apart from blanks, strings and characters only a comment has a carriage return in it, and the
comment ends there. -/
theorem first_of_mem_return (hc : c ≠ '\r') (hx : (first c cs).1.holdsReturn = false)
    (h : '\r' ∈ (first c cs).1.text) : c = ';' ∧ ∃ b rest,
      (∀ d ∈ b, isLineBreak d = false) ∧ cs = b ++ '\r' :: rest ∧
      first c cs = (comment (b ++ ['\r']), rest) := by
  rcases first_cases c with hb | rfl | rfl | rfl | rfl | rfl | ho
  · simp only [first, hb, ↓reduceIte, text, List.mem_singleton] at h
    exact absurd h.symm hc
  · have hmem : '\r' ∈ (splitComment cs).1 := by
      rcases List.mem_cons.1 h with h | h
      · cases h
      · exact h
    obtain ⟨b, hb, hsplit⟩ := exists_of_mem_splitComment hmem
    have happ := splitComment_append cs
    rw [hsplit] at happ
    refine ⟨rfl, b, (splitComment cs).2, hb, by simpa using happ.symm, ?_⟩
    show (comment (splitComment cs).1, (splitComment cs).2) = _
    rw [hsplit]
  · cases h with
    | tail _ h => cases h
  · cases h with
    | tail _ h => cases h
  · have hx : (splitString cs).1.contains '\r' = false := hx
    have h : '\r' ∈ '"' :: ((splitString cs).1 ++ if (splitString cs).2.1 then ['"'] else []) := h
    simp only [List.contains_eq_mem, decide_eq_false_iff_not] at hx
    split at h <;> simp [hx] at h
  · cases cs with
    | nil =>
      cases h with
      | tail _ h => cases h
    | cons d ds =>
      have hx : (d :: ds.takeWhile isOrdinary).contains '\r' = false := hx
      have h : '\r' ∈ '\\' :: d :: ds.takeWhile isOrdinary := h
      simp only [List.contains_eq_mem, decide_eq_false_iff_not] at hx
      rcases List.mem_cons.1 h with h | h
      · cases h
      · exact absurd h hx
  · rw [first_ordinary ho] at h
    have hr : isOrdinary '\r' = true := by
      rcases List.mem_cons.1 h with rfl | h
      · exact absurd rfl hc
      · exact List.mem_takeWhile_imp h
    rw [isOrdinary_return] at hr
    cases hr

/-- A lexeme without a carriage return is the first one whatever the breaks behind it are. -/
theorem first_unifyBreaks (h : '\r' ∉ (first c cs).1.text) :
    first c (unifyBreaks cs) = ((first c cs).1, unifyBreaks (first c cs).2) := by
  obtain ⟨ds, hds, hfirst⟩ := @first_congr c cs (first c cs).2 (unifyBreaks (first c cs).2)
    (first c cs).1 rfl (fun hnil => by rw [hnil]; rfl) stopsToken_unifyBreaks
  have htext : (first c cs).1.text = c :: ds := by
    have happ := text_first c cs
    rw [hds, ← List.cons_append, ← hds] at happ
    exact List.append_cancel_right happ
  rw [htext, List.mem_cons, not_or] at h
  rw [← hfirst, ← Text.unifyBreaks_append h.2, ← hds]

end Lexeme

/-! ### Places -/

namespace Mark

theorem after_next (m : Mark) (p : Piece) : (m.next p).after = .of p := by
  unfold next
  split <;> rfl

theorem after_through_ne_cr (hm : m.after ≠ .cr) (h : '\r' ∉ cs) : (m.through cs).after ≠ .cr := by
  induction cs generalizing m with
  | nil => exact hm
  | cons c cs ih =>
    obtain ⟨hc, hcs⟩ := not_or.1 fun e => h (List.mem_cons.2 e)
    refine ih ?_ hcs
    rw [after_next, LineBreak.of]
    simp only [List.cons.injEq, and_true, Ne.symm hc, ↓reduceIte]
    split <;> exact LineBreak.noConfusion

theorem next_of_breaksBefore {p : Piece} (h : m.breaksBefore p = true) :
    m.next p = ⟨m.line + 1, 1, .of p⟩ := by
  rw [next, if_pos h]

/-- Whether a piece begins a line depends on the piece only behind a carriage return. -/
theorem line_next (hm : m.after ≠ .cr) (p q : Piece) : (m.next p).line = (m.next q).line := by
  have hcr : (m.after == .cr) = false := beq_false_of_ne hm
  simp only [next, breaksBefore, hcr, Bool.false_and, Bool.or_false]
  split <;> rfl

theorem next_feed (m : Mark) (p : Piece) :
    (m.next ['\n']).next p = ⟨(m.next ['\n']).line + 1, 1, .of p⟩ := by
  apply next_of_breaksBefore
  simp [breaksBefore, after_next, LineBreak.of]

/-- A carriage return by itself is a break like a line feed. -/
theorem next_return (hm : m.after ≠ .cr) {p : Piece} (hp : p ≠ ['\n']) :
    (m.next ['\r']).next p = (m.next ['\n']).next p := by
  have hbreak : (m.next ['\r']).breaksBefore p = true := by
    simp [breaksBefore, after_next, LineBreak.of, hp]
  rw [next_of_breaksBefore hbreak, next_feed, line_next hm ['\r'] ['\n']]

/-- A carriage return with its line feed is a break like the line feed alone. -/
theorem next_return_feed (hm : m.after ≠ .cr) (p : Piece) :
    ((m.next ['\r']).next ['\n']).next p = (m.next ['\n']).next p := by
  have hline : ((m.next ['\r']).next ['\n']).line = (m.next ['\r']).line := by
    have hbreak : (m.next ['\r']).breaksBefore ['\n'] = false := by
      simp [breaksBefore, after_next, LineBreak.of]
    rw [next, hbreak]
    rfl
  rw [next_feed, next_feed, hline, line_next hm ['\r'] ['\n']]

end Mark

/-! ### Runs -/

/-- From between forms on, a run over the text goes as it does with unified breaks, where the place
is one that agrees on what comes next. -/
def RunsUnified (cfg : Settings W) (cs : List Char) : Prop :=
  ∀ ls fs m m' w, m'.after ≠ .cr → m.next cs.head?.toList = m'.next cs.head?.toList →
    (run cfg ⟨.between, ls, fs, m, w⟩ cs).Alike
      (run cfg ⟨.between, ls, fs, m', w⟩ (unifyBreaks cs))

section

variable {ls : List OpenList} {fs : List Form} {m' : Mark} {w : W} {rest : List Char} {x : Lexeme}
  {st st' : State W}

variable (hg : cfg.goal = .all) (he : cfg.ending = .complete)

include hg he

/-- Between forms, no more is seen of a place than what it makes of the next piece. -/
theorem run_alike (hm : m.next cs.head?.toList = m'.next cs.head?.toList) :
    (run cfg ⟨.between, ls, fs, m, w⟩ cs).Alike (run cfg ⟨.between, ls, fs, m', w⟩ cs) := by
  obtain ⟨hcarries, hstop⟩ :=
    @run_next _ cfg Eq [] ls fs m m' w w hg he cfg.services.respects_eq rfl cs hm
  rw [List.append_nil] at hcarries hstop
  exact ⟨hstop, hcarries.forms.trans (List.append_nil _), hcarries.world.symm⟩

theorem RunsUnified.nil : RunsUnified cfg [] := fun _ _ _ _ _ _ hm => run_alike hg he hm

omit hg he in
/-- Behind a carriage return in the one text stands what is behind the line feed in the other. -/
theorem RunsUnified.behindReturn (hm : m.after ≠ .cr) (h : RunsUnified cfg cs)
    (h' : ∀ ds, cs = '\n' :: ds → RunsUnified cfg ds) :
    (run cfg ⟨.between, ls, fs, m.next ['\r'], w⟩ cs).Alike
      (run cfg ⟨.between, ls, fs, m.next ['\n'], w⟩ (unifyBreaks (Text.behindReturn cs))) := by
  have hafter : (m.next ['\n']).after ≠ .cr := by
    rw [Mark.after_next]
    decide
  fun_cases Text.behindReturn cs with
  | case1 ds =>
    have hb : isBlank '\n' = true := by decide
    rw [run_on (feed_blank hb)]
    exact h' ds rfl _ _ _ _ _ hafter (Mark.next_return_feed hm _)
  | case2 cs hcs =>
    refine h _ _ _ _ _ hafter (Mark.next_return hm fun hp => ?_)
    cases cs with
    | nil => cases hp
    | cons d ds =>
      obtain rfl : d = '\n' := by simpa using hp
      exact hcs ds rfl

omit hg he in
theorem RunsUnified.cons_return (h : RunsUnified cfg cs)
    (h' : ∀ ds, cs = '\n' :: ds → RunsUnified cfg ds) : RunsUnified cfg ('\r' :: cs) := by
  intro ls fs m m' w hafter hm
  have hr : isBlank '\r' = true := by decide
  have hn : isBlank '\n' = true := by decide
  have hm : m.next ['\r'] = m'.next ['\r'] := hm
  rw [Text.unifyBreaks_return, run_on (feed_blank hr), run_on (feed_blank hn), hm]
  exact behindReturn hafter h h'

/-- A comment with its line. -/
theorem run_comment_line {b : List Char} (hb : ∀ d ∈ b, isLineBreak d = false)
    (hc : isLineBreak c = true) (rest : List Char) :
    run cfg ⟨.between, ls, fs, m, w⟩ (';' :: b ++ c :: rest) =
      run cfg ⟨.between, ls, fs, (m.through (';' :: b)).next [c], w⟩ rest := by
  have hends : Lexeme.endsLine (b ++ [c]) = true := by simp [Lexeme.endsLine, hc]
  have hcomment := @run_comment _ cfg ls fs w he (b ++ c :: rest) (m.next [';'])
  rw [Lexeme.splitComment_break hb hc] at hcomment
  rcases hcomment with ⟨-, hrun⟩ | ⟨hopen, -⟩
  · rw [List.cons_append, run_on (feed_semicolon hg), hrun, Mark.through_concat]
    rfl
  · rw [hends] at hopen
    cases hopen

theorem RunsUnified.comment {b : List Char} (hb : ∀ d ∈ b, isLineBreak d = false)
    (h : RunsUnified cfg rest) (h' : ∀ ds, rest = '\n' :: ds → RunsUnified cfg ds) :
    RunsUnified cfg (';' :: b ++ '\r' :: rest) := by
  intro ls fs m m' w hafter hm
  have hmem : '\r' ∉ ';' :: b := by
    intro hmem
    rcases List.mem_cons.1 hmem with heq | hmem
    · cases heq
    · cases hb '\r' hmem
  rw [Text.unifyBreaks_append hmem, Text.unifyBreaks_return,
    run_comment_line hg he hb (c := '\n') rfl]
  refine (run_alike hg he hm).trans ?_
  rw [run_comment_line hg he hb (c := '\r') rfl]
  exact behindReturn (Mark.after_through_ne_cr hafter hmem) h h'

theorem RunsUnified.first (hc : c ≠ '\r') (hx : '\r' ∉ (Lexeme.first c cs).1.text)
    (h : RunsUnified cfg (Lexeme.first c cs).2) : RunsUnified cfg (c :: cs) := by
  intro ls fs m m' w hafter hm
  have hunify : unifyBreaks (c :: cs) = c :: unifyBreaks cs :=
    @Text.unifyBreaks_append [c] (by simpa using hc.symm) cs
  have hunified := @passes_first _ cfg ⟨.between, ls, fs, m', w⟩ hg he rfl c (unifyBreaks cs)
  rw [Lexeme.first_unifyBreaks hx] at hunified
  rw [hunify]
  refine (run_alike hg he hm).trans ?_
  rcases @passes_first _ cfg ⟨.between, ls, fs, m', w⟩ hg he rfl c cs with ⟨st, hst, hrun⟩ | hhalts
  · rcases hunified with ⟨st', hst', hrun'⟩ | hhalts'
    · rw [hrun, hrun', ← hst.unique hst']
      have hafter' : st.mark.after ≠ .cr := by
        rw [hst.mark]
        exact Mark.after_through_ne_cr hafter hx
      obtain ⟨mode, ls', fs', n, w'⟩ := st
      obtain rfl : mode = .between := hst.mode
      exact h ls' fs' n n w' hafter' rfl
    · exact absurd hhalts' hst.not_halts
  · rcases hunified with ⟨st', hst', -⟩ | hhalts'
    · exact absurd hhalts hst'.not_halts
    · exact hhalts.unique hhalts'

/-- The induction is on the length of the text, since a carriage return takes a line feed along. -/
theorem runsUnified (h : ∀ x ∈ Lexeme.cut cs, x.holdsReturn = false) : RunsUnified cfg cs := by
  induction hlen : cs.length using Nat.strong_induction_on generalizing cs with
  | _ n ih =>
    cases cs with
    | nil => exact .nil hg he
    | cons c cs =>
      have later {ds : List Char} (hds : ds.length ≤ cs.length)
          (hcut : ∀ x ∈ Lexeme.cut ds, x.holdsReturn = false) : RunsUnified cfg ds := by
        refine ih ds.length ?_ hcut rfl
        rw [← hlen, List.length_cons]
        omega
      have behind {rest : List Char} (hrest : rest.length ≤ cs.length)
          (hcut : ∀ x ∈ Lexeme.cut rest, x.holdsReturn = false) (ds : List Char)
          (hds : rest = '\n' :: ds) : RunsUnified cfg ds := by
        have hb : isBlank '\n' = true := by decide
        rw [hds, Lexeme.cut_blank hb] at hcut
        rw [hds, List.length_cons] at hrest
        exact later (by omega) fun x hx => hcut x (.tail _ hx)
      by_cases hc : c = '\r'
      · have hb : isBlank '\r' = true := by decide
        rw [hc, Lexeme.cut_blank hb] at h
        have hcut := (List.forall_mem_cons.1 h).2
        rw [hc]
        exact .cons_return (later (le_refl _) hcut) (behind (le_refl _) hcut)
      · rw [Lexeme.cut_cons] at h
        obtain ⟨hx, hcut⟩ := List.forall_mem_cons.1 h
        have hshort := Lexeme.length_first_le c cs
        by_cases hmem : '\r' ∈ (Lexeme.first c cs).1.text
        · obtain ⟨rfl, b, rest, hb, rfl, hfirst⟩ := Lexeme.first_of_mem_return hc hx hmem
          rw [hfirst] at hcut hshort
          exact .comment hg he hb (later hshort hcut) (behind hshort hcut)
        · exact .first hg he hc hmem (later hshort hcut)

end

/-! ### Readings -/

/-- A text without carriage returns in its strings and characters is read as the text with a line
feed for each of its line breaks: the same forms with the same places come of it, or the same fault
at the same place, and it leaves the world the same. -/
theorem read_unifyBreaks (sv : Services W) (opts : Options) (text : String) (w : W)
    (h : ∀ x ∈ Lexeme.cut text.toList, x.holdsReturn = false) :
    read sv opts (.ofString text) w =
      read sv opts (.ofString (.ofList (unifyBreaks text.toList))) w := by
  let cfg : Settings W := ⟨sv, .all, opts.suppress, opts.endIsError, none, .complete⟩
  have hafter : (Mark.initial opts.line opts.col).after ≠ .cr := LineBreak.noConfusion
  have halike := @runsUnified _ cfg text.toList rfl rfl h [] [] (.initial opts.line opts.col)
    (.initial opts.line opts.col) (sv.note (Source.ofString text).opening w) hafter rfl
  rw [read_ofString, read_ofString, String.toList_ofList]
  exact halike.reading

/-- Three conventions in one text, which fails behind the last of them. -/
theorem read_unifyBreaks_mixed :
    let text := "(a ; b\r\n c)\r\r\n\t\\tab\n\r(1x"
    let r := read (.standard .standard) ⟨true, false, some 5, none⟩ (.ofString text) .empty
    (∀ x ∈ Lexeme.cut text.toList, x.holdsReturn = false) ∧
      r.fault = some (.misread ⟨.token "1x", 10, 3, none⟩) ∧
      r = read (.standard .standard) ⟨true, false, some 5, none⟩
        (.ofString "(a ; b\n c)\n\n\t\\tab\n\n(1x") .empty := by
  intro text r
  have h : ∀ x ∈ Lexeme.cut text.toList, x.holdsReturn = false := by decide +kernel
  have htext : String.ofList (unifyBreaks text.toList) =
      "(a ; b\n c)\n\n\t\\tab\n\n(1x" := by decide +kernel
  refine ⟨h, by decide +kernel, ?_⟩
  rw [← htext]
  exact read_unifyBreaks _ _ _ _ h

end LispForms
