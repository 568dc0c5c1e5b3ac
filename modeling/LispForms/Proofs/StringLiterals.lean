import LispForms.Proofs.FormEnd
import LispForms.Proofs.Readable

/-! Strings as they are written. Between two quotes a character stands for itself, but for quotes
and backslashes, and a backslash with a letter stands for one character. What is written so is read
as its content, and nothing behind the second quote is touched. A string is printed in the one of
its written forms that has no raw tabs and line breaks. Any other text behind a quote breaks off, at
the first escape that stands for nothing or at its end. -/

namespace LispForms

open State (unescape?)

variable {W : Type} {cfg : Settings W} {ls : List OpenList} {fs : List Form} {m last : Mark} {w : W}
  {b s t rest : List Char} {p : Problem} {c l : Char}

/-- What may stand between the quotes of a string, and the content that it stands for. -/
inductive Written : List Char → List Char → Prop
  | nil : Written [] []
  | plain {c : Char} {b s : List Char} (hq : c ≠ '"') (hb : c ≠ '\\') (h : Written b s) :
    Written (c :: b) (c :: s)
  | escape {l c : Char} {b s : List Char} (hl : unescape? l = some c) (h : Written b s) :
    Written ('\\' :: l :: b) (c :: s)

/-! ### Printed strings -/

theorem escapeLetter_of_unescape? (h : unescape? l = some c) : Form.escapeLetter c = some l := by
  unfold unescape? at h
  split at h <;> cases h <;> rfl

theorem ne_of_escapeLetter_eq_none (h : Form.escapeLetter c = none) : c ≠ '"' ∧ c ≠ '\\' := by
  constructor <;> rintro rfl <;> cases h

/-- What is printed between quotes is written for the string. -/
theorem written_escaped (s : List Char) : Written (Form.escaped s) s := by
  induction s with
  | nil => exact .nil
  | cons c s ih =>
    have hcons : Form.escaped (c :: s) = Form.escapedChar c ++ Form.escaped s := rfl
    rw [hcons, Form.escapedChar]
    cases h : Form.escapeLetter c with
    | some l => exact .escape (unescape?_of_escapeLetter h) ih
    | none =>
      obtain ⟨hq, hb⟩ := ne_of_escapeLetter_eq_none h
      exact .plain hq hb ih

/-- The escape of a tab or a line break; every other character as it is. -/
def escapedControl : Char → List Char
  | '\t' => ['\\', 't']
  | '\n' => ['\\', 'n']
  | '\r' => ['\\', 'r']
  | c => [c]

theorem escapedControl_of_ne (ht : c ≠ '\t') (hn : c ≠ '\n') (hr : c ≠ '\r') :
    escapedControl c = [c] := by
  unfold escapedControl
  split <;> first | contradiction | rfl

theorem escapedChar_eq_escapedControl (hq : c ≠ '"') (hb : c ≠ '\\') :
    Form.escapedChar c = escapedControl c := by
  by_cases h : c ≠ '\t' ∧ c ≠ '\n' ∧ c ≠ '\r'
  · obtain ⟨ht, hn, hr⟩ := h
    have hletter : Form.escapeLetter c = none := by
      unfold Form.escapeLetter
      split <;> first | contradiction | rfl
    rw [Form.escapedChar, hletter, escapedControl_of_ne ht hn hr]
  · simp only [ne_eq, not_and_or, not_not] at h
    rcases h with rfl | rfl | rfl <;> rfl

theorem escapedControl_letter (h : unescape? l = some c) : escapedControl l = [l] := by
  unfold unescape? at h
  split at h <;> first | rfl | cases h

/-- Whatever was written for a string, it is printed with escapes in place of raw tabs and line
breaks, and otherwise as it was written. -/
theorem Written.escaped_eq (h : Written b s) : Form.escaped s = b.flatMap escapedControl := by
  induction h with
  | nil => rfl
  | @plain c b s hq hb _ ih =>
    have hcons : Form.escaped (c :: s) = Form.escapedChar c ++ Form.escaped s := rfl
    rw [hcons, ih, escapedChar_eq_escapedControl hq hb, List.flatMap_cons]
  | @escape l c b s hl _ ih =>
    have hcons : Form.escaped (c :: s) = Form.escapedChar c ++ Form.escaped s := rfl
    have hbackslash : escapedControl '\\' = ['\\'] := rfl
    rw [hcons, ih, Form.escapedChar, escapeLetter_of_unescape? hl, List.flatMap_cons,
      List.flatMap_cons, hbackslash, escapedControl_letter hl]
    rfl

theorem flatMap_escapedControl_eq_iff :
    b.flatMap escapedControl = b ↔ ∀ c ∈ b, c ≠ '\t' ∧ c ≠ '\n' ∧ c ≠ '\r' := by
  induction b with
  | nil => simp
  | cons c b ih =>
    rw [List.flatMap_cons, List.forall_mem_cons, ← ih]
    by_cases hc : c ≠ '\t' ∧ c ≠ '\n' ∧ c ≠ '\r'
    · rw [escapedControl_of_ne hc.1 hc.2.1 hc.2.2, List.singleton_append, List.cons_inj_right,
        and_iff_right hc]
    · -- an escape begins with a backslash, which no raw control character is
      have hescape : ∃ x, escapedControl c = ['\\', x] ∧ c ≠ '\\' := by
        simp only [ne_eq, not_and_or, not_not] at hc
        rcases hc with rfl | rfl | rfl <;> exact ⟨_, rfl, by decide⟩
      obtain ⟨x, hx, hne⟩ := hescape
      refine iff_of_false (fun h => hne ?_) fun h => hc h.1
      rw [hx] at h
      exact (List.cons.inj h).1.symm

/-! ### Reading behind a quote -/

/-- Written characters are gathered as their content, in whatever reading they stand. -/
theorem run_written (h : Written b s) : ∀ (g : List Char) (m : Mark),
    run cfg ⟨.string g, ls, fs, m, w⟩ (b ++ rest) =
      run cfg ⟨.string (s.reverse ++ g), ls, fs, m.through b, w⟩ rest := by
  induction h with
  | nil => exact fun _ _ => rfl
  | @plain c b s hq hb _ ih =>
    intro g m
    rw [List.cons_append, run_on (feed_string hq hb), ih, List.reverse_cons,
      List.append_assoc]
    rfl
  | @escape l c b s hl _ ih =>
    intro g m
    rw [List.cons_append, List.cons_append, run_on feed_string_backslash,
      run_on (feed_escape hl), ih, List.reverse_cons, List.append_assoc]
    rfl

/-- What can stand behind written characters that are not followed by another one. -/
inductive StopsString : List Char → Prop
  | quote (r : List Char) : StopsString ('"' :: r)
  | unsupported {c : Char} (h : unescape? c = none) (r : List Char) : StopsString ('\\' :: c :: r)
  | ending : StopsString []
  | backslash : StopsString ['\\']

theorem exists_written : ∀ t, ∃ b s rest, t = b ++ rest ∧ Written b s ∧ StopsString rest
  | [] => ⟨[], [], [], rfl, .nil, .ending⟩
  | c :: t => by
    by_cases hq : c = '"'
    · exact ⟨[], [], c :: t, rfl, .nil, hq ▸ .quote t⟩
    by_cases hb : c = '\\'
    · cases t with
      | nil => exact ⟨[], [], [c], rfl, .nil, hb ▸ .backslash⟩
      | cons l t =>
        cases hl : unescape? l with
        | none => exact ⟨[], [], c :: l :: t, rfl, .nil, hb ▸ .unsupported hl t⟩
        | some x =>
          obtain ⟨b, s, rest, rfl, h, hrest⟩ := exists_written t
          exact ⟨c :: l :: b, x :: s, rest, rfl, hb ▸ .escape hl h, hrest⟩
    · obtain ⟨b, s, rest, rfl, h, hrest⟩ := exists_written t
      exact ⟨c :: b, c :: s, rest, rfl, .plain hq hb h, hrest⟩

/-- Reading behind a quote, from the place `m` on, a text comes to no second quote: the problem, the
place of the last piece read, and what is still to be read. -/
inductive Breaks (m : Mark) : List Char → Problem → Mark → List Char → Prop
  /-- Of all escapes the first that stands for nothing. -/
  | escape {b s : List Char} {c : Char} (h : Written b s) (hc : unescape? c = none)
    (r : List Char) :
    Breaks m (b ++ '\\' :: c :: r) (.escape (.singleton c)) (m.through (b ++ ['\\', c])) r
  | ending {b s : List Char} (h : Written b s) :
    Breaks m b (.unfinished .string) ((m.through b).next []) []
  | backslash {b s : List Char} (h : Written b s) :
    Breaks m (b ++ ['\\']) (.unfinished .string) ((m.through (b ++ ['\\'])).next []) []

theorem exists_breaks (ht : ∀ b s r, Written b s → t ≠ b ++ '"' :: r) (m : Mark) :
    ∃ p last rest, Breaks m t p last rest := by
  obtain ⟨b, s, rest, rfl, h, hrest⟩ := exists_written t
  cases hrest with
  | quote r => exact absurd rfl (ht b s r h)
  | unsupported hc r => exact ⟨_, _, _, .escape h hc r⟩
  | ending =>
    rw [List.append_nil]
    exact ⟨_, _, _, .ending h⟩
  | backslash => exact ⟨_, _, _, .backslash h⟩

theorem fails_of_breaks (h : Breaks m t p last rest) (he : cfg.ending = .complete) :
    (run cfg ⟨.string [], ls, fs, m, w⟩ t).Fails ⟨.between, ls, fs, last, w⟩
      (last.locate cfg.source p) rest := by
  cases h with
  | @escape b s c h hc r =>
    rw [run_written h, run_on feed_string_backslash, run_past (feed_unsupported hc),
      Mark.through_append]
    exact ⟨rfl, rfl, rfl, rfl, rfl, rfl⟩
  | ending h =>
    have hrun := @run_written _ cfg ls fs w _ _ [] h [] m
    rw [List.append_nil] at hrun
    rw [hrun, run_nil _ he]
    exact ⟨rfl, rfl, rfl, rfl, rfl, rfl⟩
  | backslash h =>
    rw [run_written h, run_on feed_string_backslash, run_nil _ he, Mark.through_append]
    exact ⟨rfl, rfl, rfl, rfl, rfl, rfl⟩

/-- A quote opens a string wherever it does not close what is read. -/
theorem run_quote (h : ls ≠ [] ∨ cfg.goal ≠ .upTo ['"']) (t : List Char) :
    run cfg ⟨.between, ls, fs, m, w⟩ ('"' :: t) =
      run cfg ⟨.string [], ls, fs, m.next ['"'], w⟩ t := by
  have hblank : Text.isBlank '"' = false := by decide
  have hopen : (ls.isEmpty && cfg.goal == .upTo ['"']) = false := by
    rcases h with h | h
    · rw [List.isEmpty_eq_false_iff.2 h, Bool.false_and]
    · rw [beq_eq_false_iff_ne.2 h, Bool.and_false]
  refine run_on ?_
  simp [State.feed, State.take, State.beginForm, Mode.endsAt, State.advance, hblank, hopen]

/-! ### String literals -/

section Literals

variable {sv : Services W} {endIsError : Bool} {line col : Option Int} {r : List Char}

/-- A string in its written form is read as its content, and what follows is left to be read. -/
theorem takes_written (h : Written b s) :
    Takes sv endIsError line col w ('"' :: b ++ ['"']) (.text (.ofList s)) r := by
  let cfg : Settings W := ⟨sv, .all, false, endIsError, none, .complete⟩
  let behind := ((Mark.initial line col).next ['"']).through b
  let st : State W := ⟨.between, [], [.text (.ofList s)], behind.next ['"'], w⟩
  have hgoal : cfg.forOne.goal ≠ .upTo ['"'] := nofun
  have happ : '"' :: b ++ ['"'] ++ r = '"' :: (b ++ '"' :: r) := by simp
  have hquote : State.feed cfg.forOne ⟨.string s.reverse, [], [], behind, w⟩ ['"'] =
      .past st .found behind := by
    rw [feed_string_quote_forOne rfl, List.reverse_reverse]
    rfl
  have hrun : run cfg.forOne (.initial (.initial line col) w) ('"' :: b ++ ['"'] ++ r) =
      .past st .found behind r := by
    rw [happ, State.initial, run_quote (.inr hgoal), run_written h, List.append_nil,
      run_past hquote]
  have hfound : (run cfg.forOne (.initial (.initial line col) w) ('"' :: b ++ ['"'] ++ r)).Found st
      (.string b true) r := by
    rw [hrun]
    exact .past rfl
  exact .of_found hfound rfl

/-- A text is taken in one way only. -/
theorem Takes.unique {q r' : List Char} {v u : Form} {p : List Char}
    (h : Takes sv endIsError line col w p v r) (h' : Takes sv endIsError line col w q u r')
    (happ : p ++ r = q ++ r') : p = q ∧ v = u ∧ r = r' := by
  obtain ⟨hv, hr⟩ := h
  obtain ⟨hu, hr'⟩ := h'
  rw [happ] at hv hr
  obtain rfl := hr.symm.trans hr'
  exact ⟨List.append_cancel_right happ, Option.some.inj (Except.ok.inj (hv.symm.trans hu)), rfl⟩

/-- A text that breaks off behind a quote is no form. -/
theorem next_of_breaks (h : Breaks ((Mark.initial line col).next ['"']) t p last rest) :
    let c := (Context.ofText ('"' :: t) line col w).next sv endIsError
    c.1 = .error (last.locate none p) ∧ c.2.cursor.ahead = rest := by
  let cfg : Settings W := ⟨sv, .one, false, endIsError, none, .complete⟩
  let st : State W := .initial (.initial line col) w
  have hgoal : cfg.goal ≠ .upTo ['"'] := nofun
  have hending : cfg.ending = .complete := rfl
  have hquote : run cfg st ('"' :: t) =
      run cfg ⟨.string [], [], [], (Mark.initial line col).next ['"'], w⟩ t :=
    run_quote (.inr hgoal) t
  have hrun : (run cfg st ('"' :: t)).Fails ⟨.between, [], [], last, w⟩ (last.locate none p)
      rest := by
    rw [hquote]
    exact fails_of_breaks h hending
  have hstop : (run cfg st ('"' :: t)).stop = .failed (last.locate none p) := hrun.stop
  refine ⟨?_, hrun.ahead⟩
  unfold Context.next
  dsimp only
  split
  next hfound => cases hstop.symm.trans hfound
  next hended => cases hstop.symm.trans hended
  next f hfailed => rw [Stop.failed.inj (hstop.symm.trans hfailed)]

/-- A quote, characters and a quote are one string exactly if they are written for it. -/
theorem takes_iff_written {v : String} :
    Takes sv endIsError line col w ('"' :: b ++ ['"']) (.text v) [] ↔ Written b v.toList := by
  constructor
  · intro h
    by_cases hlit : ∀ b' s r, Written b' s → b ++ ['"'] ≠ b' ++ '"' :: r
    · obtain ⟨p, last, rest, hbreaks⟩ := exists_breaks hlit ((Mark.initial line col).next ['"'])
      have herror := (@next_of_breaks _ _ w _ _ _ sv endIsError line col hbreaks).1
      have hok := h.1
      rw [List.append_nil, List.cons_append, herror] at hok
      cases hok
    · push Not at hlit
      obtain ⟨b', s, r, hb', happ⟩ := hlit
      have htakes := @takes_written _ w _ _ sv endIsError line col r hb'
      obtain ⟨hb, hv, -⟩ := h.unique htakes (by simp [happ])
      obtain rfl : b = b' := by simpa using hb
      rw [Form.text.inj hv, String.toList_ofList]
      exact hb'
  · intro h
    simpa using @takes_written _ w _ _ sv endIsError line col [] h

/-- At any depth of a text a written string is read as its content. -/
theorem run_literal (hg : cfg.goal = .all) (h : Written b s) :
    run cfg ⟨.between, ls, fs, m, w⟩ ('"' :: b ++ ['"'] ++ r) =
      run cfg (State.put cfg (.text (.ofList s))
        ⟨.between, ls, fs, m.through ('"' :: b ++ ['"']), w⟩) r := by
  have happ : '"' :: b ++ ['"'] ++ r = '"' :: (b ++ '"' :: r) := by simp
  have hgoal : cfg.goal ≠ .upTo ['"'] := by
    rw [hg]
    nofun
  rw [happ, run_quote (.inr hgoal), run_written h, List.append_nil, run_on (feed_string_quote hg),
    List.reverse_reverse, Mark.through_append]
  exact congrArg (run cfg · r) (State.put_mode _ _)

/-- The printed form of a string is read as that string whatever follows, at any depth, and leaves
what follows. Every other text that is one string between quotes is printed with escapes in place of
its raw tabs and line breaks and otherwise as it is. A text behind a quote with no such string in
front fails at the first escape that stands for nothing, or, if all escapes stand for something, at
its end, wherever the quote opens a string. -/
theorem string_literals (sv : Services W) (endIsError : Bool) (line col : Option Int) (w : W) :
    let printed (v : String) := ((Form.text v).print .standard).toList
    let start := Mark.initial line col
    let IsLiteral (b : List Char) (v : String) :=
      Takes sv endIsError line col w ('"' :: b ++ ['"']) (.text v) []
    (∀ v r, Takes sv endIsError line col w (printed v) (.text v) r) ∧
    (∀ cfg : Settings W, cfg.goal = .all → ∀ v r ls fs m u,
      run cfg ⟨.between, ls, fs, m, u⟩ (printed v ++ r) =
        run cfg (State.put cfg (.text v) ⟨.between, ls, fs, m.through (printed v), u⟩) r) ∧
    (∀ b v, IsLiteral b v → printed v = '"' :: b.flatMap escapedControl ++ ['"'] ∧
      (printed v = '"' :: b ++ ['"'] ↔ ∀ c ∈ b, c ≠ '\t' ∧ c ≠ '\n' ∧ c ≠ '\r')) ∧
    ∀ t, (∀ b v r, t = b ++ '"' :: r → ¬ IsLiteral b v) →
      (∃ p last rest, Breaks (start.next ['"']) t p last rest ∧
        let c := (Context.ofText ('"' :: t) line col w).next sv endIsError
        c.1 = .error (last.locate none p) ∧ c.2.cursor.ahead = rest) ∧
      ∀ (cfg : Settings W) ls fs m u, cfg.ending = .complete → ls ≠ [] ∨ cfg.goal ≠ .upTo ['"'] →
        ∃ p last rest, Breaks (m.next ['"']) t p last rest ∧
          (run cfg ⟨.between, ls, fs, m, u⟩ ('"' :: t)).Fails ⟨.between, ls, fs, last, u⟩
            (last.locate cfg.source p) rest := by
  intro printed start IsLiteral
  have hprinted (v : String) : printed v = '"' :: Form.escaped v.toList ++ ['"'] :=
    toList_print_text v
  refine ⟨fun v r => ?_, fun cfg hg v r ls fs m u => ?_, fun b v h => ?_, fun t ht => ?_⟩
  · rw [hprinted]
    simpa using @takes_written _ w _ _ sv endIsError line col r (written_escaped v.toList)
  · rw [hprinted, run_literal hg (written_escaped v.toList), String.ofList_toList]
  · have heq : printed v = '"' :: b.flatMap escapedControl ++ ['"'] := by
      rw [hprinted, (takes_iff_written.1 h).escaped_eq]
    refine ⟨heq, ?_⟩
    rw [heq, List.append_left_inj, List.cons_inj_right, flatMap_escapedControl_eq_iff]
  · have hlit : ∀ b s r, Written b s → t ≠ b ++ '"' :: r := by
      intro b s r hb happ
      refine ht b (.ofList s) r happ (takes_iff_written.2 ?_)
      rwa [String.toList_ofList]
    refine ⟨?_, fun cfg ls fs m u he hopen => ?_⟩
    · obtain ⟨p, last, rest, h⟩ := exists_breaks hlit (start.next ['"'])
      exact ⟨p, last, rest, h, next_of_breaks h⟩
    · obtain ⟨p, last, rest, h⟩ := exists_breaks hlit (m.next ['"'])
      refine ⟨p, last, rest, h, ?_⟩
      rw [run_quote hopen]
      exact fails_of_breaks h he

end Literals

/-- A raw tab and an escaped line feed, and an escape that stands for nothing before a quote. -/
theorem string_literals_tab :
    let sv : Services Store := .standard .standard
    let b := ['a', '\t', '\\', 'n']
    let t := ['\\', 'q', '"']
    Takes sv false none none .empty ('"' :: b ++ ['"']) (.text "a\t\n") [] ∧
      ((Form.text "a\t\n").print .standard).toList ≠ '"' :: b ++ ['"'] ∧
      ∃ p last rest, Breaks ((Mark.initial none none).next ['"']) t p last rest ∧
        ((Context.ofText ('"' :: t) none none .empty).next sv false).1 =
          .error (last.locate none p) := by
  intro sv b t
  obtain ⟨-, -, hprinted, hbreaks⟩ := string_literals sv false none none .empty
  have hb : Takes sv false none none .empty ('"' :: b ++ ['"']) (.text "a\t\n") [] := ⟨rfl, rfl⟩
  refine ⟨hb, fun h => ?_, ?_⟩
  · exact ((hprinted b _ hb).2.1 h '\t' (by decide)).1 rfl
  · have ht (b : List Char) (v : String) (r : List Char) (happ : t = b ++ '"' :: r) :
        ¬ Takes sv false none none .empty ('"' :: b ++ ['"']) (.text v) [] := by
      rw [takes_iff_written]
      generalize v.toList = s
      intro h
      cases h with
      | nil => exact absurd (List.cons.inj happ).1 (by decide)
      | plain hq hb h => exact hb (List.cons.inj happ).1.symm
      | escape hl h =>
        obtain rfl := (List.cons.inj (List.cons.inj happ).2).1
        cases hl
    obtain ⟨⟨p, last, rest, h, herror, -⟩, -⟩ := hbreaks t ht
    exact ⟨p, last, rest, h, herror⟩

end LispForms
