import LispForms.Proofs.NextForm
import LispForms.Proofs.Suppression

/-! A reading for the next form, lexeme by lexeme. It takes the lexemes that a reading for all forms
takes, up to the one that completes a form. Behind the last lexeme of a list or a string it stops at
once. A token and a character are complete only where something stops them, so that one more piece
is read, which is given back. -/

namespace LispForms

variable {W : Type}

/-! ### Lexemes that end a form -/

namespace Lexeme

/-- A lexeme that ends a list or a string. -/
def isClosed : Lexeme → Bool
  | closing | string _ true => true
  | _ => false

/-- A lexeme that goes on until something stops it. -/
def isBare : Lexeme → Bool
  | character (_ :: _) | token _ => true
  | _ => false

variable {x : Lexeme} {xs : List Lexeme} {c : Char} {cs other : List Char}

/-- What follows the last lexeme of a text has no part in it. -/
theorem first_append (h : first c cs = (x, [])) (hx : x.isClosed = true ∨ x.isBare = true)
    (hstops : x.isBare = true → StopsToken other) : first c (cs ++ other) = (x, other) := by
  have gathered {ds : List Char} (hds : ds.dropWhile isOrdinary = []) (ho : StopsToken other) :
      (ds ++ other).takeWhile isOrdinary = ds.takeWhile isOrdinary ∧
        (ds ++ other).dropWhile isOrdinary = other := by
    have hall := takeWhile_ordinary (List.dropWhile_eq_nil_iff.1 hds) ho
    have htake := List.takeWhile_append_dropWhile (p := isOrdinary) (l := ds)
    rw [hds, List.append_nil] at htake
    rwa [htake]
  rcases first_cases c with hc | rfl | rfl | rfl | rfl | rfl | hc
  · simp only [first, hc, ↓reduceIte, Prod.mk.injEq] at h
    obtain ⟨rfl, rfl⟩ := h
    simp [isClosed, isBare] at hx
  · obtain ⟨rfl, -⟩ := Prod.mk.inj h
    simp [isClosed, isBare] at hx
  · obtain ⟨rfl, -⟩ := Prod.mk.inj h
    simp [isClosed, isBare] at hx
  · obtain ⟨rfl, rfl⟩ := Prod.mk.inj h
    rfl
  · obtain ⟨rfl, hrest⟩ := Prod.mk.inj h
    cases hclosed : (splitString cs).2.1 with
    | false => simp [isClosed, isBare, hclosed] at hx
    | true =>
      have hcs : splitString cs = ((splitString cs).1, true, []) :=
        Prod.ext rfl (Prod.ext hclosed hrest)
      have happ := splitString_append cs
      have hother := @splitString_congr _ _ _ other _ hcs (by simp)
      rw [hrest, hclosed, List.append_nil] at happ
      rw [← List.append_assoc, if_pos rfl] at hother
      rw [if_pos rfl] at happ
      rw [happ] at hother
      show (string _ _, _) = _
      rw [hother]
  · cases cs with
    | nil =>
      obtain ⟨rfl, -⟩ := Prod.mk.inj h
      simp [isClosed, isBare] at hx
    | cons d ds =>
      obtain ⟨rfl, hrest⟩ := Prod.mk.inj h
      obtain ⟨htake, hdrop⟩ := gathered hrest (hstops rfl)
      show (character (d :: (ds ++ other).takeWhile isOrdinary),
        (ds ++ other).dropWhile isOrdinary) = _
      rw [htake, hdrop]
  · rw [first_ordinary hc] at h ⊢
    obtain ⟨rfl, hrest⟩ := Prod.mk.inj h
    obtain ⟨htake, hdrop⟩ := gathered hrest (hstops rfl)
    rw [htake, hdrop]

/-- A text that ends with a form is cut as it is by itself, if what stands behind it stops it. -/
theorem cut_append_of_last (hx : x.isClosed = true ∨ x.isBare = true)
    (hstops : x.isBare = true → StopsToken other) : ∀ {xs : List Lexeme} {cs : List Char},
      cut cs = xs ++ [x] → cut (cs ++ other) = xs ++ x :: cut other
  | xs, [], h => by simp at h
  | [], c :: cs, h => by
    rw [cut_cons] at h
    obtain ⟨hfirst, hrest⟩ := List.cons.inj h
    have hnil : (first c cs).2 = [] := cut_injective (hrest.trans cut_nil.symm)
    rw [List.cons_append, cut_cons, first_append (Prod.ext hfirst hnil) hx hstops]
    rfl
  | y :: ys, c :: cs, h => by
    rw [cut_cons] at h
    obtain ⟨hfirst, hrest⟩ := List.cons.inj h
    obtain ⟨d, ds, hne⟩ : ∃ d ds, (first c cs).2 = d :: ds := by
      cases hrest' : (first c cs).2 with
      | nil => simp [hrest'] at hrest
      | cons d ds => exact ⟨d, ds, rfl⟩
    have hih := cut_append_of_last hx hstops hrest
    rw [hne] at hih
    obtain ⟨es, hcs, hother⟩ := @first_congr _ _ _ (d :: ds ++ other) _ (Prod.ext hfirst hne)
      (fun h => nomatch h) id
    rw [hcs, List.cons_append, List.append_assoc, cut_cons, hother, hih]
    rfl
  termination_by xs => xs.length

end Lexeme

/-! ### One lexeme of a reading for the next form -/

/-- The run has found the form that `st` holds and whose last lexeme is `x`, in front of `rest`. -/
inductive Outcome.Found (st : State W) (x : Lexeme) (rest : List Char) : Outcome W → Prop
  | past {before : Mark} (h : x.isClosed = true) : Found st x rest (.past st .found before rest)
  | back (h : x.isBare = true) : Found st x rest (.back st .found rest.head?.toList rest.tail)

open State (Reads ReadsAll Halts put settle feed proceed)

variable {cfg : Settings W} {ls : List OpenList} {fs : List Form} {m : Mark} {w w' : W}
  {g : List Char} {c : Char} {cs rest : List Char} {x : Lexeme} {xs : List Lexeme} {v : Form}
  {st st' st'' : State W}

/-- The run of a reading for the next form goes on from `st`, or it has found its form. -/
def GoesOnOrFinds (cfg : Settings W) (st : State W) (x : Lexeme) (rest : List Char)
    (o : Outcome W) : Prop :=
  st.forms = [] ∧ o = run cfg.forOne st rest ∨ st.forms ≠ [] ∧ o.Found st x rest

section

variable (hg : cfg.goal = .all)

include hg

/-- Where no form is completed, a reading for the next form takes the same step as one for all. -/
theorem feed_forOne_on (hmode : st.mode = .between) (hforms : st.forms = [])
    (h : st.feed cfg [c] = .on st') (hst' : st'.forms = []) : st.feed cfg.forOne [c] = .on st' := by
  have hfollows := State.take_forOne hg hforms [c]
  rw [feed_eq_take hmode] at h ⊢
  rw [h] at hfollows
  generalize st.take cfg.forOne [c] = s at hfollows
  cases hfollows with
  | same => rfl
  | past _ hne => exact absurd hst' hne

omit hg in
theorem run_proceed (hx : x.isClosed = true) {before : Mark}
    (h : st.feed cfg.forOne [c] = st'.proceed cfg.forOne before) :
    GoesOnOrFinds cfg st' x cs (run cfg.forOne st (c :: cs)) := by
  rw [run, h]
  unfold proceed
  by_cases hforms : st'.forms = []
  · have hsat : st'.satisfied cfg.forOne = false := by simp [State.satisfied, hforms]
    rw [hsat]
    exact .inl ⟨hforms, rfl⟩
  · have hsat : st'.satisfied cfg.forOne = true := by simp [State.satisfied, hforms]
    rw [hsat]
    exact .inr ⟨hforms, .past hx⟩

theorem feed_closing_forOne (l : OpenList) :
    feed cfg.forOne ⟨.between, l :: ls, fs, m, w⟩ [')'] =
      proceed cfg.forOne (put cfg (.list l.items.reverse (some (.between l.start (m.next [')']))))
        ⟨.between, ls, fs, m.next [')'], w⟩) m := by
  have hb : Text.isBlank ')' = false := by decide
  simp [feed, State.take, State.beginForm, Mode.endsAt, State.advance, hb, State.put_forOne hg]

theorem feed_string_quote_forOne :
    feed cfg.forOne ⟨.string g, ls, fs, m, w⟩ ['"'] =
      proceed cfg.forOne (put cfg (.text (.ofList g.reverse))
        ⟨.between, ls, fs, m.next ['"'], w⟩) m := by
  simp [feed, State.take, Mode.endsAt, State.advance, State.put_forOne hg,
    State.put_mode (.string g)]

variable (he : cfg.ending = .complete) {k : List Char → Mode}

include he

omit hg he in
theorem endsAt_gather (hk : Gathers k) (h : isOrdinary c = false) :
    Mode.endsAt (k g) [c] = true := by
  have h : Text.isBlank c = true ∨ isSpecial c = true := by
    simpa [isOrdinary, Classical.or_iff_not_imp_left] using h
  cases hk <;> simpa [Mode.endsAt, Piece.endsToken] using h

/-- A token or a character in front of what stops it. -/
theorem run_settle_forOne (hx : x.isBare = true) (hk : Gathers k) (hr : StopsToken rest)
    (h : settle cfg ⟨k g, ls, fs, m, w⟩ = (st, none)) :
    GoesOnOrFinds cfg st x rest (run cfg.forOne ⟨k g, ls, fs, m, w⟩ rest) := by
  have hmode := mode_settle hk h
  have hsettle : settle cfg.forOne ⟨k g, ls, fs, m, w⟩ = (st, none) := by
    rw [State.settle_forOne hg, h]
  have hsat : st.satisfied cfg.forOne = !st.forms.isEmpty := rfl
  cases rest with
  | nil =>
    have hclose : run cfg.forOne ⟨k g, ls, fs, m, w⟩ [] =
        if st.satisfied cfg.forOne then .back st .found [] [] else st.endBetween cfg.forOne [] := by
      rw [@run_nil _ cfg.forOne _ he]
      cases hk <;> simp only [State.close, hsettle]
    rw [hclose, hsat]
    by_cases hforms : st.forms = []
    · refine .inl ⟨hforms, ?_⟩
      rw [hforms, @run_nil _ cfg.forOne _ he, State.close, hmode]
      rfl
    · refine .inr ⟨hforms, ?_⟩
      rw [List.isEmpty_eq_false_iff.2 hforms]
      exact .back hx
  | cons c cs =>
    have hfeed : feed cfg.forOne ⟨k g, ls, fs, m, w⟩ [c] =
        if st.satisfied cfg.forOne then .back st .found else st.take cfg.forOne [c] := by
      simp only [feed, endsAt_gather hk (hr c rfl), ↓reduceIte, hsettle]
    rw [run, hfeed, hsat]
    by_cases hforms : st.forms = []
    · refine .inl ⟨hforms, ?_⟩
      rw [hforms, run, feed_eq_take hmode]
      rfl
    · refine .inr ⟨hforms, ?_⟩
      rw [List.isEmpty_eq_false_iff.2 hforms]
      exact .back hx

omit hg he in
theorem settle_of_evaluates (hv : cfg.Evaluates g.reverse w v w') :
    settle cfg ⟨.token g, ls, fs, m, w⟩ = (put cfg v ⟨.between, ls, fs, m, w'⟩, none) := by
  rcases @State.settle_token _ cfg ls fs m w g with ⟨u, w'', hu, hs⟩ | ⟨f, w'', hs, hf, -⟩
  · obtain ⟨rfl, rfl⟩ := hv.unique hu
    exact hs
  · cases hv with
    | suppressed hs' =>
      rw [hs] at hs'
      cases hs'
    | value _ hv =>
      have hl (p : Problem) : (m.locate cfg.source p).unplaced = p.unplaced := rfl
      rw [Services.interpret_unplaced hl, hf] at hv
      cases hv

omit hg he in
theorem settle_of_characterValue (hv : Assembly.characterValue g.reverse = .ok v) :
    settle cfg ⟨.character g, ls, fs, m, w⟩ = (put cfg v ⟨.between, ls, fs, m, w⟩, none) := by
  obtain ⟨c, hc, rfl⟩ := Assembly.characterValue_eq_ok_iff.1 hv
  simp only [settle, hc, State.put_mode (.character g)]

omit hg he in
/-- What is read of a closed string in front of its second quote. -/
theorem run_string_body (cs : List Char) : ∀ {xs g : List Char} {m : Mark},
    Assembly.unescape (Lexeme.splitString cs).1 = .ok xs → (Lexeme.splitString cs).2.1 = true →
      run cfg ⟨.string g, ls, fs, m, w⟩ cs =
        run cfg ⟨.string (xs.reverse ++ g), ls, fs, m.through (Lexeme.splitString cs).1, w⟩
          ('"' :: (Lexeme.splitString cs).2.2) := by
  fun_induction Lexeme.splitString cs with
  | case1 =>
    intro _ _ _ _ h
    cases h
  | case2 cs =>
    intro xs g m hx _
    obtain rfl := Except.ok.inj hx
    rfl
  | case3 c cs body closed rest h ih =>
    intro xs g m hx hclosed
    rw [h] at ih
    rw [run_on feed_string_backslash]
    cases hc : State.unescape? c with
    | none => simp [Assembly.unescape, hc] at hx
    | some y =>
      cases hu : Assembly.unescape body with
      | error => simp [Assembly.unescape, hc, hu, Except.map] at hx
      | ok ys =>
        obtain rfl : y :: ys = xs := by simpa [Assembly.unescape, hc, hu, Except.map] using hx
        rw [run_on (feed_escape hc), ih hu hclosed]
        simp [Mark.through_cons]
  | case4 c cs h1 h2 body closed rest h ih =>
    intro xs g m hx hclosed
    rw [h] at ih
    have hq : c ≠ '"' := h1
    have hb : c ≠ '\\' := by
      rintro rfl
      cases cs with
      | nil =>
        obtain ⟨-, rfl, -⟩ : body = [] ∧ closed = false ∧ rest = [] := by
          simpa [Lexeme.splitString, eq_comm] using h
        cases hclosed
      | cons d ds => exact h2 d ds rfl rfl
    have hu : Assembly.unescape (c :: body) = (Assembly.unescape body).map (c :: ·) :=
      Assembly.unescape.eq_3 _ _ fun _ _ e => (hb e).elim
    cases hys : Assembly.unescape body with
    | error => simp [hu, hys, Except.map] at hx
    | ok ys =>
      obtain rfl : c :: ys = xs := by simpa [hu, hys, Except.map] using hx
      rw [run_on (feed_string hq hb), ih hys hclosed]
      simp [Mark.through_cons]

/-- What a lexeme that is read does to a reading for the next form. -/
theorem Reads.run_forOne (h : Reads cfg st x st') (hforms : st.forms = [])
    (hfirst : Lexeme.first c cs = (x, rest)) :
    GoesOnOrFinds cfg st' x rest (run cfg.forOne st (c :: cs)) := by
  have hon {c : Char} {st₁ st₂ : State W} (hmode : st₁.mode = .between) (h : st₁.forms = [])
      (hfeed : st₁.feed cfg [c] = .on st₂) (h' : st₂.forms = []) (cs : List Char) :
      run cfg.forOne st₁ (c :: cs) = run cfg.forOne st₂ cs :=
    run_on (feed_forOne_on hg hmode h hfeed h')
  rcases Lexeme.first_cases c with hc | rfl | rfl | rfl | rfl | rfl | hc
  · simp only [Lexeme.first, hc, ↓reduceIte, Prod.mk.injEq] at hfirst
    obtain ⟨rfl, rfl⟩ := hfirst
    cases h with
    | blank => exact .inl ⟨hforms, run_on (feed_blank hc)⟩
    | literal hx => cases hx
  · obtain ⟨rfl, rfl⟩ := Prod.mk.inj hfirst
    cases h with
    | @comment ls fs m w body hends =>
      refine .inl ⟨hforms, ?_⟩
      rw [hon rfl hforms (feed_semicolon hg) hforms]
      rcases @run_comment _ cfg.forOne ls fs w he cs (m.next [';']) with ⟨-, h⟩ | ⟨hends', -⟩
      · exact h
      · rw [hends] at hends'
        cases hends'
    | literal hx => cases hx
  · obtain ⟨rfl, rfl⟩ := Prod.mk.inj hfirst
    cases h with
    | opening => exact .inl ⟨hforms, hon rfl hforms (feed_opening hg) hforms _⟩
    | literal hx => cases hx
  · obtain ⟨rfl, rfl⟩ := Prod.mk.inj hfirst
    cases h with
    | closing => exact run_proceed rfl (feed_closing_forOne hg _)
    | literal hx => cases hx
  · obtain ⟨rfl, rfl⟩ := Prod.mk.inj hfirst
    cases h with
    | @literal ls fs m w x v hx =>
      rw [hon rfl hforms (feed_quote hg) hforms]
      obtain ⟨hclosed, xs, hu, rfl⟩ := Assembly.stringValue_eq_ok_iff.1 (Option.some.inj hx)
      have hfeed := @feed_string_quote_forOne _ cfg ls fs
        ((m.next ['"']).through (Lexeme.splitString cs).1) w xs.reverse hg
      rw [run_string_body cs hu hclosed, List.append_nil, hclosed]
      rw [← Mark.through_concat, List.reverse_reverse] at hfeed
      exact run_proceed rfl hfeed
  · cases cs with
    | nil =>
      obtain ⟨rfl, rfl⟩ := Prod.mk.inj hfirst
      cases h with
      | literal hx => cases hx
    | cons d ds =>
      obtain ⟨rfl, rfl⟩ := Prod.mk.inj hfirst
      cases h with
      | @literal ls fs m w x v hx =>
        rw [hon rfl hforms (feed_backslash hg) hforms, run_on feed_character_first,
          run_gather .character ds [d]]
        refine run_settle_forOne hg he rfl .character (Lexeme.stopsToken_dropWhile ds) ?_
        exact settle_of_characterValue (by simpa using Option.some.inj hx)
  · rw [Lexeme.first_ordinary hc] at hfirst
    obtain ⟨rfl, rfl⟩ := Prod.mk.inj hfirst
    cases h with
    | literal hx => cases hx
    | @token ls fs m w cs' v w' hv =>
      rw [hon rfl hforms (feed_ordinary hg hc) hforms, run_gather .token cs [c]]
      refine run_settle_forOne hg he rfl .token (Lexeme.stopsToken_dropWhile cs) ?_
      exact settle_of_evaluates (by simpa using hv)

/-! ### Whole readings for the next form -/

omit hg he in
theorem stop_endBetween_ne_found (cfg : Settings W) (st : State W) (rest : List Char) :
    (st.endBetween cfg rest).stop ≠ .found := by
  intro h
  simp only [State.endBetween, Outcome.past] at h
  split_ifs at h

omit he in
theorem forms_close_of_found (rest : List Char)
    (h : (st.close cfg.forOne rest).stop = .found) : (st.close cfg rest).state.forms ≠ [] := by
  have hend := stop_endBetween_ne_found cfg.forOne
  obtain ⟨mode, ls, fs, m, w⟩ := st
  have settled {k : List Char → Mode} (hk : Gathers k) (g : List Char)
      (h : (State.close cfg.forOne ⟨k g, ls, fs, m, w⟩ rest).stop = .found) :
      (State.close cfg ⟨k g, ls, fs, m, w⟩ rest).state.forms ≠ [] := by
    rw [close_gather hg hk]
    rcases hs : settle cfg ⟨k g, ls, fs, m, w⟩ with ⟨st', _ | f⟩
    · have hclose : State.close cfg.forOne ⟨k g, ls, fs, m, w⟩ rest =
          if st'.satisfied cfg.forOne then .back st' .found [] rest
          else st'.endBetween cfg.forOne rest := by
        cases hk <;> simp only [State.close, State.settle_forOne hg, hs]
      rw [hclose] at h
      split at h
      next hsat =>
        show st'.forms ≠ []
        simpa [State.satisfied] using hsat
      · exact absurd h (hend _ _)
    · cases hk <;> simp only [State.close, State.settle_forOne hg, hs] at h <;> cases h
  cases mode with
  | between | comment => exact absurd h (hend _ _)
  | string | escape | backslash => cases h
  | token g => exact settled .token g h
  | character g => exact settled .character g h

/-- Where a reading for the next form has found one, a reading for all forms has one too. -/
theorem forms_of_found (cs : List Char) : ∀ st : State W, st.forms = [] →
    (run cfg.forOne st cs).stop = .found → (run cfg st cs).state.forms ≠ [] := by
  induction cs with
  | nil =>
    intro st _ h
    rw [@run_nil _ cfg.forOne st he] at h
    rw [run_nil st he]
    exact forms_close_of_found hg [] h
  | cons c cs ih =>
    intro st hforms h
    -- forms that are there already stay
    have hstay {st' : State W} (hmode : st'.mode = .between) (hne : st'.forms ≠ [])
        (ds : List Char) : (run cfg st' ds).state.forms ≠ [] := by
      have hlen := length_forms_run hg he ds st' hmode
      rw [← List.length_pos_iff] at hne ⊢
      omega
    rw [run] at h
    rcases @State.feed_forOne _ cfg st hg hforms [c] with hfeed | ⟨st', hs, hne, hback, htake⟩
    · have hfails := fails_feed hg st c
      cases hf : st.feed cfg [c] with
      | on st₁ =>
        rw [hf] at hfeed
        rw [run_on hf]
        generalize st.feed cfg.forOne [c] = s at h hfeed
        cases hfeed with
        | same h' => exact ih st₁ (h' st₁ rfl) h
        | past hmode hne => exact hstay hmode hne cs
      | past st₁ stop before =>
        rw [hf] at hfeed hfails
        generalize st.feed cfg.forOne [c] = s at h hfeed
        cases hfeed
        obtain ⟨f, rfl, -⟩ := hfails
        cases h
      | back st₁ stop =>
        rw [hf] at hfeed hfails
        generalize st.feed cfg.forOne [c] = s at h hfeed
        cases hfeed
        obtain ⟨f, rfl, -⟩ := hfails
        cases h
    · have hmode : st'.mode = .between := by
        obtain ⟨mode, ls, fs, m, w⟩ := st
        cases mode with
        | token g => exact mode_settle .token hs
        | character g => exact mode_settle .character hs
        | _ =>
          obtain rfl := (Prod.mk.inj hs).1
          exact absurd hforms hne
      have hrun : run cfg st (c :: cs) = run cfg st' (c :: cs) := by
        rw [run, run, htake, feed_eq_take hmode]
      rw [hrun]
      exact hstay hmode hne (c :: cs)

omit hg he in
theorem State.ReadsAll.forms_eq_nil (h : ReadsAll cfg st xs st') (h' : st'.forms = []) :
    st.forms = [] := by
  induction h with
  | nil => exact h'
  | cons hx _ ih =>
    have hlen := hx.length_forms
    rw [ih h'] at hlen
    exact List.eq_nil_of_length_eq_zero (Nat.le_zero.1 hlen)

/-- The form that ends with the lexeme `x` is found there, whatever follows. -/
theorem State.ReadsAll.found (h : ReadsAll cfg st xs st') (hmode : st.mode = .between)
    (hforms : st'.forms = []) (hx : Reads cfg st' x st'') (hne : st''.forms ≠ []) :
    ∀ {cs : List Char}, Lexeme.cut cs = xs ++ x :: Lexeme.cut rest →
      (LispForms.run cfg.forOne st cs).Found st'' x rest := by
  induction h with
  | nil =>
    intro cs hcut
    cases cs with
    | nil => simp at hcut
    | cons c cs =>
      rw [Lexeme.cut_cons] at hcut
      obtain ⟨hfirst, hrest⟩ := List.cons.inj hcut
      rcases Reads.run_forOne hg he hx hforms (Prod.ext hfirst (Lexeme.cut_injective hrest)) with
        ⟨hnil, -⟩ | ⟨-, hfound⟩
      · exact absurd hnil hne
      · exact hfound
  | @cons st st₁ st₂ y ys hy hall ih =>
    intro cs hcut
    cases cs with
    | nil => simp at hcut
    | cons c cs =>
      rw [Lexeme.cut_cons, List.cons_append] at hcut
      obtain ⟨hfirst, hrest⟩ := List.cons.inj hcut
      have hst : st.forms = [] := (ReadsAll.cons hy hall).forms_eq_nil hforms
      rcases Reads.run_forOne hg he hy hst (Prod.ext hfirst rfl) with ⟨-, hrun⟩ | ⟨hne', -⟩
      · rw [hrun]
        exact ih hy.mode hforms hx hrest
      · exact absurd (hall.forms_eq_nil hforms) hne'

/-- A reading that has found a form has read the lexemes up to one that completes it. -/
theorem exists_found (cs : List Char) : ∀ st : State W, st.mode = .between → st.forms = [] →
    (run cfg.forOne st cs).stop = .found → ∃ xs x rest st₁ st₂,
      Lexeme.cut cs = xs ++ x :: Lexeme.cut rest ∧ ReadsAll cfg st xs st₁ ∧ st₁.forms = [] ∧
        Reads cfg st₁ x st₂ ∧ st₂.forms ≠ [] ∧ (run cfg.forOne st cs).Found st₂ x rest := by
  fun_induction Lexeme.cut cs with
  | case1 =>
    intro st hmode _ h
    rw [@run_nil _ cfg.forOne st he, State.close, hmode] at h
    exact absurd h (stop_endBetween_ne_found _ _ _)
  | case2 c cs ih =>
    intro st hmode hforms h
    rcases passes_first hg he hmode c cs with ⟨st₁, hx, -⟩ | hhalts
    · rcases Reads.run_forOne hg he hx hforms rfl with ⟨hnil, hrun⟩ | ⟨hne, hfound⟩
      · rw [hrun] at h
        obtain ⟨xs, x, rest, st₂, st₃, hcut, hall, hst₂, hread, hne, hfound⟩ :=
          ih st₁ hx.mode hnil h
        refine ⟨_ :: xs, x, rest, st₂, st₃, ?_, .cons hx hall, hst₂, hread, hne, ?_⟩
        · rw [hcut, List.cons_append]
        · rwa [hrun]
      · exact ⟨[], _, _, st, st₁, rfl, .nil, hforms, hx, hne, hfound⟩
    · have hne := forms_of_found hg he (c :: cs) st hforms h
      rw [hhalts.forms] at hne
      exact absurd hforms hne

end

end LispForms
