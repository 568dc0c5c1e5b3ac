import LispForms.Proofs.FaultPlace
import LispForms.Proofs.FormEnd
import LispForms.Proofs.Joining
import LispForms.Proofs.Pushback

/-! Progress. A form, or the items in front of a closing piece, cost at least one character of the
text, and no call gives back what was taken before it. So the forms of a text can be asked for one
by one until there is none, which is what a reading of the whole text does. -/

namespace LispForms

variable {W : Type} {cfg : Settings W} {sv : Services W} {text : List Char} {c : Context W}

open State (Reads ReadsAll)

/-! ### Runs that take something -/

section Runs

variable {st st' : State W} {cs : List Char} {xs : List Lexeme}

/-- Where a form may begin, no piece is given back. -/
theorem State.beginForm_ne_back (st : State W) (before : Mark) (p : Piece) (stop : Stop) :
    st.beginForm cfg before p ≠ .back st' stop := by
  have hproceed (st : State W) : st.proceed cfg before ≠ .back st' stop := by
    unfold proceed
    split <;> rintro ⟨⟩
  cases p with
  | nil => rintro ⟨⟩
  | cons c more =>
    simp only [beginForm]
    split_ifs
    iterate 7 rintro ⟨⟩
    · cases st.lists with
      | nil => rintro ⟨⟩
      | cons l ls => exact hproceed _
    · rintro ⟨⟩

/-- Between forms, a run takes the next character whatever it is. -/
theorem run_takes (he : cfg.ending = .complete) (hmode : st.mode = .between) (x : Char)
    (cs : List Char) : ∃ taken, cs = taken ++ (run cfg st (x :: cs)).cursor.ahead := by
  cases hf : st.feed cfg [x] with
  | on st' =>
    obtain ⟨taken, hcs, -⟩ := run_follows he cs st'
    exact ⟨taken, by rwa [run_on hf]⟩
  | past st' stop before => exact ⟨[], by rw [run_past hf]; rfl⟩
  | back st' stop =>
    rw [feed_eq_take hmode, State.take, State.advance] at hf
    simp only [hmode] at hf
    exact absurd hf (State.beginForm_ne_back _ _ _ _)

section

variable (hg : cfg.goal = .all) (he : cfg.ending = .complete)

include hg he

/-- A run for all forms that does not fail ends with its text. -/
theorem ahead_of_unfailed (cs : List Char) : ∀ st : State W, (run cfg st cs).fault? = none →
    (run cfg st cs).cursor.ahead = [] := by
  induction cs with
  | nil =>
    intro st _
    rw [run_nil st he]
    exact (ahead_close st).1
  | cons c cs ih =>
    intro st h
    have hfails := fails_feed hg st c
    cases hf : st.feed cfg [c] with
    | on st' =>
      rw [run_on hf] at h ⊢
      exact ih st' h
    | past st' stop before =>
      rw [hf] at hfails
      obtain ⟨f, rfl, -⟩ := hfails
      rw [run_past hf] at h
      cases h
    | back st' stop =>
      rw [hf] at hfails
      obtain ⟨f, rfl, -⟩ := hfails
      rw [run_back hf] at h
      cases h

omit hg he in
/-- Among lexemes that complete forms there is a first one. -/
theorem State.ReadsAll.exists_first (h : ReadsAll cfg st xs st') (hforms : st.forms = [])
    (hne : st'.forms ≠ []) : ∃ ys x zs st₁ st₂, xs = ys ++ x :: zs ∧ ReadsAll cfg st ys st₁ ∧
      st₁.forms = [] ∧ Reads cfg st₁ x st₂ ∧ st₂.forms ≠ [] := by
  induction h with
  | nil => exact absurd hforms hne
  | @cons st st₁ st₂ x xs hx hall ih =>
    by_cases hst₁ : st₁.forms = []
    · obtain ⟨ys, y, zs, st₃, st₄, rfl, hys, hst₃, hy, hne'⟩ := ih hst₁ hne
      exact ⟨x :: ys, y, zs, st₃, st₄, rfl, .cons hx hys, hst₃, hy, hne'⟩
    · exact ⟨[], x, xs, st, st₁, rfl, .nil, hforms, hx, hst₁⟩

/-- Where a reading for the next form has found none, a reading for all forms has none either. -/
theorem forms_of_not_found (hmode : st.mode = .between) (hforms : st.forms = [])
    (h : (run cfg.forOne st cs).stop ≠ .found) : (run cfg st cs).state.forms = [] := by
  obtain ⟨xs, ys, st', rest, hcut, hall, -, hrun⟩ := exists_readsAll_forms hg he cs hmode
  rw [hrun]
  by_contra hne
  obtain ⟨us, x, vs, st₁, st₂, rfl, hus, hst₁, hx, hne₂⟩ := hall.exists_first hforms hne
  have hsplit : Lexeme.cut cs = (us ++ [x]) ++ (vs ++ ys) := by simpa using hcut
  obtain ⟨-, behind, -, -, hbehind⟩ := Lexeme.cut_eq_append hsplit
  have hfirst : Lexeme.cut cs = us ++ x :: Lexeme.cut behind := by simpa [hbehind] using hsplit
  exact h (hus.found hg he hmode hst₁ hx hne₂ hfirst).stop

omit hg he in
theorem Outcome.Found.mark {o : Outcome W} {x : Lexeme} {rest : List Char}
    (h : o.Found st x rest) : o.cursor.mark = st.mark := by
  cases h <;> rfl

/-- A reading for all forms begins with the one that a reading for the next form finds, and goes on
from where that reading stops. -/
theorem run_of_found (hmode : st.mode = .between) (hforms : st.forms = [])
    (h : (run cfg.forOne st cs).stop = .found) :
    let one := run cfg.forOne st cs
    let more := run cfg (.initial one.cursor.mark one.state.world) one.cursor.ahead
    ∃ v, one.forms.head? = some v ∧ cs ≠ [] ∧ (run cfg st cs).forms = v :: more.forms ∧
      (run cfg st cs).stop = more.stop ∧ (run cfg st cs).state.world = more.state.world := by
  intro one more
  obtain ⟨xs, x, rest, st₁, st₂, hcut, hall, hst₁, hx, hne, hfound⟩ :=
    exists_found hg he cs st hmode hforms h
  obtain ⟨hlists, v, hv⟩ := hx.lists_eq_nil hst₁ hne
  have hcs : cs ≠ [] := by
    rintro rfl
    simp at hcut
  -- behind the form, a reading for all forms carries it along
  have hsplit : Lexeme.cut cs = (xs ++ [x]) ++ Lexeme.cut rest := by simpa using hcut
  obtain ⟨rest', hrest, -, hrun⟩ := (hall.append (.single hx)).run hg he hmode hsplit
  obtain rfl : rest' = rest := Lexeme.cut_injective hrest
  have hmore : more = run cfg (.initial st₂.mark st₂.world) rest' := by
    show run cfg (.initial one.cursor.mark one.state.world) one.cursor.ahead = _
    rw [hfound.mark, hfound.state, hfound.ahead]
  have hcarries : State.Carries Eq [v] st₂ (.initial st₂.mark st₂.world) := by
    have hmode₂ := hx.mode
    obtain ⟨mode, ls, fs, m, w⟩ := st₂
    obtain rfl : mode = .between := hmode₂
    obtain rfl : ls = [] := hlists
    obtain rfl : fs = [v] := hv
    exact @State.Carries.mk _ Eq [v] _ _ [] _ _ _ rfl
  obtain ⟨hstate, hstop⟩ := hcarries.run hg he cfg.services.respects_eq rest'
  rw [← hmore, ← hrun] at hstate hstop
  refine ⟨v, ?_, hcs, ?_, hstop, hstate.world.symm⟩
  · rw [Outcome.forms, hfound.state, hv]
    rfl
  · rw [Outcome.forms, hstate.forms, List.reverse_append]
    rfl

end

end Runs

/-! ### Contexts over a text -/

namespace Context

/-- What is ahead of the context is the rest of the text, and what is pending in it is a character
of the text or its end. -/
structure Over (text : List Char) (c : Context W) : Prop where
  suffix : c.cursor.ahead <:+ text
  pending : ∀ p, c.cursor.slot = .pushed p → (∃ x, p = [x]) ∨ p = [] ∧ c.cursor.rest = []

/-- From `c` to `c'` nothing was given back, and the next character was taken if there was one. -/
def Advances (c c' : Context W) : Prop :=
  ∃ taken, c.cursor.ahead = taken ++ c'.cursor.ahead ∧ (c.cursor.ahead ≠ [] → taken ≠ [])

namespace Over

/-- Wherever reading form by form comes to in a text, it is over it. -/
theorem of_reached {line col : Option Int} (h : c.Reached sv text line col) : c.Over text := by
  obtain ⟨before, htext, hfollows⟩ := h.follows
  exact ⟨⟨before, htext.symm⟩, hfollows.pending⟩

variable (h : c.Over text)

include h

theorem follows : c.cursor.Follows c.cursor.mark [] := ⟨fun _ => rfl, h.pending⟩

theorem runFrom_eq (goal : Goal) (endIsError : Bool) :
    runFrom (c.settings sv goal endIsError) c.cursor c.world =
      run (c.settings sv goal endIsError) (.initial c.cursor.mark c.world) c.cursor.ahead :=
  runFrom_eq_run rfl h.follows c.world

/-- A run from a context leaves one over the same text. -/
theorem after_runFrom (goal : Goal) (endIsError : Bool) :
    let c' := c.after (runFrom (c.settings sv goal endIsError) c.cursor c.world)
    c'.Over text ∧ c.Advances c' := by
  intro c'
  obtain ⟨taken, hahead, -, hpending⟩ :=
    @Cursor.Follows.runFrom _ (c.settings sv goal endIsError) _ rfl _ _ h.follows c.world
  have hsuffix : c'.cursor.ahead <:+ c.cursor.ahead := ⟨taken, hahead.symm⟩
  refine ⟨⟨hsuffix.trans h.suffix, hpending⟩, ?_⟩
  have hrun : c'.cursor = _ := congrArg Outcome.cursor (h.runFrom_eq goal endIsError)
  cases hc : c.cursor.ahead with
  | nil => exact ⟨taken, hc ▸ hahead, fun hne => absurd hc hne⟩
  | cons x cs =>
    rw [hc] at hrun
    obtain ⟨taken, hcs⟩ := @run_takes _ (c.settings sv goal endIsError)
      (.initial c.cursor.mark c.world) rfl rfl x cs
    refine ⟨x :: taken, ?_, fun _ => List.cons_ne_nil _ _⟩
    rw [hc, hrun, List.cons_append, ← hcs]

/-- What the next form has to do with a run for all forms: the run begins with that form and goes on
from where it was found, or it has no form and ends in the same way. -/
theorem next_cases (sv : Services W) (endIsError : Bool) :
    let r := c.next sv endIsError
    let all (c : Context W) :=
      run (c.settings sv .all endIsError) (.initial c.cursor.mark c.world) c.cursor.ahead
    (∃ v, r.1 = .ok (some v) ∧ c.cursor.ahead ≠ [] ∧ (all c).forms = v :: (all r.2).forms ∧
      (all c).stop = (all r.2).stop ∧ (all c).state.world = (all r.2).state.world) ∨
    (all c).forms = [] ∧
      r = ((match (all c).fault? with
        | some f => .error f
        | none => .ok none), c.after (all c)) := by
  intro r all
  let cfg := c.settings sv .all endIsError
  let st := State.initial c.cursor.mark c.world
  have hrun : runFrom (c.settings sv .one endIsError) c.cursor c.world =
      run cfg.forOne st c.cursor.ahead := h.runFrom_eq .one endIsError
  by_cases hstop : (run cfg.forOne st c.cursor.ahead).stop = .found
  · left
    obtain ⟨v, hhead, hne, hmore⟩ := run_of_found rfl rfl rfl rfl hstop
    have hr : r = (.ok (some v), c.after (run cfg.forOne st c.cursor.ahead)) := by
      simp only [r, Context.next, hrun, hstop, hhead]
    rw [hr]
    exact ⟨v, rfl, hne, hmore⟩
  · right
    have hone := (run_forOne rfl rfl c.cursor.ahead st rfl).resolve_left hstop
    have hforms : (all c).state.forms = [] := forms_of_not_found rfl rfl rfl rfl hstop
    rw [hone] at hstop
    refine ⟨congrArg List.reverse hforms, ?_⟩
    have hall : runFrom (c.settings sv .one endIsError) c.cursor c.world = all c := hrun.trans hone
    simp only [r, Context.next, hall]
    unfold Outcome.fault?
    cases hend : (all c).stop with
    | found => exact absurd hend hstop
    | ended | failed f => rfl

/-- Asked for the next form, a context fails, or it has come to the end of its text, or it has taken
a character at least. -/
theorem next_advances (sv : Services W) (endIsError : Bool) :
    let r := c.next sv endIsError
    r.2.Over text ∧ ∃ taken, c.cursor.ahead = taken ++ r.2.cursor.ahead ∧
      match r.1 with
      | .ok none => r.2.cursor.ahead = []
      | .ok (some _) => taken ≠ []
      | .error _ => True := by
  intro r
  obtain ⟨hover, taken, hahead, htaken⟩ := @after_runFrom _ sv _ _ h .one endIsError
  refine ⟨hover, taken, hahead, ?_⟩
  rcases h.next_cases sv endIsError with ⟨v, hv, hne, -⟩ | ⟨-, hr⟩
  · rw [hv]
    exact htaken hne
  · have hcursor : r.2.cursor = _ := congrArg (·.2.cursor) hr
    have hanswer : r.1 = _ := congrArg Prod.fst hr
    rw [hanswer]
    cases hfault : (run (c.settings sv .all endIsError) (.initial c.cursor.mark c.world)
      c.cursor.ahead).fault? with
    | some f => trivial
    | none =>
      show r.2.cursor.ahead = []
      rw [hcursor]
      exact ahead_of_unfailed rfl rfl _ _ hfault

theorem items_advances (sv : Services W) (close : Piece) :
    let r := c.items sv close
    r.2.Over text ∧ ∃ taken, c.cursor.ahead = taken ++ r.2.cursor.ahead ∧
      match r.1 with
      | .ok _ => taken ≠ []
      | .error _ => True := by
  intro r
  obtain ⟨hover, taken, hahead, htaken⟩ := @after_runFrom _ sv _ _ h (.upTo close) false
  refine ⟨hover, taken, hahead, ?_⟩
  cases hr : r.1 with
  | error f => trivial
  | ok vs =>
    refine htaken fun hnil => ?_
    have hrun := @runFrom_eq _ sv _ _ h (.upTo close) false
    rw [hnil, run_nil _ rfl] at hrun
    simp only [r, Context.items, hrun] at hr
    cases hr

end Over

/-! ### All forms, one by one -/

/-- The forms that come from asking for the next one until there is none or a fault, the fault, and
what is left of the context; none if that takes more turns than it is given. -/
def nextAll (sv : Services W) (endIsError : Bool) :
    ℕ → Context W → Option (List Form × Option Fault × Context W)
  | 0, _ => none
  | n + 1, c =>
    match c.next sv endIsError with
    | (.ok none, c') => some ([], none, c')
    | (.ok (some v), c') => (nextAll sv endIsError n c').map fun (vs, r) => (v :: vs, r)
    | (.error f, c') => some ([], some f, c')

/-- One by one, the forms ahead are those of a reading for all of them, and no more than there are
characters. -/
theorem nextAll_spec (sv : Services W) (endIsError : Bool) (n : ℕ) :
    ∀ c : Context W, c.Over text → c.cursor.ahead.length < n →
      let o := run (c.settings sv .all endIsError) (.initial c.cursor.mark c.world) c.cursor.ahead
      ∃ c', c.nextAll sv endIsError n = some (o.forms, o.fault?, c') ∧ c'.Over text ∧
        c'.world = o.state.world ∧ o.forms.length ≤ c.cursor.ahead.length ∧
        (o.fault? = none → c'.cursor.ahead = []) := by
  induction n with
  | zero => exact fun c _ hlen => absurd hlen (Nat.not_lt_zero _)
  | succ n ih =>
    intro c h hlen o
    obtain ⟨hover, taken, hahead, hr⟩ := h.next_advances sv endIsError
    rcases h.next_cases sv endIsError with ⟨v, hv, -, hforms, hstop, hworld⟩ | ⟨hforms, hnext⟩
    · have hnext : c.next sv endIsError = (.ok (some v), (c.next sv endIsError).2) :=
        Prod.ext hv rfl
      have htaken : taken ≠ [] := by simpa only [hv] using hr
      have hless : (c.next sv endIsError).2.cursor.ahead.length < c.cursor.ahead.length := by
        have hpos := List.length_pos_iff.2 htaken
        rw [hahead, List.length_append]
        omega
      obtain ⟨c', hall, hover', hworld', hlen', hend⟩ := ih _ hover (by omega)
      have hfault := Outcome.fault?_congr hstop
      refine ⟨c', ?_, hover', hworld'.trans hworld.symm, ?_, fun h => hend (hfault.symm.trans h)⟩
      · rw [nextAll, hnext]
        simp only [hall, Option.map_some, o, hforms, hfault]
      · simp only [o, hforms, List.length_cons]
        omega
    · have hc : (c.next sv endIsError).2 = c.after o := congrArg Prod.snd hnext
      refine ⟨c.after o, ?_, hc ▸ hover, rfl, ?_, ahead_of_unfailed rfl rfl _ _⟩
      · rw [nextAll, hnext]
        simp only [o, hforms]
        cases o.fault? <;> rfl
      · simp [o, hforms]

/-! ### Every call ends -/

/-- The context in the hand of someone who is about to read on in it. -/
def hand (c : Context W) : Hand c.cursor W := ⟨[], c.cursor, rfl, c.suppressions, c.world⟩

/-- Done by hand, with its loops and its calls for lists in lists, a call for the next form ends. So
does one for items. -/
theorem next_ends (sv : Services W) (endIsError : Bool) (c : Context W) :
    ∃ h, Routine.next sv endIsError (c.cursor.ahead.length + 2) c.hand =
      some ((c.next sv endIsError).1, h) ∧ h.context = (c.next sv endIsError).2 := by
  obtain ⟨r, h, hends, hcontext, -⟩ := Routine.next_context sv endIsError c.hand
  have hnext : c.next sv endIsError = (r, h.context) := hcontext
  exact ⟨h, by rw [hnext]; exact hends, by rw [hnext]⟩

theorem items_ends (sv : Services W) (close : Piece) (c : Context W) :
    ∃ h, Routine.itemsFrom sv close (c.cursor.ahead.length + 2) [] c.hand =
      some ((c.items sv close).1, h) ∧ h.context = (c.items sv close).2 := by
  obtain ⟨r, h, hends, hcontext, -⟩ := Routine.items_context sv close c.hand
  have hitems : c.items sv close = (r, h.context) := hcontext
  exact ⟨h, by rw [hitems]; exact hends, by rw [hitems]⟩

/-- A piece that is read is a character or the end. -/
theorem Over.piece (h : c.Over text) :
    (∃ x, c.read.1 = [x]) ∨ c.read.1 = [] ∧ c.cursor.read.2.rest = [] := by
  have hpending := h.pending
  show (∃ x, c.cursor.read.1 = [x]) ∨ c.cursor.read.1 = [] ∧ _
  revert hpending
  obtain ⟨rest, m, slot⟩ := c.cursor
  cases slot with
  | pushed p => exact fun hpending => hpending p rfl
  | fresh | taken =>
    intro _
    cases rest with
    | nil => exact .inr ⟨rfl, rfl⟩
    | cons x xs => exact .inl ⟨x, rfl⟩

/-- A context is over the text behind a piece that is read, and when the piece is pushed back. -/
theorem Over.read (h : c.Over text) :
    c.read.2.Over text ∧ (c.read.2.unread c.read.1).2.Over text := by
  constructor
  · refine ⟨List.IsSuffix.trans ⟨c.cursor.read.1, ?_⟩ h.suffix, fun p hp => ?_⟩
    · show c.cursor.read.1 ++ c.cursor.read.2.ahead = _
      rw [c.cursor.ahead_eq_rest, ← c.cursor.ahead_read]
    · have hslot : c.cursor.read.2.slot = .taken c.cursor.mark :=
        congrArg (·.2.slot) c.cursor.read_eq
      cases hslot.symm.trans hp
  · have hheld : (c.read.2.unread c.read.1).2.cursor = c.cursor.held := by
      have hunread : c.read.2.cursor.unread c.read.1 = some c.cursor.held := c.cursor.unread_held
      rw [Context.unread, hunread]
    refine ⟨?_, fun p hp => ?_⟩
    · rw [hheld, Cursor.ahead_held]
      exact h.suffix
    · rw [hheld] at hp ⊢
      obtain rfl := Slot.pushed.inj hp
      exact h.piece

/-- From wherever a text stands, each call for the next form or for items ends: with a fault, or at
the end of the text, or behind one more character at least, and never in front of what had been
taken. A text of `n` characters has at most `n` forms, which come from asking for the next one again
and again until there is none; if no fault comes, nothing of the text is left. -/
theorem progress (sv : Services W) (text : String) :
    (∀ line col, ∀ c : Context W, c.Reached sv text.toList line col → c.Over text.toList) ∧
    (∀ c : Context W, c.Over text.toList →
      c.read.2.Over text.toList ∧ (c.read.2.unread c.read.1).2.Over text.toList ∧
      (∀ endIsError, let r := c.next sv endIsError
        (∃ h, Routine.next sv endIsError (c.cursor.ahead.length + 2) c.hand = some (r.1, h) ∧
          h.context = r.2) ∧
        r.2.Over text.toList ∧ ∃ taken, c.cursor.ahead = taken ++ r.2.cursor.ahead ∧
          match r.1 with
          | .ok none => r.2.cursor.ahead = []
          | .ok (some _) => taken ≠ []
          | .error _ => True) ∧
      (∀ close, let r := c.items sv close
        (∃ h, Routine.itemsFrom sv close (c.cursor.ahead.length + 2) [] c.hand = some (r.1, h) ∧
          h.context = r.2) ∧
        r.2.Over text.toList ∧ ∃ taken, c.cursor.ahead = taken ++ r.2.cursor.ahead ∧
          match r.1 with
          | .ok _ => taken ≠ []
          | .error _ => True) ∧
      ∀ endIsError, ∃ vs fault c',
        c.nextAll sv endIsError (c.cursor.ahead.length + 1) = some (vs, fault, c') ∧
        vs.length ≤ c.cursor.ahead.length ∧ c'.Over text.toList ∧
        (fault = none → c'.cursor.ahead = [])) ∧
    ∀ opts w, ∃ vs fault c',
      (suppress (.ofText text.toList opts.line opts.col
        (sv.note (Source.ofString text).opening w)) opts.suppress).nextAll sv opts.endIsError
          (text.toList.length + 1) = some (vs, fault, c') ∧
      LispForms.read sv opts (.ofString text) w = ⟨vs, fault, c'.world⟩ ∧
      vs.length ≤ text.toList.length ∧ (fault = none → c'.cursor.ahead = []) := by
  refine ⟨fun line col c hc => .of_reached hc, fun c hc => ?_, fun opts w => ?_⟩
  · refine ⟨hc.read.1, hc.read.2,
      fun endIsError => ⟨c.next_ends sv endIsError, hc.next_advances sv endIsError⟩,
      fun close => ⟨c.items_ends sv close, hc.items_advances sv close⟩, fun endIsError => ?_⟩
    obtain ⟨c', hall, hover, -, hlen, hend⟩ :=
      nextAll_spec sv endIsError _ c hc (Nat.lt_succ_self _)
    exact ⟨_, _, c', hall, hlen, hover, hend⟩
  · let c := suppress (.ofText text.toList opts.line opts.col
      (sv.note (Source.ofString text).opening w)) opts.suppress
    have hreached : c.Reached sv text.toList opts.line opts.col := .suppress _ (.ofText _)
    have hc : c.Over text.toList := .of_reached hreached
    obtain ⟨c', hall, -, hworld, hlen, hend⟩ :=
      nextAll_spec sv opts.endIsError _ c hc (Nat.lt_succ_self _)
    have hsettings : c.settings sv .all opts.endIsError =
        ⟨sv, .all, opts.suppress, opts.endIsError, none, .complete⟩ := by
      have hsuppressing : c.suppressing = opts.suppress := by
        show (some opts.suppress == some true) = opts.suppress
        cases opts.suppress <;> rfl
      rw [Context.settings, hsuppressing]
    refine ⟨_, _, c', hall, ?_, hlen, hend⟩
    rw [hworld, hsettings]
    exact read_ofString sv opts text w

/-- Behind a token, with a piece pending and lists ahead that are not closed. -/
theorem progress_pending :
    let sv := Services.standard .standard
    let text := "a(b ; c)\n (\"d\""
    let c := ((ofText text.toList none none Store.empty).next sv false).2
    c.Over text.toList ∧ c.cursor.slot = .pushed ['('] ∧
      (∃ h, Routine.next sv false 15 c.hand = some ((c.next sv false).1, h)) ∧
      ∃ vs fault c', c.nextAll sv false 14 = some (vs, fault, c') ∧ vs.length ≤ 13 := by
  intro sv text c
  obtain ⟨hover, hcalls, -⟩ := progress sv text
  have hc : c.Over text.toList := hover none none c (.next false (.ofText Store.empty))
  obtain ⟨-, -, hnext, -, hall⟩ := hcalls c hc
  obtain ⟨⟨h, hends, -⟩, -⟩ := hnext false
  obtain ⟨vs, fault, c', hvs, hlen, -⟩ := hall false
  have hahead : c.cursor.ahead.length = 13 := by decide +kernel
  rw [hahead] at hends hvs hlen
  exact ⟨hc, by decide +kernel, ⟨h, hends⟩, vs, fault, c', hvs, hlen⟩

end Context

end LispForms
