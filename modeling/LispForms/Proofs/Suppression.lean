import LispForms.Proofs.Passage

/-! Readings that are asked for no values. Such a reading goes over the same lexemes as one that is,
list by list and form by form, and only nil comes of it. It parts from the other one where a token
has no value, which is the one fault that it does not see. -/

namespace LispForms

variable {W : Type} {cfg : Settings W}

/-- The settings of the same reading without values. -/
abbrev Settings.quiet (cfg : Settings W) : Settings W := { cfg with suppress := true }

namespace State

/-! ### Two runs side by side -/

/-- The two states are in as many lists and behind as many forms, at the same place. -/
structure Abreast (st q : State W) : Prop where
  mode : q.mode = st.mode
  mark : q.mark = st.mark
  lists : q.lists.length = st.lists.length
  forms : q.forms.length = st.forms.length

variable {st st' q q' : State W} {ls ls' : List OpenList} {fs fs' : List Form} {m : Mark} {w w' : W}
  {x : Lexeme} {rest : List Char} {o o' : Outcome W}

theorem abreast_put {cfg' : Settings W} (hlists : ls'.length = ls.length)
    (hforms : fs'.length = fs.length) (u v : Form) :
    Abreast (put cfg u ⟨.between, ls, fs, m, w⟩) (put cfg' v ⟨.between, ls', fs', m, w'⟩) := by
  cases ls with
  | nil =>
    obtain rfl : ls' = [] := List.length_eq_zero_iff.1 hlists
    exact ⟨rfl, rfl, rfl, congrArg Nat.succ hforms⟩
  | cons l ls =>
    cases ls' with
    | nil => cases hlists
    | cons l' ls' => exact ⟨rfl, rfl, hlists, hforms⟩

/-- Where a lexeme is read, it is read without its value too. -/
theorem Reads.abreast (h : Reads cfg st x st') (ha : st.Abreast q) :
    ∃ q', Reads cfg.quiet q x q' ∧ st'.Abreast q' := by
  obtain ⟨mode, ls', fs', m', w'⟩ := q
  obtain ⟨hmode, hmark, hlists, hforms⟩ := ha
  cases h with
  | blank =>
    cases hmode
    cases hmark
    exact ⟨_, .blank, rfl, rfl, hlists, hforms⟩
  | comment hends =>
    cases hmode
    cases hmark
    exact ⟨_, .comment hends, rfl, rfl, hlists, hforms⟩
  | opening =>
    cases hmode
    cases hmark
    exact ⟨_, .opening, rfl, rfl, congrArg Nat.succ hlists, hforms⟩
  | closing =>
    cases hmode
    cases hmark
    cases ls' with
    | nil => cases hlists
    | cons l' ls' => exact ⟨_, .closing, abreast_put (Nat.succ.inj hlists) hforms _ _⟩
  | literal hx =>
    cases hmode
    cases hmark
    exact ⟨_, .literal hx, abreast_put hlists hforms _ _⟩
  | token =>
    cases hmode
    cases hmark
    exact ⟨_, .token (.suppressed rfl), abreast_put hlists hforms _ _⟩

theorem Abreast.stop_endBetween (h : st.Abreast q) (rest rest' : List Char) :
    (q.endBetween cfg.quiet rest).stop = (st.endBetween cfg rest').stop := by
  have hempty : q.lists.isEmpty = st.lists.isEmpty := by
    rw [Bool.eq_iff_iff, List.isEmpty_iff_length_eq_zero, List.isEmpty_iff_length_eq_zero, h.lists]
  simp only [endBetween, Outcome.past, advance, State.locate, h.mark, hempty]

/-- Where both runs end at a lexeme, they end in the same way. -/
theorem Halts.stop_eq (h : Halts cfg st x rest o) (h' : Halts cfg.quiet q x rest o')
    (ha : st.Abreast q) : o'.stop = o.stop := by
  obtain ⟨hmode, hmark, hlists, hforms⟩ := ha
  cases h with
  | comment =>
    cases h' with
    | comment =>
      cases hmark
      apply Abreast.stop_endBetween
      exact ⟨rfl, rfl, hlists, hforms⟩
    | literal hx => cases hx
  | unmatched h =>
    cases h' with
    | unmatched h' =>
      cases hmark
      rw [h.stop, h'.stop]
    | literal hx => cases hx
  | literal hx h =>
    cases h' with
    | literal hx' h' =>
      cases hmark
      obtain rfl := Except.error.inj (Option.some.inj (hx.symm.trans hx'))
      rw [h.stop, h'.stop]
    | _ => cases hx
  | token =>
    cases h' with
    | literal hx => cases hx
    | token hs => cases hs

theorem Halts.isStructural_eq_false {cs : List Char} (h : Halts cfg st (.token cs) rest o) :
    ∃ f, o.stop = .failed f ∧ f.isStructural = false := by
  cases h with
  | literal hx => cases hx
  | token _ hi h => exact ⟨_, h.stop, (Services.fails_of_interpret hi).isStructural fun _ => rfl⟩

theorem length_forms_put (v : Form) :
    fs.length ≤ (put cfg v ⟨.between, ls, fs, m, w⟩).forms.length := by
  cases ls with
  | nil => exact Nat.le_succ _
  | cons l ls => exact le_refl _

theorem Reads.length_forms (h : Reads cfg st x st') : st.forms.length ≤ st'.forms.length := by
  cases h with
  | blank | comment | opening => exact le_refl _
  | closing | literal | token => exact length_forms_put _

/-! ### Runs without values -/

/-- Nothing but nil has come of the text, and nothing has been asked of the world. -/
structure Idle (w : W) (st : State W) : Prop where
  world : st.world = w
  forms : ∀ v ∈ st.forms, v = .nil

theorem idle_put (hg : cfg.goal = .all) (hforms : ∀ u ∈ fs, u = .nil) (v : Form) :
    Idle w (put cfg.quiet v ⟨.between, ls, fs, m, w⟩) := by
  cases ls with
  | nil =>
    refine ⟨rfl, fun u hu => ?_⟩
    simp only [put, hg, ↓reduceIte, List.mem_cons] at hu
    rcases hu with rfl | hu
    · rfl
    · exact hforms u hu
  | cons l ls => exact ⟨rfl, hforms⟩

theorem Reads.idle (hg : cfg.goal = .all) (h : Reads cfg.quiet st x st') (hi : st.Idle w) :
    st'.Idle w := by
  obtain ⟨rfl, hforms⟩ := hi
  cases h with
  | blank | comment | opening => exact ⟨rfl, hforms⟩
  | closing | literal => exact idle_put hg hforms _
  | token hv =>
    cases hv with
    | value hs => cases hs
    | suppressed => exact idle_put hg hforms _

theorem Halts.idle (h : Halts cfg.quiet st x rest o) (hi : st.Idle w) : o.state.Idle w := by
  refine ⟨?_, by rw [h.forms]; exact hi.forms⟩
  cases h with
  | comment => exact hi.world
  | unmatched h | literal _ h => exact h.world.trans hi.world
  | token hs => cases hs

end State

open State (Abreast Idle)

section

variable (hg : cfg.goal = .all) (he : cfg.ending = .complete)

include hg he

theorem length_forms_run (cs : List Char) : ∀ st : State W, st.mode = .between →
    st.forms.length ≤ (run cfg st cs).state.forms.length := by
  fun_induction Lexeme.cut cs with
  | case1 =>
    rintro ⟨mode, ls, fs, m, w⟩ rfl
    rw [run_nil _ he]
    exact le_refl fs.length
  | case2 c cs ih =>
    intro st hmode
    rcases passes_first hg he hmode c cs with ⟨st', hst', h⟩ | h
    · rw [h]
      exact hst'.length_forms.trans (ih st' hst'.mode)
    · rw [h.forms]

/-- A run without values leaves the world alone, and only nil comes of it. -/
theorem idle_run {w : W} (cs : List Char) : ∀ st : State W, st.mode = .between → st.Idle w →
    (run cfg.quiet st cs).state.Idle w := by
  fun_induction Lexeme.cut cs with
  | case1 =>
    rintro ⟨mode, ls, fs, m, w'⟩ rfl hi
    rw [@run_nil _ cfg.quiet _ he]
    exact ⟨hi.world, hi.forms⟩
  | case2 c cs ih =>
    intro st hmode hi
    rcases @passes_first _ cfg.quiet _ hg he hmode c cs with ⟨st', hst', h⟩ | h
    · rw [h]
      exact ih st' hst'.mode (hst'.idle hg hi)
    · exact h.idle hi

/-- Side by side, the run without values and the one with them end in the same way behind as many
forms, unless the latter ends at a token that has no value. -/
theorem run_abreast (cs : List Char) : ∀ st q : State W, st.mode = .between → st.Abreast q →
    ((run cfg.quiet q cs).stop = (run cfg st cs).stop ∧
        (run cfg.quiet q cs).state.forms.length = (run cfg st cs).state.forms.length) ∨
      (∃ f, (run cfg st cs).stop = .failed f ∧ f.isStructural = false) ∧
        (run cfg st cs).state.forms.length ≤ (run cfg.quiet q cs).state.forms.length := by
  fun_induction Lexeme.cut cs with
  | case1 =>
    intro st q hmode ha
    obtain ⟨mode, ls, fs, m, w⟩ := st
    obtain ⟨mode', ls', fs', m', w'⟩ := q
    obtain rfl : mode = .between := hmode
    obtain rfl : mode' = .between := ha.mode
    rw [run_nil _ he, @run_nil _ cfg.quiet _ he]
    exact .inl ⟨ha.stop_endBetween [] [], ha.forms⟩
  | case2 c cs ih =>
    intro st q hmode ha
    have hmode' : q.mode = .between := ha.mode.trans hmode
    rcases passes_first hg he hmode c cs with ⟨st', hst, hrun⟩ | hst
    · obtain ⟨q', hq, ha'⟩ := hst.abreast ha
      rcases @passes_first _ cfg.quiet _ hg he hmode' c cs with ⟨q'', hq', hrun'⟩ | hq'
      · rw [hrun, hrun', hq'.unique hq]
        exact ih st' q' hst.mode ha'
      · exact absurd hq' hq.not_halts
    · rcases @passes_first _ cfg.quiet _ hg he hmode' c cs with ⟨q', hq, hrun⟩ | hq
      · right
        obtain ⟨ds, hx⟩ := hq.exists_token_of_halts hst ha.lists
        rw [hx] at hst
        refine ⟨hst.isStructural_eq_false, ?_⟩
        rw [hst.forms, hrun, ← ha.forms]
        exact hq.length_forms.trans (@length_forms_run _ cfg.quiet hg he _ q' hq.mode)
      · left
        refine ⟨hst.stop_eq hq ha, ?_⟩
        rw [hst.forms, hq.forms, ha.forms]

end

/-! ### Whole texts -/

/-- What an interner or a resolver is called for. -/
inductive Call where
  | symbol (name : String)
  | var (ns name : String)
  | host (path : String)
  deriving DecidableEq, Repr

/-- Services that keep a record of what they are called for, newest first. -/
def Services.recorded (sv : Services W) : Services (List Call × W) where
  symbol name w := let (v, s) := sv.symbol name w.2; (v, .symbol name :: w.1, s)
  var ns name w := let (v, s) := sv.var ns name w.2; (v, .var ns name :: w.1, s)
  host path w := let (r, s) := sv.host path w.2; (r, .host path :: w.1, s)
  note n w := (w.1, sv.note n w.2)

/-- A reading without values leaves nothing in the world but the entry that opens it. -/
theorem idle_read (sv : Services W) (endIsError : Bool) (line col : Option Int) (text : String)
    (w : W) :
    let r := read sv ⟨endIsError, true, line, col⟩ (.ofString text) w
    r.world = sv.note (Source.ofString text).opening w ∧ ∀ v ∈ r.forms, v = .nil := by
  intro r
  have h := @idle_run _ ⟨sv, .all, false, endIsError, none, .complete⟩ rfl rfl
    (sv.note (Source.ofString text).opening w) text.toList
    (.initial (.initial line col) (sv.note (Source.ofString text).opening w)) rfl
    ⟨rfl, fun _ hv => absurd hv List.not_mem_nil⟩
  exact ⟨h.world, fun v hv => h.forms v (List.mem_reverse.1 hv)⟩

/-- Side by side, the two readings of a text end as their runs do. -/
theorem read_abreast (sv : Services W) (endIsError : Bool) (line col : Option Int) (text : String)
    (w : W) :
    let plain := read sv ⟨endIsError, false, line, col⟩ (.ofString text) w
    let quiet := read sv ⟨endIsError, true, line, col⟩ (.ofString text) w
    (quiet.fault = plain.fault ∧ quiet.forms.length = plain.forms.length) ∨
      (∃ f, plain.fault = some f ∧ f.isStructural = false) ∧
        plain.forms.length ≤ quiet.forms.length := by
  intro plain quiet
  let cfg : Settings W := ⟨sv, .all, false, endIsError, none, .complete⟩
  let st := State.initial (.initial line col) (sv.note (Source.ofString text).opening w)
  have hplain : plain.forms.length = (run cfg st text.toList).state.forms.length :=
    List.length_reverse
  have hquiet : quiet.forms.length = (run cfg.quiet st text.toList).state.forms.length :=
    List.length_reverse
  rw [hplain, hquiet]
  rcases @run_abreast _ cfg rfl rfl text.toList st st rfl ⟨rfl, rfl, rfl, rfl⟩ with
    ⟨hstop, hforms⟩ | ⟨⟨f, hstop, hf⟩, hforms⟩
  · left
    refine ⟨?_, hforms⟩
    show (run cfg.quiet st text.toList).fault? = (run cfg st text.toList).fault?
    rw [Outcome.fault?, Outcome.fault?, hstop]
  · right
    exact ⟨⟨f, Outcome.fault?_eq_some_iff.2 hstop, hf⟩, hforms⟩

/-- A reading without values follows the plain one: it has nil for every form, the same fault if
that is one of the characters alone, and at least as many forms if a token is at fault. It calls on
no service and leaves the tables of the store as they are. -/
theorem read_suppressed (sv : Services W) (endIsError : Bool) (line col : Option Int)
    (text : String) (w : W) :
    let plain := read sv ⟨endIsError, false, line, col⟩ (.ofString text) w
    let quiet := read sv ⟨endIsError, true, line, col⟩ (.ofString text) w
    (∀ v ∈ quiet.forms, v = .nil) ∧
    (plain.fault = none →
      quiet.fault = none ∧ quiet.forms.length = plain.forms.length) ∧
    (∀ f, plain.fault = some f → f.isStructural = true →
      quiet.fault = some f ∧ quiet.forms.length = plain.forms.length) ∧
    (∀ f, plain.fault = some f → f.isStructural = false →
      plain.forms.length ≤ quiet.forms.length) ∧
    (read sv.recorded ⟨endIsError, true, line, col⟩ (.ofString text) ([], w)).world.1 = [] ∧
    ∀ env s,
      let after := (read (.standard env) ⟨endIsError, true, line, col⟩ (.ofString text) s).world
      after.symbols = s.symbols ∧ after.namespaces = s.namespaces ∧ after.vars = s.vars := by
  intro plain quiet
  have hcalls : (read sv.recorded ⟨endIsError, true, line, col⟩ (.ofString text) ([], w)).world.1 =
      [] := by
    rw [(idle_read sv.recorded endIsError line col text ([], w)).1]
    rfl
  have hstore (env : Host.Environment) (s : Store) :
      let after := (read (.standard env) ⟨endIsError, true, line, col⟩ (.ofString text) s).world
      after.symbols = s.symbols ∧ after.namespaces = s.namespaces ∧ after.vars = s.vars := by
    rw [(idle_read (.standard env) endIsError line col text s).1]
    exact ⟨rfl, rfl, rfl⟩
  refine ⟨(idle_read sv endIsError line col text w).2, ?_⟩
  rcases read_abreast sv endIsError line col text w with ⟨hfault, hforms⟩ | ⟨⟨f, hf, hs⟩, hforms⟩
  · refine ⟨fun h => ⟨hfault.trans h, hforms⟩, fun f h _ => ⟨hfault.trans h, hforms⟩,
      fun _ _ _ => hforms.ge, hcalls, hstore⟩
  · refine ⟨fun h => ?_, fun g h hg => ?_, fun _ _ _ => hforms, hcalls, hstore⟩
    · rw [hf] at h
      cases h
    · obtain rfl := Option.some.inj (hf.symm.trans h)
      rw [hs] at hg
      cases hg

/-- Both readings come to a parenthesis too many, and the suppressed one goes on where a token has
no value. -/
theorem read_suppressed_unmatched :
    let plain text := read (.standard .standard) ⟨true, false, none, none⟩ (.ofString text) .empty
    let quiet text := read (.standard .standard) ⟨true, true, none, none⟩ (.ofString text) .empty
    (plain "(a) b )").fault = some (.misread ⟨.delimiter ")", 1, 7, none⟩) ∧
      (quiet "(a) b )").fault = some (.misread ⟨.delimiter ")", 1, 7, none⟩) ∧
      (quiet "(a) b )").forms.length = (plain "(a) b )").forms.length ∧
      (plain "a 1x b").fault = some (.misread ⟨.token "1x", 1, 4, none⟩) ∧
      (plain "a 1x b").forms.length ≤ (quiet "a 1x b").forms.length := by
  intro plain quiet
  have h : (plain "(a) b )").fault = some (.misread ⟨.delimiter ")", 1, 7, none⟩) := by
    decide +kernel
  have h' : (plain "a 1x b").fault = some (.misread ⟨.token "1x", 1, 4, none⟩) := by
    decide +kernel
  obtain ⟨-, -, hsame, -⟩ :=
    read_suppressed (.standard .standard) true none none "(a) b )" .empty
  obtain ⟨-, -, -, hmore, -⟩ :=
    read_suppressed (.standard .standard) true none none "a 1x b" .empty
  exact ⟨h, (hsame _ h rfl).1, (hsame _ h rfl).2, h', hmore _ h' rfl⟩

end LispForms
