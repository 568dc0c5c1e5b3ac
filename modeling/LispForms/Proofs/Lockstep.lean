import LispForms.Proofs.Image
import LispForms.Proofs.Resuming

/-! Forms that are read by hand. A routine that calls itself for each list in a list comes to the
same as the machine with its stack of open lists, takes as many pieces, and never fails to push one
back. -/

namespace LispForms

variable {W : Type} {start : Cursor} {cfg : Settings W} {ls : List OpenList} {fs : List Form}
  {w : W} {c : Cursor} {st : State W} {sv : Services W}

open State

/-! ### Where a form may begin -/

/-- The piece is not the one that the run is for. -/
def Settings.Opens (cfg : Settings W) (ls : List OpenList) (p : Piece) : Prop :=
  ls = [] → cfg.goal ≠ .upTo p

theorem feed_between (m : Mark) (p : Piece) : feed cfg ⟨.between, ls, fs, m, w⟩ p =
    beginForm cfg ⟨.between, ls, fs, m.next p, w⟩ m p := rfl

theorem not_goal {p : Piece} (h : cfg.Opens ls p) :
    (ls.isEmpty && cfg.goal == .upTo p) = false := by
  cases ls with
  | nil => simpa using h rfl
  | cons l ls => rfl

theorem resume_blank (he : cfg.ending = .complete) (hb : c.read.1.isBlank = true) :
    resume cfg ⟨.between, ls, fs, c.mark, w⟩ c =
      resume cfg ⟨.between, ls, fs, c.read.2.mark, w⟩ c.read.2 := by
  have hp := Piece.ne_nil_of_isBlank hb
  refine resume_on he hp ?_
  rw [feed_between, c.mark_read]
  cases hr : c.read.1 with
  | nil => exact absurd hr hp
  | cons x more =>
    rw [hr] at hb
    have hx : Text.isBlank x = true := hb
    simp [beginForm, hx]

theorem special_cases {p : Piece} (hp : p.isSpecial = true) :
    p = ['"'] ∨ p = [';'] ∨ p = ['\\'] ∨ p = ['('] ∨ p = [')'] := by
  rcases p with _ | ⟨x, _ | ⟨y, more⟩⟩
  · cases hp
  · have hx : x = '"' ∨ x = ';' ∨ x = '(' ∨ x = ')' ∨ x = '\\' := by
      simpa [Piece.isSpecial, isSpecial] using hp
    rcases hx with rfl | rfl | rfl | rfl | rfl <;> simp
  · cases hp

/-- What the special characters that begin no list lead into. -/
inductive Enters : Char → Mode → Prop
  | quote : Enters '"' (.string [])
  | semicolon : Enters ';' .comment
  | backslash : Enters '\\' .backslash

theorem resume_enters {x : Char} {mode : Mode} (hx : Enters x mode) (he : cfg.ending = .complete)
    (hp : c.read.1 = [x]) (ho : cfg.Opens ls c.read.1) :
    resume cfg ⟨.between, ls, fs, c.mark, w⟩ c =
      resume cfg ⟨mode, ls, fs, c.read.2.mark, w⟩ c.read.2 := by
  have hb : Text.isBlank x = false := by cases hx <;> decide
  have hgoal := not_goal ho
  refine resume_on he (by simp [hp]) ?_
  rw [feed_between, c.mark_read]
  rw [hp] at hgoal ⊢
  cases hx <;> simp [beginForm, hb, hgoal]

theorem resume_opening (he : cfg.ending = .complete) (hp : c.read.1 = ['('])
    (ho : cfg.Opens ls c.read.1) : resume cfg ⟨.between, ls, fs, c.mark, w⟩ c =
      resume cfg ⟨.between, ⟨c.read.2.mark, []⟩ :: ls, fs, c.read.2.mark, w⟩ c.read.2 := by
  have hb : Text.isBlank '(' = false := by decide
  have hgoal := not_goal ho
  refine resume_on he (by simp [hp]) ?_
  rw [feed_between, c.mark_read]
  rw [hp] at hgoal ⊢
  simp [beginForm, hb, hgoal]

theorem resume_unmatched (hp : c.read.1 = [')']) (ho : cfg.Opens [] c.read.1) :
    resume cfg ⟨.between, [], fs, c.mark, w⟩ c = (Outcome.past ⟨.between, [], fs, c.read.2.mark, w⟩
      (.failed (locate cfg ⟨.between, [], fs, c.read.2.mark, w⟩ (.delimiter (.ofList c.read.1))))
      c.mark c.read.2.rest).quiet := by
  have hb : Text.isBlank ')' = false := by decide
  have hgoal := ho rfl
  refine resume_past (by simp [hp]) ?_
  rw [feed_between, c.mark_read]
  rw [hp] at hgoal ⊢
  simp [beginForm, hb, hgoal]

theorem feed_ordinary_piece {p : Piece} {m : Mark} (hne : p ≠ []) (hb : p.isBlank = false)
    (hp : p.isSpecial = false) (ho : cfg.Opens ls p) : feed cfg ⟨.between, ls, fs, m, w⟩ p =
      .on ⟨.token p.reverse, ls, fs, m.next p, w⟩ := by
  have hgoal := not_goal ho
  rw [feed_between]
  rcases p with _ | ⟨x, _ | ⟨y, more⟩⟩
  · exact absurd rfl hne
  · have hx : Text.isBlank x = false := hb
    have hs : isSpecial x = false := hp
    simp only [isSpecial, List.contains_eq_mem, decide_eq_false_iff_not, List.mem_cons,
      List.not_mem_nil, not_or] at hs
    simp [beginForm, hx, hgoal, hs]
  · have hx : Text.isBlank x = false := hb
    simp [beginForm, hx, hgoal]

/-! ### Before a closing piece -/

/-- Where the forms before a closing piece stand for the machine: in the list that is open, or
outside of all lists where they are what the run is for. -/
inductive Frame where
  | inner (first : Mark) (ls : List OpenList) (fs : List Form)
  | outer

namespace Frame

variable {F : Frame} {close p : Piece} {vs : List Form}

def lists : Frame → List Form → List OpenList
  | inner first ls _, vs => ⟨first, vs⟩ :: ls
  | outer, _ => []

def forms : Frame → List Form → List Form
  | inner _ _ fs, _ => fs
  | outer, vs => vs

/-- The state with some forms read, newest first. -/
def state (F : Frame) (vs : List Form) (m : Mark) (w : W) : State W :=
  ⟨.between, F.lists vs, F.forms vs, m, w⟩

/-- The outcome when the closing piece has been read. -/
def finish (cfg : Settings W) (w : W) (c : Cursor) : Frame → List Form → Outcome W
  | inner first ls fs, vs => deliver cfg (.list vs (some (.between first c.mark))) ls fs w c
  | outer, vs => ⟨⟨.between, [], vs.reverse, c.mark, w⟩, .found, c⟩

def Fits (cfg : Settings W) (close : Piece) : Frame → Prop
  | inner _ _ fs => close = [')'] ∧ (cfg.goal = .one → fs = [])
  | outer => cfg.goal = .upTo close

theorem Fits.opens (hF : F.Fits cfg close) (hp : p ≠ close) (vs : List Form) :
    cfg.Opens (F.lists vs) p := by
  cases F with
  | inner first ls fs => exact fun h => nomatch h
  | outer =>
    intro _ hg
    exact hp (Goal.upTo.inj (hg.symm.trans hF))

theorem Fits.unmatched (hF : F.Fits cfg close) (hp : p ≠ close) (vs : List Form) :
    p = [')'] → F.lists vs = [] := by
  rintro rfl
  cases F with
  | inner first ls fs => exact absurd hF.1.symm hp
  | outer => rfl

theorem Fits.forms (hF : F.Fits cfg close) (vs : List Form) :
    cfg.goal = .one → F.forms vs = [] := by
  intro hg
  cases F with
  | inner first ls fs => exact hF.2 hg
  | outer =>
    have hgoal : cfg.goal = .upTo close := hF
    rw [hgoal] at hg
    cases hg

/-- A form is taken in and the run goes on. -/
theorem Fits.deliver (hF : F.Fits cfg close) (v : Form) (vs : List Form) (w : W) (c : Cursor) :
    deliver cfg v (F.lists vs) (F.forms vs) w c = resume cfg (F.state (v :: vs) c.mark w) c := by
  have hput : put cfg v ⟨.between, F.lists vs, F.forms vs, c.mark, w⟩ =
      F.state (v :: vs) c.mark w := by
    cases F with
    | inner first ls fs => rfl
    | outer =>
      have hgoal : cfg.goal = .upTo close := hF
      simp [put, lists, Frame.forms, state, hgoal]
  have hsat : (F.state (v :: vs) c.mark w).satisfied cfg = false := by
    by_cases hg : cfg.goal = .one
    · simp [satisfied, state, hF.forms _ hg]
    · simp [satisfied, hg]
  rw [LispForms.deliver, hput, hsat]
  rfl

/-- The text ends before the closing piece. -/
theorem Fits.faults {h : Hand start W} (hF : F.Fits cfg close) (hsource : cfg.source = none)
    (hp : h.cursor.read.1 = []) (vs : List Form) :
    (resume cfg (F.state vs h.cursor.mark h.world) h.cursor).Faults
      (h.afterRead.context.locate (.unfinished .form)) h.afterRead := by
  have hclose : (F.state vs h.cursor.mark h.world).close cfg h.cursor.read.2.rest =
      .past ((F.state vs h.cursor.mark h.world).advance [])
        (.failed (((F.state vs h.cursor.mark h.world).advance []).locate cfg (.unfinished .form)))
        h.cursor.mark h.cursor.read.2.rest := by
    cases F with
    | inner first ls fs => rfl
    | outer =>
      have hgoal : cfg.goal = .upTo close := hF
      simp [state, State.close, endBetween, hgoal]
  have hmark := h.mark_afterRead
  rw [hp] at hmark
  rw [resume_nil hp, hclose]
  exact faults_past hsource hmark.symm rfl

/-- The closing piece is read. -/
theorem Fits.closes (hF : F.Fits cfg close) (hne : c.read.1 ≠ []) (hb : c.read.1.isBlank = false)
    (he : cfg.ending = .complete) (hp : c.read.1 = close) (vs : List Form) (w : W) :
    resume cfg (F.state vs c.mark w) c = F.finish cfg w c.read.2 vs.reverse := by
  cases F with
  | inner first ls fs =>
    have hclose : c.read.1 = [')'] := hp.trans hF.1
    have hblank : Text.isBlank ')' = false := by decide
    refine resume_proceed .between he hne ?_
    rw [state, feed_between, c.mark_read, hclose]
    simp [beginForm, lists, Frame.forms, hblank]
  | outer =>
    have hgoal : cfg.goal = .upTo c.read.1 := by
      rw [hp]
      exact hF
    have hfeed : feed cfg (outer.state vs c.mark w) c.read.1 =
        .past (outer.state vs c.read.2.mark w) .found c.mark := by
      rw [state, feed_between, ← c.mark_read]
      cases hr : c.read.1 with
      | nil => exact absurd hr hne
      | cons x more =>
        rw [hr] at hb hgoal
        have hx : Text.isBlank x = false := hb
        simp [beginForm, hx, hgoal, lists, Frame.forms, state]
    rw [resume_past hne hfeed, past_eq rfl, finish, List.reverse_reverse]
    rfl

end Frame

/-! ### One form -/

/-- The run goes on with the form that is come to by hand, or without one behind a comment, or ends
with the same fault. -/
def Outcome.Reads (cfg : Settings W) (ls : List OpenList) (fs : List Form) (o : Outcome W) :
    Except Fault (Option Form) → Hand start W → Prop
  | .ok (some v), h => o = deliver cfg v ls fs h.world h.cursor
  | .ok none, h => o = resume cfg ⟨.between, ls, fs, h.cursor.mark, h.world⟩ h.cursor
  | .error f, h => o.Faults f h

/-- Behind a form or a comment the run goes on to the closing piece. -/
theorem Frame.Fits.reads {F : Frame} {close : Piece} {vs : List Form} {o : Outcome W}
    {v : Option Form} {h : Hand start W} (hF : F.Fits cfg close)
    (ho : o.Reads cfg (F.lists vs) (F.forms vs) (.ok v) h) :
    o = resume cfg (F.state (v.toList ++ vs) h.cursor.mark h.world) h.cursor := by
  cases v with
  | none => exact ho
  | some v => exact Eq.trans ho (hF.deliver v vs _ _)

/-- The run comes to the closing piece with the forms that are read by hand, or ends with the same
fault. -/
def Outcome.Closes (cfg : Settings W) (F : Frame) (o : Outcome W) :
    Except Fault (List Form) → Hand start W → Prop
  | .ok vs, h => o = F.finish cfg h.world h.cursor vs
  | .error f, h => o.Faults f h

/-- What is come to by hand for the forms before a closing piece, behind those read already. -/
def ReadsItems (sv : Services W) (close : Piece) (vs : List Form) (h : Hand start W)
    (y : Option (Except Fault (List Form) × Hand start W)) : Prop :=
  ∃ r h', y = some (r, h') ∧ h.Onward h' ∧
    ∀ {cfg : Settings W} {F : Frame}, cfg.Suits sv h → F.Fits cfg close →
      (resume cfg (F.state vs h.cursor.mark h.world) h.cursor).Closes cfg F r h'

theorem Outcome.Agrees.reads {o : Outcome W} {r : Except Fault Form} {h : Hand start W}
    (ho : o.Agrees cfg ls fs r h) : o.Reads cfg ls fs (r.map some) h := by
  cases r <;> exact ho

/-- What a special character begins is by hand what it is for the run. -/
theorem special_spec {n : ℕ} {xs : Routine start W (List Form)} {h : Hand start W}
    (hn : h.afterRead.cursor.ahead.length < n) (hp : h.cursor.read.1.isSpecial = true)
    (hxs : ReadsItems sv [')'] [] h.afterRead (xs h.afterRead)) :
    ∃ r h', Routine.special n xs h.cursor.read.1 h.afterRead = some (r, h') ∧
      h.afterRead.Onward h' ∧
      ∀ {cfg : Settings W} {ls : List OpenList} {fs : List Form}, cfg.Suits sv h →
        cfg.Opens ls h.cursor.read.1 → (h.cursor.read.1 = [')'] → ls = []) →
        (cfg.goal = .one → fs = []) →
        (resume cfg ⟨.between, ls, fs, h.cursor.mark, h.world⟩ h.cursor).Reads cfg ls fs r h' := by
  have hsuits {cfg : Settings W} (hs : cfg.Suits sv h) : cfg.Suits sv h.afterRead :=
    hs.onward h.onward_afterRead
  rcases special_cases hp with hq | hq | hq | hq | hq
  · obtain ⟨r, h', heq, hon, hrun⟩ := stringFrom_spec sv n [] h.afterRead hn
    rw [hq, Routine.special_quote]
    refine ⟨_, h', Routine.bind_return some heq, hon, fun hs ho _ _ => ?_⟩
    rw [resume_enters .quote hs.ending hq (hq ▸ ho)]
    exact (hrun (hsuits hs)).reads
  · obtain ⟨h', heq, hon, hrun⟩ := comment_spec sv n h.afterRead hn h.slot_afterRead
    rw [hq, Routine.special_semicolon, Routine.bind_ok heq]
    refine ⟨_, h', rfl, hon, fun hs ho _ _ => ?_⟩
    rw [resume_enters .semicolon hs.ending hq (hq ▸ ho)]
    exact hrun (hsuits hs)
  · obtain ⟨r, h', heq, hon, hrun⟩ := character_spec sv hn
    rw [hq, Routine.special_backslash]
    refine ⟨_, h', Routine.bind_return some heq, hon, fun hs ho _ _ => ?_⟩
    rw [resume_enters .backslash hs.ending hq (hq ▸ ho)]
    exact (hrun (hsuits hs)).reads
  · obtain ⟨r, h', heq, hon, hrun⟩ := hxs
    have hplace (h : Hand start W) : Routine.place h = some (.ok h.cursor.mark, h) := rfl
    rw [hq, Routine.special_opening, Routine.bind_ok (hplace _)]
    cases r with
    | ok vs =>
      rw [Routine.bind_ok heq, Routine.bind_ok (hplace _)]
      refine ⟨_, h', rfl, hon, fun {cfg ls fs} hs ho _ hfs => ?_⟩
      rw [resume_opening hs.ending hq (hq ▸ ho)]
      exact @hrun cfg (.inner h.afterRead.cursor.mark ls fs) (hsuits hs) ⟨rfl, hfs⟩
    | error f =>
      rw [Routine.bind_error heq]
      refine ⟨_, h', rfl, hon, fun {cfg ls fs} hs ho _ hfs => ?_⟩
      rw [resume_opening hs.ending hq (hq ▸ ho)]
      exact @hrun cfg (.inner h.afterRead.cursor.mark ls fs) (hsuits hs) ⟨rfl, hfs⟩
  · rw [hq, Routine.special_closing]
    refine ⟨_, h.afterRead, rfl, ⟨rfl, le_rfl⟩, fun hs ho hclose _ => ?_⟩
    obtain rfl := hclose rfl
    rw [resume_unmatched hq (hq ▸ ho), hq]
    exact faults_past hs.source rfl rfl

theorem settled_suppressed {token : List Char} {h : Hand start W} (hs : cfg.Suits sv h)
    (hsup : h.context.suppressing = true) :
    settled cfg ⟨.token token.reverse, ls, fs, h.cursor.mark, h.world⟩ h.cursor =
      deliver cfg .nil ls fs h.world h.cursor := by
  refine settled_eq_deliver (.token token.reverse) ?_
  simp only [settle, hs.suppress, hsup, if_true]

theorem interpret_spec (sv : Services W) (token : List Char) (h : Hand start W) :
    ∃ r h', Routine.interpret sv token h = some (r, h') ∧ h.Onward h' ∧
      ∀ {cfg : Settings W} {ls : List OpenList} {fs : List Form}, cfg.Suits sv h →
        h.context.suppressing = false →
        (settled cfg ⟨.token token.reverse, ls, fs, h.cursor.mark, h.world⟩ h.cursor).Agrees cfg ls
          fs r h' := by
  have hlocate {cfg : Settings W} {ls : List OpenList} {fs : List Form} (hs : cfg.Suits sv h) :
      locate cfg ⟨.token token.reverse, ls, fs, h.cursor.mark, h.world⟩ = h.context.locate := by
    funext p
    rw [State.locate, hs.source]
    rfl
  rcases hi : sv.interpret h.context.locate token h.world with ⟨f | v, w⟩
  · refine ⟨.error f, { h with world := w }, by simp only [Routine.interpret, hi], ⟨rfl, le_rfl⟩,
      fun hs hsup => ?_⟩
    rw [settled, settle_of_token _ rfl, hs.suppress, hsup, hs.services, hlocate hs,
      List.reverse_reverse, hi]
    refine ⟨rfl, rfl, rfl, ?_⟩
    rintro rfl
    have hfails := Services.fails_of_interpret hi
    generalize hf : Fault.pushback = f at hfails
    cases hfails <;> cases hf
  · refine ⟨.ok v, { h with world := w }, by simp only [Routine.interpret, hi], ⟨rfl, le_rfl⟩,
      fun hs hsup => settled_eq_deliver (.token token.reverse) ?_⟩
    rw [settle_of_token _ rfl, hs.suppress, hsup, hs.services, hlocate hs, List.reverse_reverse, hi]
    rfl

/-- A token is by hand what it is for the run. -/
theorem next_ordinary {n : ℕ} {h : Hand start W} (endIsError : Bool)
    (hn : h.cursor.ahead.length ≤ n) (hne : h.cursor.read.1 ≠ [])
    (hb : h.cursor.read.1.isBlank = false) (hp : h.cursor.read.1.isSpecial = false) :
    ∃ r h', Routine.next sv endIsError (n + 1) h = some (r, h') ∧ h.afterRead.Onward h' ∧
      ∀ {cfg : Settings W} {ls : List OpenList} {fs : List Form}, cfg.Suits sv h →
        cfg.Opens ls h.cursor.read.1 →
        (resume cfg ⟨.between, ls, fs, h.cursor.mark, h.world⟩ h.cursor).Reads cfg ls fs r h' ∧
          ∀ v, r = .ok v → ∃ u, v = some u ∧ (cfg.suppress = true → u = .nil) := by
  have hlt := Hand.length_afterRead hne
  obtain ⟨token, h', heq, hon, hw, -, hrun⟩ :=
    tokenFrom_spec n h.cursor.read.1.reverse h.afterRead (by omega)
  have hresume {cfg : Settings W} {ls : List OpenList} {fs : List Form} (hs : cfg.Suits sv h)
      (ho : cfg.Opens ls h.cursor.read.1) :
      resume cfg ⟨.between, ls, fs, h.cursor.mark, h.world⟩ h.cursor =
        settled cfg ⟨.token token.reverse, ls, fs, h'.cursor.mark, h'.world⟩ h'.cursor := by
    rw [hw]
    refine (resume_on hs.ending hne ?_).trans (hrun hs.ending .token)
    rw [feed_ordinary_piece hne hb hp ho]
    exact congrArg (fun m => Step.on ⟨_, ls, fs, m, h.world⟩) h.cursor.mark_read.symm
  have hknown : Routine.suppressing h' = some (.ok h'.context.suppressing, h') := rfl
  rw [Routine.next, Routine.bind_ok (Routine.read_eq h), if_neg (by simp [hb]), if_neg hne,
    if_neg (by simp [hp]), Routine.bind_ok heq, Routine.bind_ok hknown]
  cases hsup : h'.context.suppressing with
  | true =>
    refine ⟨_, _, rfl, hon, fun hs ho => ⟨?_, ?_⟩⟩
    · rw [hresume hs ho]
      exact settled_suppressed (hs.onward (h.onward_afterRead.trans hon)) hsup
    · rintro v hv
      exact ⟨.nil, (Except.ok.inj hv).symm, fun _ => rfl⟩
  | false =>
    obtain ⟨r, h'', hi, hon', hagrees⟩ := interpret_spec sv token h'
    refine ⟨_, h'', Routine.bind_return some hi, hon.trans hon', fun hs ho => ⟨?_, ?_⟩⟩
    · rw [hresume hs ho]
      exact (hagrees (hs.onward (h.onward_afterRead.trans hon)) hsup).reads
    · have hoff := (hs.onward (h.onward_afterRead.trans hon)).suppress.trans hsup
      rcases r with f | u
      · exact nofun
      · exact fun v hv => ⟨u, (Except.ok.inj hv).symm, fun hsup' => by simp [hoff] at hsup'⟩

/-! ### The items of a list -/

section Items

variable {close : Piece} {vs : List Form} {h : Hand start W}
  {y : Option (Except Fault (List Form) × Hand start W)}

theorem ReadsItems.blank (hb : h.cursor.read.1.isBlank = true)
    (hy : ReadsItems sv close vs h.afterRead y) : ReadsItems sv close vs h y := by
  obtain ⟨r, h', heq, hon, hrun⟩ := hy
  refine ⟨r, h', heq, h.onward_afterRead.trans hon, fun hs hF => ?_⟩
  rw [Frame.state, resume_blank hs.ending hb]
  exact hrun (hs.onward h.onward_afterRead) hF

/-- Behind a form or a comment, however it has been read, come the other forms. -/
theorem ReadsItems.bind {x : Routine start W (Option Form)}
    {f : Option Form → Routine start W (List Form)} {k h₁ : Hand start W}
    {r : Except Fault (Option Form)} (hx : x k = some (r, h₁)) (hon : h.Onward h₁)
    (hrun : ∀ {cfg : Settings W} {F : Frame}, cfg.Suits sv h → F.Fits cfg close →
      (resume cfg (F.state vs h.cursor.mark h.world) h.cursor).Reads cfg (F.lists vs) (F.forms vs)
        r h₁)
    (hrest : ∀ v : Option Form, ReadsItems sv close (v.toList ++ vs) h₁ (f v h₁)) :
    ReadsItems sv close vs h ((x >>= f) k) := by
  cases r with
  | error e => exact ⟨_, _, Routine.bind_error hx, hon, fun hs hF => hrun hs hF⟩
  | ok v =>
    obtain ⟨r, h', heq, hon', hrun'⟩ := hrest v
    refine ⟨r, h', (Routine.bind_ok hx).trans heq, hon.trans hon', fun hs hF => ?_⟩
    rw [hF.reads (hrun hs hF)]
    exact hrun' (hs.onward hon) hF

/-- The forms before a closing piece are by hand what they are for the run. -/
theorem itemsFrom_spec (sv : Services W) : ∀ (n : ℕ) (close : Piece) (vs : List Form)
    (h : Hand start W), h.cursor.ahead.length + 2 ≤ n →
      ReadsItems sv close vs h (Routine.itemsFrom sv close n vs h)
  | 0, _, _, _, hn => absurd hn (Nat.not_succ_le_zero _)
  | n + 1, close, vs, h, hn => by
    have hread := h.onward_afterRead
    rw [Routine.itemsFrom, Routine.bind_ok (Routine.read_eq h)]
    by_cases hb : h.cursor.read.1.isBlank = true
    · have hlt := Hand.length_afterRead (Piece.ne_nil_of_isBlank hb)
      rw [if_pos hb]
      exact (itemsFrom_spec sv n close vs h.afterRead (by omega)).blank hb
    rw [if_neg hb]
    by_cases hnil : h.cursor.read.1 = []
    · rw [if_pos hnil]
      exact ⟨_, _, rfl, hread, fun hs hF => hF.faults hs.source hnil vs⟩
    rw [if_neg hnil]
    have hlt := Hand.length_afterRead hnil
    have hblank : h.cursor.read.1.isBlank = false := by simpa using hb
    by_cases hclose : h.cursor.read.1 = close
    · rw [if_pos hclose]
      exact ⟨_, _, rfl, hread, fun hs hF => hF.closes hnil hblank hs.ending hclose vs _⟩
    rw [if_neg hclose]
    have hrest {h₁ : Hand start W} (hon : h.afterRead.Onward h₁) (v : Option Form) :
        ReadsItems sv close (v.toList ++ vs) h₁
          (Routine.itemsFrom sv close n (v.toList ++ vs) h₁) := by
      have hle := hon.ahead
      exact itemsFrom_spec sv n close (v.toList ++ vs) h₁ (by omega)
    by_cases hp : h.cursor.read.1.isSpecial = true
    · have hlength : h.afterRead.cursor.ahead.length < n := by omega
      obtain ⟨r, h', heq, hon, hrun⟩ := special_spec hlength hp
        (itemsFrom_spec sv n [')'] [] h.afterRead (by omega))
      rw [if_pos hp]
      exact .bind heq (hread.trans hon) (fun hs hF =>
        hrun hs (hF.opens hclose vs) (hF.unmatched hclose vs) (hF.forms vs)) (hrest hon)
    · have hspecial : h.cursor.read.1.isSpecial = false := by simpa using hp
      rw [if_neg hp, Routine.bind_ok h.unread_afterRead]
      obtain ⟨m, rfl⟩ : ∃ m, n = m + 1 := ⟨n - 1, by omega⟩
      -- the piece is read once more as the first of a token
      have hheld : h.held.cursor.read = h.cursor.read := h.cursor.read_held
      have hafter : h.held.afterRead.cursor = h.afterRead.cursor := congrArg Prod.snd hheld
      have hle := h.onward_held.ahead
      obtain ⟨r, h', heq, hon, hrun⟩ := @next_ordinary _ _ sv m h.held true (by omega)
        (by rwa [hheld]) (by rwa [hheld]) (by rwa [hheld])
      have hon' : h.afterRead.Onward h' := ⟨hon.suppressions, hafter ▸ hon.ahead⟩
      refine .bind heq (hread.trans hon') (fun {cfg F} hs hF => ?_) (hrest hon')
      have ho := (@hrun cfg (F.lists vs) (F.forms vs) (hs.onward h.onward_held)
        (by rw [hheld]; exact hF.opens hclose vs)).1
      have hresume := @resume_held _ cfg (F.state vs h.cursor.mark h.world) h.cursor
      exact hresume ▸ ho

end Items

/-! ### The next form -/

/-- What a run for one form comes to. -/
def Outcome.first (o : Outcome W) : Except Fault (Option Form) :=
  match o.stop with
  | .found => .ok o.forms.head?
  | .ended => .ok none
  | .failed f => .error f

/-- What a run for the forms before a closing piece comes to. -/
def Outcome.before (o : Outcome W) : Except Fault (List Form) :=
  match o.stop with
  | .failed f => .error f
  | _ => .ok o.forms

/-- A run and a routine come to the same, at the same place. -/
structure Outcome.Meets {α : Type} (o : Outcome W) (result : Outcome W → Except Fault α)
    (r : Except Fault α) (h : Hand start W) : Prop where
  result : result o = r
  cursor : o.cursor = h.cursor
  world : o.state.world = h.world
  ne_pushback : r ≠ .error .pushback

theorem Outcome.Faults.meets_first {o : Outcome W} {f : Fault} {h : Hand start W}
    (ho : o.Faults f h) : o.Meets Outcome.first (.error f) h where
  result := by rw [first, ho.stop]
  cursor := ho.cursor
  world := ho.world
  ne_pushback := fun hf => ho.ne_pushback (Except.error.inj hf)

theorem Outcome.Faults.meets_before {o : Outcome W} {f : Fault} {h : Hand start W}
    (ho : o.Faults f h) : o.Meets Outcome.before (.error f) h where
  result := by rw [before, ho.stop]
  cursor := ho.cursor
  world := ho.world
  ne_pushback := fun hf => ho.ne_pushback (Except.error.inj hf)

/-- A form outside of lists is what the run is for. -/
theorem meets_deliver (hgoal : cfg.goal = .one) (v : Form) (h : Hand start W) :
    (deliver cfg v [] [] h.world h.cursor).Meets Outcome.first
      (.ok (some (if cfg.suppress then .nil else v))) h := by
  have hsat : (put cfg v ⟨.between, [], [], h.cursor.mark, h.world⟩).satisfied cfg = true := by
    simp [satisfied, put, hgoal]
  rw [deliver, if_pos hsat]
  refine ⟨?_, rfl, rfl, by simp⟩
  simp [Outcome.first, Outcome.forms, put, hgoal]

/-- The text ends where no form has begun. -/
theorem meets_end {h : Hand start W} (hs : cfg.Suits sv h) (hgoal : cfg.goal = .one)
    (hp : h.cursor.read.1 = []) :
    (resume cfg (.initial h.cursor.mark h.world) h.cursor).Meets Outcome.first
      (if cfg.endIsError then .error (h.afterRead.context.locate (.unfinished .form)) else .ok none)
      h.afterRead := by
  have hmark := h.mark_afterRead
  rw [hp] at hmark
  have hclose : (State.initial h.cursor.mark h.world).close cfg h.cursor.read.2.rest =
      let st := (State.initial h.cursor.mark h.world).advance []
      .past st (if cfg.endIsError then .failed (st.locate cfg (.unfinished .form)) else .ended)
        h.cursor.mark h.cursor.read.2.rest := by
    simp [State.initial, State.close, endBetween, hgoal]
  rw [resume_nil hp, hclose]
  split_ifs
  · exact (faults_past hs.source hmark.symm rfl).meets_first
  · rw [past_eq hmark.symm]
    exact ⟨rfl, rfl, rfl, by simp⟩

/-- What is come to by hand for the next form. -/
def ReadsNext (sv : Services W) (endIsError : Bool) (h : Hand start W)
    (y : Option (Except Fault (Option Form) × Hand start W)) : Prop :=
  ∃ r h', y = some (r, h') ∧ h.Onward h' ∧
    ∀ {cfg : Settings W}, cfg.Suits sv h → cfg.goal = .one → cfg.endIsError = endIsError →
      (resume cfg (.initial h.cursor.mark h.world) h.cursor).Meets Outcome.first r h'

section Next

variable {endIsError : Bool} {h : Hand start W}
  {y : Option (Except Fault (Option Form) × Hand start W)}

theorem ReadsNext.blank (hb : h.cursor.read.1.isBlank = true)
    (hy : ReadsNext sv endIsError h.afterRead y) : ReadsNext sv endIsError h y := by
  obtain ⟨r, h', heq, hon, hrun⟩ := hy
  refine ⟨r, h', heq, h.onward_afterRead.trans hon, fun hs hgoal hend => ?_⟩
  rw [State.initial, resume_blank hs.ending hb]
  exact hrun (hs.onward h.onward_afterRead) hgoal hend

theorem ReadsNext.ending (hp : h.cursor.read.1 = []) : ReadsNext sv endIsError h
    ((if endIsError then Routine.fail (.unfinished .form) else return none :
      Routine start W (Option Form)) h.afterRead) := by
  cases endIsError with
  | true =>
    refine ⟨_, _, rfl, h.onward_afterRead, fun {cfg} hs hgoal hend => ?_⟩
    have ho := meets_end hs hgoal hp
    rwa [if_pos hend] at ho
  | false =>
    refine ⟨_, _, rfl, h.onward_afterRead, fun {cfg} hs hgoal hend => ?_⟩
    have ho := meets_end hs hgoal hp
    rwa [if_neg (by simp [hend])] at ho

/-- A form that has been read through is come to, unless it is suppressed; behind a comment comes
the next one. -/
theorem ReadsNext.special {x : Routine start W (Option Form)} {more : Routine start W (Option Form)}
    {k h₁ : Hand start W} {r : Except Fault (Option Form)} (hx : x k = some (r, h₁))
    (hon : h.Onward h₁)
    (hrun : ∀ {cfg : Settings W}, cfg.Suits sv h → cfg.goal = .one →
      (resume cfg (.initial h.cursor.mark h.world) h.cursor).Reads cfg [] [] r h₁)
    (hmore : ReadsNext sv endIsError h₁ (more h₁)) :
    ReadsNext sv endIsError h ((do
      let v ← x
      match v with
      | none => more
      | some v => return some (if ← Routine.suppressing then .nil else v)) k) := by
  rcases r with f | _ | v
  · exact ⟨_, _, Routine.bind_error hx, hon, fun hs hgoal _ => (hrun hs hgoal).meets_first⟩
  · obtain ⟨r, h', heq, hon', hrun'⟩ := hmore
    refine ⟨r, h', (Routine.bind_ok hx).trans heq, hon.trans hon', fun hs hgoal hend => ?_⟩
    rw [hrun hs hgoal]
    exact hrun' (hs.onward hon) hgoal hend
  · have hknown : Routine.suppressing h₁ = some (.ok h₁.context.suppressing, h₁) := rfl
    refine ⟨.ok (some (if h₁.context.suppressing then .nil else v)), h₁,
      (Routine.bind_ok hx).trans (Routine.bind_ok hknown), hon, fun {cfg} hs hgoal _ => ?_⟩
    rw [hrun hs hgoal, ← (hs.onward hon).suppress]
    exact meets_deliver hgoal v h₁

/-- The next form is by hand what it is for the run. -/
theorem next_spec (sv : Services W) (endIsError : Bool) : ∀ (n : ℕ) (h : Hand start W),
    h.cursor.ahead.length + 2 ≤ n →
      ReadsNext sv endIsError h (Routine.next sv endIsError n h)
  | 0, _, hn => absurd hn (Nat.not_succ_le_zero _)
  | n + 1, h, hn => by
    have hread := h.onward_afterRead
    by_cases hb : h.cursor.read.1.isBlank = true
    · have hlt := Hand.length_afterRead (Piece.ne_nil_of_isBlank hb)
      rw [Routine.next, Routine.bind_ok (Routine.read_eq h), if_pos hb]
      exact (next_spec sv endIsError n h.afterRead (by omega)).blank hb
    by_cases hnil : h.cursor.read.1 = []
    · rw [Routine.next, Routine.bind_ok (Routine.read_eq h), if_neg hb, if_pos hnil]
      exact .ending hnil
    have hlt := Hand.length_afterRead hnil
    have hopens {cfg : Settings W} (hgoal : cfg.goal = .one) : cfg.Opens [] h.cursor.read.1 := by
      intro _ hg
      rw [hgoal] at hg
      cases hg
    by_cases hp : h.cursor.read.1.isSpecial = true
    · have hlength : h.afterRead.cursor.ahead.length < n := by omega
      obtain ⟨r, h₁, heq, hon, hrun⟩ := special_spec hlength hp
        (itemsFrom_spec sv n [')'] [] h.afterRead (by omega))
      have hle := hon.ahead
      rw [Routine.next, Routine.bind_ok (Routine.read_eq h), if_neg hb, if_neg hnil, if_pos hp]
      exact .special heq (hread.trans hon)
        (fun hs hgoal => hrun hs (hopens hgoal) (fun _ => rfl) fun _ => rfl)
        (next_spec sv endIsError n h₁ (by omega))
    · obtain ⟨r, h', heq, hon, hrun⟩ := @next_ordinary _ _ sv n h endIsError (by omega) hnil
        (by simpa using hb) (by simpa using hp)
      refine ⟨r, h', heq, hread.trans hon, fun {cfg} hs hgoal _ => ?_⟩
      obtain ⟨ho, hkept⟩ := @hrun cfg [] [] hs (hopens hgoal)
      cases r with
      | error f => exact Outcome.Faults.meets_first ho
      | ok v =>
        obtain ⟨u, rfl, hnil⟩ := hkept v rfl
        have hmeets := meets_deliver hgoal u h'
        have hu : (if cfg.suppress = true then Form.nil else u) = u := by
          split_ifs with hsup
          · exact (hnil hsup).symm
          · rfl
        rw [hu] at hmeets
        exact Eq.symm ho ▸ hmeets

end Next

end LispForms
