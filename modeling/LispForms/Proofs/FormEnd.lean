import LispForms.Proofs.Finding
import LispForms.Proofs.Spans

/-! Where the next form ends. Its lexemes end with the last one that is taken, and what stands
behind it has no part in it, unless it goes on with a token or a character. -/

namespace LispForms

open State (Reads ReadsAll put)

variable {W : Type} {cfg : Settings W} {m : Mark} {w w' : W} {rest : List Char} {x : Lexeme}
  {xs : List Lexeme} {v : Form} {st st' st'' : State W}

/-! ### The lexemes of a form -/

namespace Lexeme

/-- The lexemes that no form comes from. -/
def isSkipped : Lexeme → Bool
  | blank _ => true
  | comment body => endsLine body
  | _ => false

/-- The lexemes of a list or a string. -/
inductive Enclosed : List Lexeme → Prop
  | string (body : List Char) : Enclosed [.string body true]
  | list {xs : List Lexeme} (h : Balanced xs) : Enclosed (.opening :: (xs ++ [.closing]))

/-- The lexeme of a token or a character. -/
inductive Bare : List Lexeme → Prop
  | character {name : List Char} (h : name ≠ []) : Bare [.character name]
  | token (cs : List Char) : Bare [.token cs]

theorem Enclosed.isClosed_last (h : Enclosed xs) (hx : xs.getLast? = some x) :
    x.isClosed = true := by
  cases h with
  | string body =>
    obtain rfl := Option.some.inj hx
    rfl
  | @list xs =>
    rw [← List.cons_append, List.getLast?_concat] at hx
    obtain rfl := Option.some.inj hx
    rfl

theorem Bare.isBare_last (h : Bare xs) (hx : xs.getLast? = some x) : x.isBare = true := by
  cases h with
  | @character name hne =>
    obtain rfl := Option.some.inj hx
    cases name with
    | nil => exact absurd rfl hne
    | cons c cs => rfl
  | token cs =>
    obtain rfl := Option.some.inj hx
    rfl

theorem Enclosed.ne_nil (h : Enclosed xs) : xs ≠ [] := by
  cases h <;> exact List.cons_ne_nil _ _

theorem Bare.ne_nil (h : Bare xs) : xs ≠ [] := by
  cases h <;> exact List.cons_ne_nil _ _

theorem isSkipped_of_isClosed (h : x.isClosed = true) : x.isSkipped = false := by
  cases x with
  | closing | string => rfl
  | _ => cases h

theorem isSkipped_of_isBare (h : x.isBare = true) : x.isSkipped = false := by
  cases x with
  | character | token => rfl
  | _ => cases h

theorem isBare_of_isClosed (h : x.isClosed = true) : x.isBare = false := by
  cases x with
  | closing | string => rfl
  | _ => cases h

/-- The lexeme of a value is that of a form. -/
theorem enclosed_or_bare_of_literal? (h : x.literal? = some (.ok v)) : Enclosed [x] ∨ Bare [x] := by
  cases x with
  | string body closed =>
    cases closed with
    | true => exact .inl (.string body)
    | false => cases (Assembly.stringValue_eq_ok_iff.1 (Option.some.inj h)).1
  | character name =>
    cases name with
    | nil => cases h
    | cons c cs => exact .inr (.character (List.cons_ne_nil c cs))
  | _ => cases h

end Lexeme

namespace Laid

variable {sv : Services W} {vs : List Form}

theorem isSkipped (h : Laid sv m w xs vs w') :
    vs = [] → (∀ y ∈ xs, y.isSkipped = true) ∧ w' = w := by
  induction h with
  | nil => exact fun _ => ⟨by simp, rfl⟩
  | blank => exact fun _ => ⟨by simp [Lexeme.isSkipped], rfl⟩
  | comment body hends => exact fun _ => ⟨by simp [Lexeme.isSkipped, hends], rfl⟩
  | literal | token | list => exact fun h => nomatch h
  | append _ _ ih ih' =>
    intro hnil
    obtain ⟨hvs, hus⟩ := List.append_eq_nil_iff.1 hnil
    obtain ⟨hxs, rfl⟩ := ih hvs
    obtain ⟨hys, rfl⟩ := ih' hus
    refine ⟨fun y hy => ?_, rfl⟩
    exact (List.mem_append.1 hy).elim (hxs y) (hys y)

theorem of_isSkipped (h : ∀ y ∈ xs, y.isSkipped = true) (m : Mark) (w : W) :
    Laid sv m w xs [] w := by
  induction xs generalizing m with
  | nil => exact .nil
  | cons x xs ih =>
    have hx := h x List.mem_cons_self
    have hxs := ih (fun y hy => h y (List.mem_cons_of_mem x hy)) (m.past [x])
    cases x with
    | blank c => exact append (.blank c) hxs
    | comment body => exact append (.comment body hx) hxs
    | _ => cases hx

/-- A single form is laid out over lexemes of its own, with nothing but blanks and comments before
and behind them. -/
theorem exists_own (h : Laid sv m w xs vs w') : vs = [v] → ∃ before own behind,
    xs = before ++ (own ++ behind) ∧ (∀ y ∈ before, y.isSkipped = true) ∧
      (∀ y ∈ behind, y.isSkipped = true) ∧ (Lexeme.Enclosed own ∨ Lexeme.Bare own) ∧
        Laid sv (m.past before) w own [v] w' := by
  induction h with
  | nil | blank | comment => exact fun h => nomatch h
  | @literal m w x u hx =>
    intro hv
    obtain rfl := (List.cons.inj hv).1
    exact ⟨[], [x], [], rfl, by simp, by simp, Lexeme.enclosed_or_bare_of_literal? hx, .literal hx⟩
  | @token m w cs u w' hu =>
    intro hv
    obtain rfl := (List.cons.inj hv).1
    exact ⟨[], [.token cs], [], rfl, by simp, by simp, .inr (.token cs), .token hu⟩
  | @list m w xs items w' hitems _ =>
    intro hv
    obtain rfl := (List.cons.inj hv).1
    refine ⟨[], _, [], (List.append_nil _).symm, by simp, by simp, ?_, .list hitems⟩
    exact .inl (.list hitems.balanced)
  | @append m w xs vs w₁ ys us w₂ hxs hys ih ih' =>
    intro hv
    rcases List.append_eq_singleton_iff.1 hv with ⟨rfl, rfl⟩ | ⟨rfl, rfl⟩
    · obtain ⟨hskip, rfl⟩ := hxs.isSkipped rfl
      obtain ⟨before, own, behind, rfl, hbefore, hbehind, hform, hown⟩ := ih' rfl
      refine ⟨xs ++ before, own, behind, (List.append_assoc _ _ _).symm, fun y hy => ?_, hbehind,
        hform, ?_⟩
      · exact (List.mem_append.1 hy).elim (hskip y) (hbefore y)
      · rwa [Mark.past_append]
    · obtain ⟨hskip, rfl⟩ := hys.isSkipped rfl
      obtain ⟨before, own, behind, rfl, hbefore, hbehind, hform, hown⟩ := ih rfl
      refine ⟨before, own, behind ++ ys, by simp, hbefore, fun y hy => ?_, hform, hown⟩
      exact (List.mem_append.1 hy).elim (hbehind y) (hskip y)

/-- Nothing stands behind a single form if the last lexeme belongs to one. -/
theorem exists_own_last (h : Laid sv m w (xs ++ [x]) [v] w') (hx : x.isSkipped = false) :
    ∃ before own, xs ++ [x] = before ++ own ∧ own.getLast? = some x ∧
      (∀ y ∈ before, y.isSkipped = true) ∧ (Lexeme.Enclosed own ∨ Lexeme.Bare own) ∧
        Laid sv (m.past before) w own [v] w' := by
  obtain ⟨before, own, behind, hxs, hbefore, hbehind, hform, hown⟩ := h.exists_own rfl
  have hlast : (before ++ (own ++ behind)).getLast? = some x := by rw [← hxs, List.getLast?_concat]
  rcases List.eq_nil_or_concat behind with rfl | ⟨zs, y, rfl⟩
  · rw [List.append_nil] at hxs hlast
    have hne : own ≠ [] := hform.elim Lexeme.Enclosed.ne_nil Lexeme.Bare.ne_nil
    rw [List.getLast?_append, List.getLast?_eq_some_getLast hne, Option.some_or,
      ← List.getLast?_eq_some_getLast hne] at hlast
    exact ⟨before, own, hxs, hlast, hbefore, hform, hown⟩
  · rw [List.concat_eq_append, ← List.append_assoc, ← List.append_assoc,
      List.getLast?_concat] at hlast
    obtain rfl := Option.some.inj hlast
    have hy := hbehind y (by simp)
    rw [hx] at hy
    cases hy

end Laid

/-! ### The next form -/

/-- The next form of a text in which `r` follows `p` is `v`, and it ends where `r` begins. -/
def Takes (sv : Services W) (endIsError : Bool) (line col : Option Int) (w : W) (p : List Char)
    (v : Form) (r : List Char) : Prop :=
  let c := (Context.ofText (p ++ r) line col w).next sv endIsError
  c.1 = .ok (some v) ∧ c.2.cursor.ahead = r

variable {sv : Services W} {endIsError : Bool} {line col : Option Int} {p r : List Char}

namespace Outcome

theorem Found.stop {o : Outcome W} (h : o.Found st x rest) : o.stop = .found := by
  cases h <;> rfl

theorem Found.state {o : Outcome W} (h : o.Found st x rest) : o.state = st := by
  cases h <;> rfl

theorem Found.ahead {o : Outcome W} (h : o.Found st x rest) : o.cursor.ahead = rest := by
  cases h with
  | past => rfl
  | back => cases rest <;> rfl

theorem Found.isClosed_or_isBare {o : Outcome W} (h : o.Found st x rest) :
    x.isClosed = true ∨ x.isBare = true := by
  cases h with
  | past hx => exact .inl hx
  | back hx => exact .inr hx

theorem Found.isSkipped {o : Outcome W} (h : o.Found st x rest) : x.isSkipped = false :=
  h.isClosed_or_isBare.elim Lexeme.isSkipped_of_isClosed Lexeme.isSkipped_of_isBare

/-- The next read goes on behind the form. -/
theorem Found.read {o : Outcome W} (h : o.Found st x rest) :
    o.cursor.read.1 = rest.head?.toList := by
  cases h with
  | past => cases rest <;> rfl
  | back => rfl

theorem Found.of_isClosed {o : Outcome W} (h : o.Found st x rest) (hx : x.isClosed = true) :
    o.cursor.rest = rest ∧ ∀ q, o.cursor.slot ≠ .pushed q := by
  cases h with
  | past => exact ⟨rfl, fun q hq => nomatch hq⟩
  | back hx' =>
    rw [Lexeme.isBare_of_isClosed hx] at hx'
    cases hx'

theorem Found.of_isBare {o : Outcome W} (h : o.Found st x rest) (hx : x.isBare = true) :
    o.cursor.rest = rest.tail ∧ o.cursor.slot = .pushed rest.head?.toList := by
  cases h with
  | past hx' =>
    rw [Lexeme.isBare_of_isClosed hx'] at hx
    cases hx
  | back => exact ⟨rfl, rfl⟩

end Outcome

theorem Takes.of_found (h : (run ⟨sv, .one, false, endIsError, none, .complete⟩
      (.initial (.initial line col) w) (p ++ r)).Found st x r) (hforms : st.forms = [v]) :
    Takes sv endIsError line col w p v r := by
  refine ⟨Context.next_eq_some_iff.2 ⟨h.stop, ?_⟩, h.ahead⟩
  exact (congrArg (·.forms.reverse.head?) h.state).trans (by rw [hforms])

namespace State

theorem ReadsAll.of_append {ys : List Lexeme} : ∀ {xs : List Lexeme} {st : State W},
    ReadsAll cfg st (xs ++ ys) st'' → ∃ st', ReadsAll cfg st xs st' ∧ ReadsAll cfg st' ys st''
  | [], st, h => ⟨st, .nil, h⟩
  | x :: xs, st, h => by
    cases h with
    | cons hx hall =>
      obtain ⟨st', hxs, hys⟩ := hall.of_append
      exact ⟨st', .cons hx hxs, hys⟩

/-- The last lexeme of a form puts it where no list is open. -/
theorem Reads.forms_eq_cons (h : Reads cfg st x st') (hx : x.isSkipped = false)
    (hlists : st'.lists = []) : ∃ v, st'.forms = v :: st.forms := by
  have hput (v : Form) (ls : List OpenList) (fs : List Form) (m : Mark) (w : W)
      (hlists : (put cfg v ⟨.between, ls, fs, m, w⟩).lists = []) :
      ∃ u, (put cfg v ⟨.between, ls, fs, m, w⟩).forms = u :: fs := by
    cases ls with
    | nil => exact ⟨_, rfl⟩
    | cons => cases hlists
  cases h with
  | blank => cases hx
  | comment hends =>
    rw [Lexeme.isSkipped, hends] at hx
    cases hx
  | opening => cases hlists
  | closing | literal | token => exact hput _ _ _ _ _ hlists

theorem Reads.lists_eq_nil (h : Reads cfg st x st') (hforms : st.forms = [])
    (hne : st'.forms ≠ []) : st'.lists = [] ∧ ∃ v, st'.forms = [v] := by
  have hput (v : Form) (ls : List OpenList) (m : Mark) (w : W)
      (hne : (put cfg v ⟨.between, ls, [], m, w⟩).forms ≠ []) :
      (put cfg v ⟨.between, ls, [], m, w⟩).lists = [] ∧
        ∃ u, (put cfg v ⟨.between, ls, [], m, w⟩).forms = [u] := by
    cases ls with
    | nil => exact ⟨rfl, _, rfl⟩
    | cons => exact absurd rfl hne
  cases h with
  | blank | comment | opening => exact absurd hforms hne
  | closing | literal | token =>
    obtain rfl := hforms
    exact hput _ _ _ _ hne

end State

/-- A form is found behind its last lexeme, whatever follows that does not go on with it. -/
theorem Laid.takes (h : Laid sv (.initial line col) w (xs ++ [x]) [v] w')
    (hx : x.isClosed = true ∨ x.isBare = true) (hstops : x.isBare = true → StopsToken r)
    (hcut : Lexeme.cut p = xs ++ [x]) : Takes sv endIsError line col w p v r := by
  let cfg : Settings W := ⟨sv, .all, false, endIsError, none, .complete⟩
  obtain ⟨st, hxs, hlast⟩ := (@Laid.readsAll _ cfg _ _ _ _ _ rfl rfl h [] []).of_append
  cases hlast with
  | cons hlast hnil =>
    cases hnil
    have hskip : x.isSkipped = false :=
      hx.elim Lexeme.isSkipped_of_isClosed Lexeme.isSkipped_of_isBare
    obtain ⟨u, hforms⟩ := hlast.forms_eq_cons hskip rfl
    have hst : st.forms = [] := (List.cons.inj hforms).2.symm
    have hfound := hxs.found rfl rfl rfl hst hlast (by simp [State.putAll])
      (Lexeme.cut_append_of_last hx hstops hcut)
    exact .of_found hfound rfl

/-- What is taken is cut by itself, and the form is laid out over it. -/
theorem Takes.exists_laid (h : Takes sv endIsError line col w p v r) : ∃ xs x st,
    (run ⟨sv, .one, false, endIsError, none, .complete⟩ (.initial (.initial line col) w)
        (p ++ r)).Found st x r ∧
      Lexeme.cut p = xs ++ [x] ∧ Lexeme.cut (p ++ r) = Lexeme.cut p ++ Lexeme.cut r ∧
        Laid sv (.initial line col) w (xs ++ [x]) [v] st.world := by
  let cfg : Settings W := ⟨sv, .all, false, endIsError, none, .complete⟩
  obtain ⟨hstop, hhead⟩ := Context.next_eq_some_iff.1 h.1
  obtain ⟨xs, x, rest, st₁, st, hcut, hall, hst₁, hx, hne, hfound⟩ :=
    @exists_found _ cfg rfl rfl (p ++ r) (.initial (.initial line col) w) rfl rfl hstop
  have hahead : rest = r := hfound.ahead.symm.trans h.2
  subst hahead
  have hcut' : Lexeme.cut (p ++ rest) = (xs ++ [x]) ++ Lexeme.cut rest := by simpa using hcut
  have hp : Lexeme.cut p = xs ++ [x] := by
    obtain ⟨a, b, hab, ha, hb⟩ := Lexeme.cut_eq_append hcut'
    rw [Lexeme.cut_injective hb] at hab
    rw [List.append_cancel_right hab, ha]
  refine ⟨xs, x, st, hfound, hp, by rw [hcut', hp], ?_⟩
  -- no list is open behind the form, so that it is the only one
  obtain ⟨hlists, u, hforms⟩ := hx.lists_eq_nil hst₁ hne
  have hv : u = v := by
    have h := (congrArg (·.forms.reverse.head?) hfound.state).symm.trans hhead
    simpa [hforms] using h
  have hstart : State.Stands sv (.initial line col) w [] (.initial (.initial line col) w) :=
    .outside .nil
  have hstands := (hall.append (.single hx)).stands rfl rfl hstart
  obtain ⟨mode, ls, fs, m, w'⟩ := st
  obtain rfl : ls = [] := hlists
  obtain rfl : fs = [u] := hforms
  rw [List.nil_append] at hstands
  generalize xs ++ [x] = zs at hstands
  cases hstands with
  | outside hlaid => rwa [hv] at hlaid

/-- The next form ends with the last of its own characters, in front of which nothing stands but
blanks and comments, and the next read goes on right behind it. Nothing behind a list or a string is
taken from the text, and it is found whatever follows it. Behind a token or a character one piece is
taken and given back, and it is found in front of whatever stops it. Both are so in every world in
which the lexemes of the form come to it. -/
theorem next_takes (h : Takes sv endIsError line col w p v r) :
    let after := ((Context.ofText (p ++ r) line col w).next sv endIsError).2
    after.cursor.read.1 = r.head?.toList ∧
    ∃ before own, p = before ++ own ∧
      Lexeme.cut (p ++ r) = Lexeme.cut before ++ (Lexeme.cut own ++ Lexeme.cut r) ∧
      (∀ y ∈ Lexeme.cut before, y.isSkipped = true) ∧
      Laid sv ((Mark.initial line col).through before) w (Lexeme.cut own) [v] after.world ∧
      (Lexeme.Enclosed (Lexeme.cut own) ∧ after.cursor.rest = r ∧
          (∀ q, after.cursor.slot ≠ .pushed q) ∧
          (∀ r' u u', Laid sv ((Mark.initial line col).through before) u (Lexeme.cut own) [v] u' →
            Takes sv endIsError line col u p v r') ∨
        Lexeme.Bare (Lexeme.cut own) ∧ after.cursor.rest = r.tail ∧
          after.cursor.slot = .pushed r.head?.toList ∧
          ∀ r' u u', StopsToken r' →
            Laid sv ((Mark.initial line col).through before) u (Lexeme.cut own) [v] u' →
              Takes sv endIsError line col u p v r') := by
  intro after
  obtain ⟨xs, x, st, hfound, hp, hcut, hlaid⟩ := h.exists_laid
  obtain ⟨pre, lexemes, hxs, hlast, hpre, hform, hown⟩ := hlaid.exists_own_last hfound.isSkipped
  obtain ⟨before, own, rfl, rfl, rfl⟩ := Lexeme.cut_eq_append (hp.trans hxs)
  have hworld : after.world = st.world := congrArg State.world hfound.state
  have hagain (hx : x.isClosed = true ∨ x.isBare = true) (r' : List Char) (u u' : W)
      (hstops : x.isBare = true → StopsToken r')
      (hlaid : Laid sv ((Mark.initial line col).through before) u (Lexeme.cut own) [v] u') :
      Takes sv endIsError line col u (before ++ own) v r' := by
    rw [← Mark.past_cut] at hlaid
    have hwhole := (Laid.of_isSkipped hpre (.initial line col) u).append hlaid
    rw [← hxs] at hwhole
    exact hwhole.takes hx hstops hp
  refine ⟨hfound.read, before, own, rfl, ?_, hpre, ?_, ?_⟩
  · rw [hcut, hp, hxs, List.append_assoc]
  · rwa [← Mark.past_cut, hworld]
  · rcases hform with hform | hform
    · have hclosed := hform.isClosed_last hlast
      obtain ⟨hrest, hslot⟩ := hfound.of_isClosed hclosed
      refine .inl ⟨hform, hrest, hslot,
        fun r' u u' => hagain (.inl hclosed) r' u u' fun hbare => ?_⟩
      rw [Lexeme.isBare_of_isClosed hclosed] at hbare
      cases hbare
    · have hbare := hform.isBare_last hlast
      obtain ⟨hrest, hslot⟩ := hfound.of_isBare hbare
      exact .inr ⟨hform, hrest, hslot,
        fun r' u u' hr => hagain (.inr hbare) r' u u' fun _ => hr⟩

/-- A list behind a comment, and a token. -/
theorem next_takes_comment :
    let sv : Services Store := .standard .standard
    let list (r : List Char) := Takes sv false none none .empty [';', '\n', '(', '"', ')', '"', ')']
      (.list [.text ")"] (some ⟨some 2, some 1, some 2, some 5⟩)) r
    let token (r : List Char) := Takes sv false none none .empty [' ', 'a', 'b']
      (.symbol ⟨⟨"ab", none⟩, 0⟩) r
    list ['x'] ∧ (∀ r, StopsToken r → list r) ∧ token [')'] ∧ ∀ r, StopsToken r → token r := by
  intro sv list token
  have hlist : list ['x'] := ⟨rfl, rfl⟩
  have htoken : token [')'] := ⟨rfl, rfl⟩
  refine ⟨hlist, fun r hr => ?_, htoken, fun r hr => ?_⟩
  · obtain ⟨-, before, own, -, -, -, hown, ⟨-, -, -, h⟩ | ⟨-, -, -, h⟩⟩ := next_takes hlist
    · exact h r _ _ hown
    · exact h r _ _ hr hown
  · obtain ⟨-, before, own, -, -, -, hown, ⟨-, -, -, h⟩ | ⟨-, -, -, h⟩⟩ := next_takes htoken
    · exact h r _ _ hown
    · exact h r _ _ hr hown

end LispForms
