import LispForms.Proofs.Passage
import LispForms.Proofs.Store.Extension

/-! Forms and the lexemes that they come from. The forms of a reading are laid out over the lexemes
of its text: a list over two parentheses that match and what stands between them, with the places of
the two for its span. What is laid out somewhere is read from there as it is laid out. -/

namespace LispForms

variable {W : Type}

/-! ### Parentheses that match -/

/-- How many lists are open behind lexemes in front of which `n` are; none if one is closed that
was not opened. -/
def Lexeme.depth? : Nat → List Lexeme → Option Nat
  | n, [] => some n
  | n, .opening :: xs => depth? (n + 1) xs
  | 0, .closing :: _ => none
  | n + 1, .closing :: xs => depth? n xs
  | n, _ :: xs => depth? n xs

/-- Every parenthesis is matched by another one. -/
def Lexeme.Balanced (xs : List Lexeme) : Prop := depth? 0 xs = some 0

open Lexeme (depth?)

theorem Lexeme.depth?_append (xs ys : List Lexeme) : ∀ n : Nat,
    depth? n (xs ++ ys) = (depth? n xs).bind (depth? · ys) := by
  induction xs with
  | nil => exact fun _ => rfl
  | cons x xs ih =>
    intro n
    cases x with
    | closing =>
      cases n with
      | zero => rfl
      | succ n => exact ih n
    | opening => exact ih (n + 1)
    | _ => exact ih n

/-! ### Layouts -/

/-- The place behind lexemes. -/
def Mark.past (m : Mark) (xs : List Lexeme) : Mark := m.through (xs.flatMap Lexeme.text)

theorem Mark.past_append (m : Mark) (xs ys : List Lexeme) :
    m.past (xs ++ ys) = (m.past xs).past ys := by
  rw [past, List.flatMap_append, through_append]
  rfl

theorem Mark.past_singleton (m : Mark) (x : Lexeme) : m.past [x] = m.through x.text := by
  rw [past, List.flatMap_singleton]

theorem Mark.past_enclosed (m : Mark) (xs : List Lexeme) :
    m.past (.opening :: (xs ++ [.closing])) = ((m.next ['(']).past xs).next [')'] :=
  past_append (m.next ['(']) xs [.closing]

theorem Mark.past_cut (m : Mark) (cs : List Char) : m.past (Lexeme.cut cs) = m.through cs := by
  rw [past, Lexeme.flatMap_text_cut]

/-- The span of a list that is opened at `first` and holds the lexemes. -/
def Span.over (first : Mark) (xs : List Lexeme) : Span :=
  .between first ((first.past xs).next [')'])

/-- The lexemes, which stand behind `m`, come to the forms, and the world goes from `w` to `w'`. -/
inductive Laid (sv : Services W) : Mark → W → List Lexeme → List Form → W → Prop
  | nil {m w} : Laid sv m w [] [] w
  | blank {m w} (c : Char) : Laid sv m w [.blank c] [] w
  | comment {m w} (body : List Char) (h : Lexeme.endsLine body = true) :
    Laid sv m w [.comment body] [] w
  | literal {m w x v} (h : Lexeme.literal? x = some (.ok v)) : Laid sv m w [x] [v] w
  | token {m w cs v w'} (h : sv.interpret Problem.unplaced cs w = (.ok v, w')) :
    Laid sv m w [.token cs] [v] w'
  | list {m w xs items w'} (h : Laid sv (m.next ['(']) w xs items w') :
    Laid sv m w (.opening :: (xs ++ [.closing])) [.list items (some (.over (m.next ['(']) xs))] w'
  | append {m w xs vs w₁ ys us w₂} (h : Laid sv m w xs vs w₁)
    (h' : Laid sv (m.past xs) w₁ ys us w₂) : Laid sv m w (xs ++ ys) (vs ++ us) w₂

/-- The state behind lexemes with which a reading begins at `m` in the world `w`: what it has read
is laid out over the lexemes, list in list. -/
inductive State.Stands (sv : Services W) (m : Mark) (w : W) : List Lexeme → State W → Prop
  | outside {xs fs w'} (h : Laid sv m w xs fs.reverse w') :
    Stands sv m w xs ⟨.between, [], fs, m.past xs, w'⟩
  | inside {xs ls fs m₁ w₁ ys items w₂} (h : Stands sv m w xs ⟨.between, ls, fs, m₁, w₁⟩)
    (hl : Laid sv (m₁.next ['(']) w₁ ys items.reverse w₂) :
    Stands sv m w (xs ++ .opening :: ys)
      ⟨.between, ⟨m₁.next ['('], items⟩ :: ls, fs, (m₁.next ['(']).past ys, w₂⟩

variable {sv : Services W} {cfg : Settings W} {m : Mark} {w w' : W} {xs ys : List Lexeme}
  {vs items : List Form} {v : Form} {x : Lexeme}

namespace Laid

theorem keeps {P : W → Prop} (hk : sv.Keeps P) (h : Laid sv m w xs vs w') : P w → P w' := by
  induction h with
  | nil | blank | comment | literal => exact id
  | @token m w cs v w' h =>
    intro hw
    have hi := hk.interpret hw Problem.unplaced cs
    rwa [h] at hi
  | list _ ih => exact ih
  | append _ _ ih ih' => exact ih' ∘ ih

theorem depth? (h : Laid sv m w xs vs w') : ∀ n : Nat, depth? n xs = some n := by
  induction h with
  | nil | blank | comment | token => exact fun _ => rfl
  | @literal m w x v h =>
    intro n
    cases x with
    | opening | closing => cases h
    | _ => rfl
  | list _ ih =>
    intro n
    show Lexeme.depth? (n + 1) (_ ++ [.closing]) = some n
    rw [Lexeme.depth?_append, ih]
    rfl
  | append _ _ ih ih' =>
    intro n
    rw [Lexeme.depth?_append, ih, Option.bind_some, ih']

theorem balanced (h : Laid sv m w xs vs w') : Lexeme.Balanced xs := h.depth? 0

end Laid

/-! ### What is read is laid out -/

namespace State

variable {ls : List OpenList} {fs : List Form} {m₁ : Mark} {w₁ w₂ : W} {st st' : State W}

/-- What is laid out to nothing is passed over. -/
theorem Stands.pass (h : Stands sv m w xs ⟨.between, ls, fs, m₁, w₁⟩)
    (hl : Laid sv m₁ w₁ ys [] w₂) :
    Stands sv m w (xs ++ ys) ⟨.between, ls, fs, m₁.past ys, w₂⟩ := by
  cases h with
  | outside h =>
    rw [← Mark.past_append]
    refine .outside ?_
    simpa using h.append hl
  | @inside xs ls fs m₀ w₀ zs items w₁ h hin =>
    rw [← Mark.past_append, List.append_assoc]
    refine .inside h ?_
    simpa using hin.append hl

/-- What is laid out to a form is put where the reading stands. -/
theorem Stands.put (hs : cfg.suppress = false) (hg : cfg.goal = .all)
    (h : Stands sv m w xs ⟨.between, ls, fs, m₁, w₁⟩) (hl : Laid sv m₁ w₁ ys [v] w₂) :
    Stands sv m w (xs ++ ys) (put cfg v ⟨.between, ls, fs, m₁.past ys, w₂⟩) := by
  cases h with
  | outside h =>
    rw [← Mark.past_append]
    simp only [State.put, hg, hs, Bool.false_eq_true, ↓reduceIte]
    refine .outside ?_
    rw [List.reverse_cons]
    exact h.append hl
  | @inside xs ls fs m₀ w₀ zs items w₁ h hin =>
    rw [← Mark.past_append, List.append_assoc]
    refine .inside h ?_
    rw [List.reverse_cons]
    exact hin.append hl

theorem Reads.stands (hs : cfg.suppress = false) (hg : cfg.goal = .all) (h : Reads cfg st x st')
    (hst : Stands cfg.services m w xs st) : Stands cfg.services m w (xs ++ [x]) st' := by
  cases h with
  | blank => exact hst.pass (.blank _)
  | @comment ls fs m₁ w₁ body hends =>
    have h := hst.pass (.comment body hends)
    rwa [Mark.past_singleton] at h
  | opening => exact .inside hst .nil
  | closing =>
    cases hst with
    | @inside xs ls fs m₀ w₀ ys items w₁ h hin =>
      have hclosed := h.put hs hg hin.list
      rw [Mark.past_enclosed] at hclosed
      simpa [Span.over] using hclosed
  | @literal ls fs m₁ w₁ x v hx =>
    have h := hst.put hs hg (.literal hx)
    rwa [Mark.past_singleton] at h
  | @token ls fs m₁ w₁ cs v w₂ hv =>
    cases hv with
    | value _ hv =>
      have h := hst.put hs hg (.token hv)
      rwa [Mark.past_singleton] at h
    | suppressed hs' => rw [hs] at hs'; cases hs'

theorem ReadsAll.stands (hs : cfg.suppress = false) (hg : cfg.goal = .all)
    (h : ReadsAll cfg st ys st') :
    ∀ {xs : List Lexeme}, Stands cfg.services m w xs st →
      Stands cfg.services m w (xs ++ ys) st' := by
  induction h with
  | nil =>
    intro xs hst
    rwa [List.append_nil]
  | cons hx _ ih =>
    intro xs hst
    have h := ih (hx.stands hs hg hst)
    rwa [List.append_assoc] at h

/-- The forms outside of lists are laid out over the first of the lexemes. -/
theorem Stands.exists_laid (h : Stands sv m w xs st) : ∃ ys zs w', xs = ys ++ zs ∧
    Laid sv m w ys st.forms.reverse w' ∧ ∀ P, sv.Keeps P → P w' → P st.world := by
  induction h with
  | outside h => exact ⟨_, [], _, (List.append_nil _).symm, h, fun _ _ => id⟩
  | inside _ hl ih =>
    obtain ⟨ys, zs, w', rfl, hlaid, hkeeps⟩ := ih
    refine ⟨ys, zs ++ .opening :: _, w', List.append_assoc _ _ _, hlaid, fun P hk hw => ?_⟩
    exact hl.keeps hk (hkeeps P hk hw)

end State

/-- The forms that a run comes to are laid out over the first lexemes of its text. -/
theorem exists_laid (hs : cfg.suppress = false) (hg : cfg.goal = .all)
    (he : cfg.ending = .complete) (cs : List Char) (m : Mark) (w : W) :
    let o := run cfg (.initial m w) cs
    ∃ xs ys w', Lexeme.cut cs = xs ++ ys ∧ Laid cfg.services m w xs o.forms w' ∧
      ∀ P, cfg.services.Keeps P → P w' → P o.state.world := by
  intro o
  obtain ⟨xs, ys, st, rest, hcut, hall, hrun, hforms⟩ :=
    @exists_readsAll_forms _ cfg hg he cs (.initial m w) rfl
  have hstart : State.Stands cfg.services m w [] (.initial m w) := .outside .nil
  obtain ⟨xs₁, xs₂, w', rfl, hlaid, hkeeps⟩ := (hall.stands hs hg hstart).exists_laid
  refine ⟨xs₁, xs₂ ++ ys, w', ?_, ?_, fun P hk hw => ?_⟩
  · rw [hcut, List.append_assoc]
  · show Laid _ m w xs₁ (run cfg (.initial m w) cs).state.forms.reverse w'
    rwa [hforms]
  · show P (run cfg (.initial m w) cs).state.world
    rw [hrun]
    exact hk.run rest (hkeeps P hk hw)

/-! ### What is laid out is read -/

namespace State

/-- Takes forms in where the state stands. -/
def putAll (vs : List Form) (st : State W) : State W :=
  match st.lists with
  | l :: ls => { st with lists := { l with items := vs.reverse ++ l.items } :: ls }
  | [] => { st with forms := vs.reverse ++ st.forms }

theorem putAll_nil (st : State W) : st.putAll [] = st := by
  obtain ⟨mode, ls, fs, m, w⟩ := st
  cases ls <;> rfl

theorem putAll_singleton (hs : cfg.suppress = false) (hg : cfg.goal = .all) (v : Form) :
    putAll [v] ⟨.between, ls, fs, m, w⟩ = put cfg v ⟨.between, ls, fs, m, w⟩ := by
  cases ls with
  | nil => simp [putAll, put, hs, hg]
  | cons l ls => rfl

end State

open State (ReadsAll putAll)

/-- What is laid out behind a place is read there, and its forms are taken in. -/
theorem Laid.readsAll (hs : cfg.suppress = false) (hg : cfg.goal = .all)
    (h : Laid cfg.services m w xs vs w') : ∀ (ls : List OpenList) (fs : List Form),
      ReadsAll cfg ⟨.between, ls, fs, m, w⟩ xs (putAll vs ⟨.between, ls, fs, m.past xs, w'⟩) := by
  induction h with
  | nil =>
    intro ls fs
    rw [State.putAll_nil]
    exact .nil
  | blank c =>
    intro ls fs
    rw [State.putAll_nil]
    exact .single .blank
  | @comment m w body hends =>
    intro ls fs
    rw [State.putAll_nil, Mark.past_singleton]
    exact .single (.comment hends)
  | @literal m w x v hx =>
    intro ls fs
    rw [State.putAll_singleton hs hg, Mark.past_singleton]
    exact .single (.literal hx)
  | @token m w cs v w' hv =>
    intro ls fs
    rw [State.putAll_singleton hs hg, Mark.past_singleton]
    exact .single (.token (.value hs hv))
  | @list m w xs items w' _ ih =>
    intro ls fs
    have hin := ih (⟨m.next ['('], []⟩ :: ls) fs
    rw [State.putAll_singleton hs hg, Mark.past_enclosed]
    refine .cons .opening (hin.append (.single ?_))
    have hclosing := @State.Reads.closing _ cfg ⟨m.next ['('], items.reverse⟩ ls fs
      ((m.next ['(']).past xs) w'
    rw [List.reverse_reverse] at hclosing
    simpa [putAll, Span.over] using hclosing
  | @append m w xs vs w₁ ys us w₂ _ _ ih ih' =>
    intro ls fs
    rw [Mark.past_append]
    refine (ih ls fs).append ?_
    cases ls with
    | nil => simpa [putAll] using ih' [] (vs.reverse ++ fs)
    | cons l ls => simpa [putAll] using ih' ({ l with items := vs.reverse ++ l.items } :: ls) fs

/-- A text that is laid out as a whole is read as it is laid out. -/
theorem Laid.read {line col : Option Int} {text : String}
    (h : Laid sv (.initial line col) (sv.note (Source.ofString text).opening w)
      (Lexeme.cut text.toList) vs w') :
    read sv ⟨false, false, line, col⟩ (.ofString text) w = ⟨vs, none, w'⟩ := by
  have hall := @Laid.readsAll _ (.plain sv) _ _ _ _ _ rfl rfl h [] []
  obtain ⟨rest, hrest, -, hrun⟩ := hall.run rfl rfl rfl (List.append_nil _).symm
  obtain rfl : rest = [] := Lexeme.cut_injective (hrest.trans Lexeme.cut_nil.symm)
  rw [read_ofString]
  show (⟨(run (.plain sv) (.initial (.initial line col) _) text.toList).forms,
    (run (.plain sv) (.initial (.initial line col) _) text.toList).fault?,
    (run (.plain sv) (.initial (.initial line col) _) text.toList).state.world⟩ : Reading W) = _
  rw [State.initial, hrun, run_nil _ rfl]
  simp [Outcome.forms, Outcome.fault?, State.close, State.endBetween, State.advance, Outcome.past,
    putAll]

/-- A layout stays the same as long as nothing is taken from the store. -/
theorem Laid.later {env : Host.Environment} {s t : Store} (h : Laid (.standard env) m s xs vs t) :
    ∀ {u : Store}, t.Extends u → ∃ u', Laid (.standard env) m u xs vs u' ∧ u.Extends u' := by
  induction h with
  | nil => exact fun {u} _ => ⟨u, .nil, .refl u⟩
  | blank c => exact fun {u} _ => ⟨u, .blank c, .refl u⟩
  | comment body hends => exact fun {u} _ => ⟨u, .comment body hends, .refl u⟩
  | literal hx => exact fun {u} _ => ⟨u, .literal hx, .refl u⟩
  | token hv =>
    intro u hu
    obtain ⟨u', hv', hext⟩ := Services.interpret_of_extends hv hu
    exact ⟨u', .token hv', hext⟩
  | list _ ih =>
    intro u hu
    obtain ⟨u', h, hext⟩ := ih hu
    exact ⟨u', .list h, hext⟩
  | @append m s xs vs s₁ ys us s₂ _ h ih ih' =>
    intro u hu
    have hfirst : s₁.Extends s₂ := h.keeps (Store.keeps_extends env s₁) (.refl s₁)
    obtain ⟨u₁, h₁, hext₁⟩ := ih (hfirst.trans hu)
    obtain ⟨u₂, h₂, hext₂⟩ := ih' (hu.trans hext₁)
    exact ⟨u₂, .append h₁ h₂, hext₁.trans hext₂⟩

end LispForms
