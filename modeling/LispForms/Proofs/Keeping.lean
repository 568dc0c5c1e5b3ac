import LispForms.Proofs.Bare
import LispForms.Proofs.Step
import LispForms.Reader.Context

/-! What the answers of the services keep, a reading keeps: only the value of a token changes the
world. What the services see to for the value of a name when they give it, and keep when they give
others, holds of every form at the end of a run, in lists and outside, however the run ends. -/

namespace LispForms

variable {W : Type} {sv : Services W} {R : W → W → Prop} {P : W → Prop} {Q : W → Form → Prop}
  {cfg : Settings W} {st : State W} {w v : W} {u : Form}

namespace Form

/-- A form that does without the world: it has no parts and names nothing in it. -/
def isConstant : Form → Bool
  | symbol _ | space _ | var _ | pair _ _ | list _ _ => false
  | _ => true

theorem isConstant_quotient (num den : Int) : (quotient num den).isConstant = true := by
  unfold quotient
  split
  split <;> rfl

/-- The constants that a text can denote: a ratio has a denominator, and a float is as near as can
be to a decimal. -/
inductive Denoted : Form → Prop
  | nil : Denoted .nil
  | text (s : String) : Denoted (.text s)
  | integer (n : Int) : Denoted (.integer n)
  | quotient (num : Int) {den : Nat} (h : den ≠ 0) : Denoted (.quotient num den)
  | float (negative : Bool) (d : Number.Decimal) :
    Denoted (.float ⟨negative, Number.Binary64.nearest d⟩)
  | accessor (member : String) : Denoted (.accessor member)
  | className (type : Host.Ref) (name : String) : Denoted (.className type name)
  | instanceMember (type : Host.Ref) (member name : String) :
    Denoted (.instanceMember type member name)
  | staticMember (type : Host.Ref) (member name : String) :
    Denoted (.staticMember type member name)

theorem Denoted.isConstant {v : Form} (h : v.Denoted) : v.isConstant = true := by
  cases h with
  | quotient num h => exact isConstant_quotient _ _
  | _ => rfl

end Form

namespace Services

/-- Related worlds get the same answers and stay related. -/
structure Respects (sv : Services W) (R : W → W → Prop) : Prop where
  symbol : ∀ {w v} name, R w v →
    (sv.symbol name v).1 = (sv.symbol name w).1 ∧ R (sv.symbol name w).2 (sv.symbol name v).2
  var : ∀ {w v} ns name, R w v →
    (sv.var ns name v).1 = (sv.var ns name w).1 ∧ R (sv.var ns name w).2 (sv.var ns name v).2
  host : ∀ {w v} path, R w v →
    (sv.host path v).1 = (sv.host path w).1 ∧ R (sv.host path w).2 (sv.host path v).2
  note : ∀ {w v} n, R w v → R (sv.note n w) (sv.note n v)

/-- A world and itself get the same answers. -/
theorem respects_eq (sv : Services W) : sv.Respects Eq where
  symbol _ h := h ▸ ⟨rfl, rfl⟩
  var _ _ h := h ▸ ⟨rfl, rfl⟩
  host _ h := h ▸ ⟨rfl, rfl⟩
  note _ h := h ▸ rfl

theorem Respects.resolve (hr : sv.Respects R) (h : R w v) (locate : Problem → Fault)
    (path : String) : (sv.resolve locate path v).1 = (sv.resolve locate path w).1 ∧
      R (sv.resolve locate path w).2 (sv.resolve locate path v).2 := by
  obtain ⟨h1, h2⟩ := hr.host path h
  unfold Services.resolve
  cases hw : sv.host path w with
  | mk r w' =>
    cases hv : sv.host path v with
    | mk r' v' =>
      rw [hw, hv] at h1 h2
      obtain rfl : r' = r := h1
      rcases r' with (_ | _ | _) | _ <;> exact ⟨rfl, h2⟩

theorem Respects.value (hr : sv.Respects R) (h : R w v) (locate : Problem → Fault)
    (token : String) (m : Token.Meaning) :
    (sv.value locate token m v).1 = (sv.value locate token m w).1 ∧
      R (sv.value locate token m w).2 (sv.value locate token m v).2 := by
  cases m with
  | nil | integer | float | ratio | accessor => exact ⟨rfl, h⟩
  | symbol name => exact ⟨congrArg Except.ok (hr.symbol name h).1, (hr.symbol name h).2⟩
  | var ns name => exact ⟨congrArg Except.ok (hr.var ns name h).1, (hr.var ns name h).2⟩
  | className path | instanceMember path member | staticMember path member =>
    obtain ⟨h1, h2⟩ := hr.resolve h locate path
    exact ⟨congrArg (Except.map _) h1, h2⟩

theorem Respects.interpret (hr : sv.Respects R) (h : R w v) (locate : Problem → Fault)
    (token : List Char) : (sv.interpret locate token v).1 = (sv.interpret locate token w).1 ∧
      R (sv.interpret locate token w).2 (sv.interpret locate token v).2 := by
  unfold Services.interpret
  cases Token.classify token with
  | none => exact ⟨rfl, h⟩
  | some km => exact hr.value (hr.note _ h) locate _ km.2

end Services

/-- What holds of a world holds of it after every answer. -/
structure Services.Keeps (sv : Services W) (P : W → Prop) : Prop where
  symbol : ∀ {w} name, P w → P (sv.symbol name w).2
  var : ∀ {w} ns name, P w → P (sv.var ns name w).2
  host : ∀ {w} path, P w → P (sv.host path w).2
  note : ∀ {w} n, P w → P (sv.note n w)

namespace Services.Keeps

theorem and {Q : W → Prop} (hp : sv.Keeps P) (hq : sv.Keeps Q) : sv.Keeps fun w => P w ∧ Q w where
  symbol name h := ⟨hp.symbol name h.1, hq.symbol name h.2⟩
  var ns name h := ⟨hp.var ns name h.1, hq.var ns name h.2⟩
  host path h := ⟨hp.host path h.1, hq.host path h.2⟩
  note n h := ⟨hp.note n h.1, hq.note n h.2⟩

/-- Of one world and itself, services that keep something ask for no more. -/
theorem respects (hk : sv.Keeps P) : sv.Respects fun w v => w = v ∧ P w where
  symbol name h := ⟨by rw [h.1], by rw [h.1], hk.symbol name h.2⟩
  var ns name h := ⟨by rw [h.1], by rw [h.1], hk.var ns name h.2⟩
  host path h := ⟨by rw [h.1], by rw [h.1], hk.host path h.2⟩
  note n h := ⟨by rw [h.1], hk.note n h.2⟩

theorem interpret (hk : sv.Keeps P) (h : P w) (locate : Problem → Fault) (token : List Char) :
    P (sv.interpret locate token w).2 :=
  (hk.respects.interpret ⟨rfl, h⟩ locate token).2.2

end Services.Keeps

/-- The state behind a step. -/
def Step.state : Step W → State W
  | .on st | .past st _ _ | .back st _ => st

@[simp] theorem State.state_proceed (st : State W) (before : Mark) :
    (st.proceed cfg before).state = st := by
  unfold proceed
  split <;> rfl

/-! ### Forms -/

/-- What holds of the values of names, with what holds of the world. -/
structure Services.Yields (sv : Services W) (P : W → Prop) (Q : W → Form → Prop) : Prop where
  keeps : sv.Keeps P
  later : ∀ v, sv.Keeps fun w => P w ∧ Q w v
  symbol : ∀ {w} name, P w → Q (sv.symbol name w).2 (sv.symbol name w).1
  var : ∀ {w} ns name, P w → Q (sv.var ns name w).2 (sv.var ns name w).1
  constant : ∀ {w v}, v.Denoted → Q w v
  list : ∀ {w items} span, (∀ v ∈ items, Q w v) → Q w (.list items span)

/-- It holds of the world of a state and of every form in it. -/
structure State.Holds (P : W → Prop) (Q : W → Form → Prop) (st : State W) : Prop where
  world : P st.world
  forms : ∀ v ∈ st.forms, Q st.world v
  items : ∀ l ∈ st.lists, ∀ v ∈ l.items, Q st.world v

namespace State.Holds

theorem initial (h : P w) (m : Mark) : (State.initial m w).Holds P Q :=
  ⟨h, fun _ hv => (List.not_mem_nil hv).elim, fun _ hl => (List.not_mem_nil hl).elim⟩

/-- Where the reading stands does not matter. -/
theorem moved (h : st.Holds P Q) (mode : Mode) (mark : Mark) :
    State.Holds P Q { st with mode, mark } :=
  ⟨h.world, h.forms, h.items⟩

theorem opened (h : st.Holds P Q) (start : Mark) :
    State.Holds P Q { st with lists := ⟨start, []⟩ :: st.lists } := by
  refine ⟨h.world, h.forms, fun l hl => ?_⟩
  rcases List.mem_cons.1 hl with rfl | hl
  · exact fun _ hv => (List.not_mem_nil hv).elim
  · exact h.items l hl

theorem put (hy : cfg.services.Yields P Q) (h : st.Holds P Q) (hu : Q st.world u) :
    (st.put cfg u).Holds P Q := by
  obtain ⟨mode, ls, fs, m, w⟩ := st
  cases ls with
  | cons l ls =>
    refine ⟨h.world, h.forms, List.forall_mem_cons.2 ⟨?_, fun k hk => h.items k (.tail l hk)⟩⟩
    exact List.forall_mem_cons.2 ⟨hu, h.items l List.mem_cons_self⟩
  | nil =>
    refine ⟨h.world, List.forall_mem_cons.2 ⟨?_, h.forms⟩, h.items⟩
    split
    · exact hu
    · split
      · exact hy.constant .nil
      · exact hu

/-- The innermost list is complete. -/
theorem closed (hy : cfg.services.Yields P Q) {l : OpenList} {ls : List OpenList}
    (h : st.Holds P Q) (hl : st.lists = l :: ls) (span : Option Span) :
    (State.put cfg (.list l.items.reverse span) { st with lists := ls }).Holds P Q := by
  have hmem : l ∈ st.lists := hl ▸ List.mem_cons_self
  refine put hy ⟨h.world, h.forms, fun k hk => h.items k (hl ▸ List.mem_cons_of_mem l hk)⟩ ?_
  exact hy.list span fun v hv => h.items l hmem v (List.mem_reverse.1 hv)

theorem beginForm (hy : cfg.services.Yields P Q) (h : st.Holds P Q) (before : Mark) (p : Piece) :
    (st.beginForm cfg before p).state.Holds P Q := by
  cases p with
  | nil => exact h
  | cons c more =>
    simp only [State.beginForm]
    split_ifs
    iterate 2 exact h
    iterate 4 exact h.moved _ _
    · exact h.opened _
    · split
      next hl =>
        rw [state_proceed]
        exact h.closed hy hl _
      next => exact h
    · exact h.moved _ _

theorem take (hy : cfg.services.Yields P Q) (h : st.Holds P Q) (p : Piece) :
    (st.take cfg p).state.Holds P Q := by
  obtain ⟨mode, ls, fs, m, w⟩ := st
  have h := h.moved mode (m.next p)
  cases mode with
  | between => exact beginForm hy h _ _
  | comment =>
    simp only [State.take, advance]
    split
    · exact h.moved _ _
    · exact h
  | string g =>
    simp only [State.take, advance]
    split
    · rw [state_proceed]
      exact put hy h (hy.constant (.text _))
    · split <;> exact h.moved _ _
  | escape g =>
    simp only [State.take, advance]
    split
    · split
      · exact h.moved _ _
      · exact h
    · exact h
  | token | backslash | character => exact h.moved _ _

end State.Holds

namespace Services.Yields

theorem value (hy : sv.Yields P Q) (h : P w) {locate : Problem → Fault} {token : String}
    {m : Token.Meaning} (hv : (sv.value locate token m w).1 = .ok u) :
    Q (sv.value locate token m w).2 u := by
  have constant {α : Type} {r : Except Fault α} {f : α → Form} {w : W}
      (hf : ∀ a, (f a).Denoted) (hv : r.map f = .ok u) : Q w u := by
    cases r with
    | error => cases hv
    | ok a =>
      obtain rfl := Except.ok.inj hv
      exact hy.constant (hf a)
  cases m with
  | nil =>
    obtain rfl := Except.ok.inj hv
    exact hy.constant .nil
  | symbol name =>
    obtain rfl := Except.ok.inj hv
    exact hy.symbol name h
  | var ns name =>
    obtain rfl := Except.ok.inj hv
    exact hy.var ns name h
  | integer => exact constant (fun _ => .integer _) hv
  | float negative d =>
    obtain rfl := Except.ok.inj hv
    exact hy.constant (.float negative d)
  | ratio negative num den =>
    obtain ⟨n, d, -, -, hd, rfl⟩ := ratio_eq_ok_iff.1 hv
    exact hy.constant (.quotient _ hd)
  | accessor member =>
    obtain rfl := Except.ok.inj hv
    exact hy.constant (.accessor member)
  | className path => exact constant (.className · path) hv
  | instanceMember path member => exact constant (.instanceMember · member path) hv
  | staticMember path member => exact constant (.staticMember · member path) hv

theorem interpret (hy : sv.Yields P Q) (h : P w) {locate : Problem → Fault} {token : List Char}
    (hv : (sv.interpret locate token w).1 = .ok u) : Q (sv.interpret locate token w).2 u := by
  unfold Services.interpret at hv ⊢
  cases hm : Token.classify token with
  | none =>
    rw [hm] at hv
    cases hv
  | some km =>
    simp only [hm] at hv ⊢
    exact hy.value (hy.keeps.note _ h) hv

/-- The forms of a state stay what they are when a token is given its value. -/
theorem holds_interpret (hy : sv.Yields P Q) (h : st.Holds P Q) (locate : Problem → Fault)
    (token : List Char) :
    State.Holds P Q { st with world := (sv.interpret locate token st.world).2 } :=
  ⟨hy.keeps.interpret h.world locate token,
    fun v hv => ((hy.later v).interpret ⟨h.world, h.forms v hv⟩ locate token).2,
    fun l hl v hv => ((hy.later v).interpret ⟨h.world, h.items l hl v hv⟩ locate token).2⟩

theorem settle (hy : cfg.services.Yields P Q) (h : st.Holds P Q) :
    (st.settle cfg).1.Holds P Q := by
  unfold State.settle
  split
  next g _ =>
    split
    · exact h.put hy (hy.constant .nil)
    · have hi := hy.holds_interpret h (st.locate cfg) g.reverse
      split
      next hv =>
        have hQ := hy.interpret h.world (congrArg Prod.fst hv)
        rw [hv] at hi hQ
        exact hi.put hy hQ
      next hv =>
        rw [hv] at hi
        exact hi
  · split
    · exact h.put hy (hy.constant (.text _))
    · exact h
  · exact h

theorem feed (hy : cfg.services.Yields P Q) (h : st.Holds P Q) (p : Piece) :
    (st.feed cfg p).state.Holds P Q := by
  have hs := hy.settle h
  unfold State.feed
  split
  · split
    next hst =>
      rw [hst] at hs
      exact hs
    next hst =>
      rw [hst] at hs
      split
      · exact hs
      · exact hs.take hy p
  · exact h.take hy p

theorem close (hy : cfg.services.Yields P Q) (h : st.Holds P Q) (rest : List Char) :
    (st.close cfg rest).state.Holds P Q := by
  have hs := hy.settle h
  unfold State.close
  split
  iterate 5 exact h.moved _ _
  all_goals
    split
    next hst =>
      rw [hst] at hs
      exact hs
    next hst =>
      rw [hst] at hs
      split
      · exact hs
      · exact hs.moved _ _

theorem run (hy : cfg.services.Yields P Q) (cs : List Char) : ∀ {st : State W}, st.Holds P Q →
    (run cfg st cs).state.Holds P Q := by
  induction cs with
  | nil =>
    intro st h
    rw [LispForms.run]
    cases cfg.ending with
    | undecodable => exact h
    | complete => exact hy.close h []
  | cons c cs ih =>
    intro st h
    have hf := hy.feed h [c]
    rw [LispForms.run]
    split
    next hst =>
      rw [hst] at hf
      exact ih hf
    next hst =>
      rw [hst] at hf
      exact hf
    next hst =>
      rw [hst] at hf
      exact hf

theorem runFrom (hy : cfg.services.Yields P Q) (c : Cursor) (h : P w) :
    (runFrom cfg c w).state.Holds P Q := by
  have hst : (State.initial c.mark w).Holds P Q := .initial h _
  unfold LispForms.runFrom
  dsimp only
  split
  · exact hy.close hst _
  next p _ _ =>
    have hf := hy.feed hst p
    split
    next hnext =>
      rw [hnext] at hf
      exact hy.run _ hf
    next hnext =>
      rw [hnext] at hf
      exact hf
    next hnext =>
      rw [hnext] at hf
      exact hf
  · exact hy.run _ hst

end Services.Yields

/-- Of the world nothing need hold. -/
theorem Services.keeps_true (sv : Services W) : sv.Keeps fun _ => True :=
  ⟨fun _ _ => trivial, fun _ _ _ => trivial, fun _ _ => trivial, fun _ _ => trivial⟩

/-- Of the forms nothing need hold. -/
theorem Services.Keeps.yields (hk : sv.Keeps P) : sv.Yields P fun _ _ => True where
  keeps := hk
  later _ := hk.and sv.keeps_true
  symbol _ _ := trivial
  var _ _ _ := trivial
  constant _ := trivial
  list _ _ := trivial

/-- What the services keep holds after a run, however it ends. -/
theorem Services.Keeps.run (hk : cfg.services.Keeps P) (cs : List Char) {st : State W}
    (h : P st.world) : P (run cfg st cs).state.world :=
  (hk.yields.run cs ⟨h, fun _ _ => trivial, fun _ _ _ _ => trivial⟩).world

/-! ### Readings -/

namespace Services.Yields

/-- What the services see to holds of the forms of a reading, whether or not it fails. -/
theorem read (hy : sv.Yields P Q) (opts : Options) (source : Source) (h : P w) :
    P (read sv opts source w).world ∧
      ∀ v ∈ (read sv opts source w).forms, Q (read sv opts source w).world v := by
  have hrun := @run W P Q (opts.settings sv source) hy source.text.chars _
    (.initial (hy.keeps.note source.opening h) (.initial opts.line opts.col))
  exact ⟨hrun.world, fun v hv => hrun.forms v (List.mem_reverse.1 hv)⟩

theorem next (hy : sv.Yields P Q) (endIsError : Bool) (c : Context W) (h : P c.world) :
    P (c.next sv endIsError).2.world ∧
      ∀ v, (c.next sv endIsError).1 = .ok (some v) → Q (c.next sv endIsError).2.world v := by
  have hrun := @runFrom W P Q (c.settings sv .one endIsError) _ hy c.cursor h
  refine ⟨hrun.world, fun v hv => hrun.forms v ?_⟩
  unfold Context.next at hv
  dsimp only at hv
  split at hv
  · exact List.mem_reverse.1 (List.mem_of_mem_head? (Except.ok.inj hv))
  · cases hv
  · cases hv

end Services.Yields
end LispForms
