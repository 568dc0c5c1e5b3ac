import LispForms.Proofs.Keeping

/-! Readings that are images of one another. A map of forms that keeps strings and the items of
lists, and a map of worlds, carry each step of one reading over to a step of the other, as long as
what comes of tokens is carried over. -/

namespace LispForms

variable {W V : Type}

/-- What becomes of the forms and the world of a reading. -/
structure Image (W V : Type) where
  form : Form → Form
  /-- What becomes of a form that is in no list. -/
  outside : Form → Form
  world : W → V
  text : ∀ s, form (.text s) = .text s
  list : ∀ items span, form (.list items span) = .list (items.map form) span

/-- What a reading keeps of a form that is in no list. -/
def Settings.kept (cfg : Settings W) (v : Form) : Form :=
  match cfg.goal with
  | .upTo _ => v
  | _ => if cfg.suppress then .nil else v

/-- The settings of a reading for the same with other services. -/
abbrev Settings.over (cfg : Settings W) (sv : Services V) (suppress : Bool) : Settings V :=
  ⟨sv, cfg.goal, suppress, cfg.endIsError, cfg.source, cfg.ending⟩

section

variable (f : Image W V)

def State.image (st : State W) : State V :=
  ⟨st.mode, st.lists.map fun l => ⟨l.start, l.items.map f.form⟩, st.forms.map f.outside, st.mark,
    f.world st.world⟩

def Step.image : Step W → Step V
  | .on st => .on (st.image f)
  | .past st stop before => .past (st.image f) stop before
  | .back st stop => .back (st.image f) stop

def Outcome.image (o : Outcome W) : Outcome V := ⟨o.state.image f, o.stop, o.cursor⟩

/-- What is kept of a form is carried over. -/
def Image.Keeps (cfg : Settings W) (sv : Services V) (suppress : Bool) : Prop :=
  ∀ v, (cfg.over sv suppress).kept (f.form v) = f.outside (cfg.kept v)

/-- What ends here is completed in the same way in both readings. -/
def State.Settles (cfg : Settings W) (sv : Services V) (suppress : Bool) (st : State W) : Prop :=
  (st.image f).settle (cfg.over sv suppress) = ((st.settle cfg).1.image f, (st.settle cfg).2)

end

/-- What comes of tokens is carried over from the worlds of `P`; their faults need only be if
`faults` holds. -/
structure Image.Carries (f : Image W V) (cfg : Settings W) (sv : Services V) (suppress : Bool)
    (P : W → Prop) (faults : Prop) : Prop where
  keeps : cfg.services.Keeps P
  kept : f.Keeps cfg sv suppress
  token : ∀ st : State W, P st.world → faults ∨ (st.settle cfg).2 = none →
    ∀ g, st.mode = .token g → st.Settles f cfg sv suppress

variable {f : Image W V} {cfg : Settings W} {sv : Services V} {suppress : Bool} {P : W → Prop}
  {faults : Prop} {st : State W}

theorem Step.ite_image {c : Prop} [Decidable c] {a b : Step W} {a' b' : Step V}
    (ha : a' = a.image f) (hb : b' = b.image f) :
    (if c then a' else b') = (if c then a else b).image f := by
  split <;> assumption

namespace State

theorem put_image (hk : f.Keeps cfg sv suppress) (v : Form) (st : State W) :
    (st.image f).put (cfg.over sv suppress) (f.form v) = (st.put cfg v).image f := by
  obtain ⟨mode, ls, fs, m, w⟩ := st
  cases ls with
  | cons l ls => rfl
  | nil =>
    exact congrArg (fun u => State.mk .between [] (u :: fs.map f.outside) m (f.world w)) (hk v)

/-- Of what can end, only the value of a token depends on the services. -/
theorem settles (hc : f.Carries cfg sv suppress P faults) (hw : P st.world)
    (hf : faults ∨ (st.settle cfg).2 = none) : st.Settles f cfg sv suppress := by
  obtain ⟨mode, ls, fs, m, w⟩ := st
  cases mode with
  | token g => exact hc.token _ hw hf g rfl
  | character g =>
    let st : State W := ⟨.character g, ls, fs, m, w⟩
    have hmode : (st.image f).mode = .character g := rfl
    show (st.image f).settle _ = ((st.settle cfg).1.image f, (st.settle cfg).2)
    unfold settle
    rw [hmode]
    dsimp only [st]
    cases Token.character? g.reverse with
    | none => rfl
    | some c =>
      have hput := put_image hc.kept (.text (.singleton c)) st
      rw [f.text] at hput
      exact congrArg (·, none) hput
  | _ => rfl

theorem settle_of_token {g : List Char} (cfg : Settings W) {st : State W}
    (hmode : st.mode = .token g) :
    st.settle cfg = if cfg.suppress then (st.put cfg .nil, none)
      else match cfg.services.interpret (st.locate cfg) g.reverse st.world with
        | (.ok v, w) => (put cfg v { st with world := w }, none)
        | (.error e, w) => ({ st with world := w }, some e) := by
  obtain ⟨mode, ls, fs, m, w⟩ := st
  obtain rfl : mode = .token g := hmode
  rfl

/-- A token settles where its value or its fault is carried over. -/
theorem settles_token (hk : f.Keeps cfg sv cfg.suppress) (hnil : f.form .nil = .nil) {g : List Char}
    (hmode : st.mode = .token g)
    (hi : let r := cfg.services.interpret (st.locate cfg) g.reverse st.world
      sv.interpret (st.locate cfg) g.reverse (f.world st.world) =
        (r.1.map f.form, f.world r.2)) : st.Settles f cfg sv cfg.suppress := by
  have himage : (st.image f).mode = .token g := hmode
  have hsuppress : (cfg.over sv cfg.suppress).suppress = cfg.suppress := rfl
  have hlocate : (st.image f).locate (cfg.over sv cfg.suppress) = st.locate cfg := rfl
  have hworld : (st.image f).world = f.world st.world := rfl
  unfold Settles
  rw [settle_of_token _ himage, settle_of_token _ hmode, hsuppress, hlocate, hworld, hi]
  split
  · have hput := put_image hk .nil st
    rw [hnil] at hput
    exact congrArg (·, none) hput
  · rcases cfg.services.interpret (st.locate cfg) g.reverse st.world with ⟨e | v, w⟩
    · rfl
    · exact congrArg (·, none) (put_image hk v { st with world := w })

theorem satisfied_image (st : State W) :
    (st.image f).satisfied (cfg.over sv suppress) = st.satisfied cfg := by
  simp only [satisfied, image, List.isEmpty_map]

theorem proceed_image (st : State W) (before : Mark) :
    (st.image f).proceed (cfg.over sv suppress) before = (st.proceed cfg before).image f := by
  rw [proceed, proceed, satisfied_image]
  split <;> rfl

theorem beginForm_image (hk : f.Keeps cfg sv suppress) (st : State W) (before : Mark) (p : Piece) :
    (st.image f).beginForm (cfg.over sv suppress) before p =
      (st.beginForm cfg before p).image f := by
  obtain ⟨mode, ls, fs, m, w⟩ := st
  cases p with
  | nil => rfl
  | cons c more =>
    simp only [beginForm, image, List.isEmpty_map]
    -- all cases but the last but one leave the forms alone
    iterate 7 refine Step.ite_image rfl ?_
    refine Step.ite_image ?_ rfl
    cases ls with
    | nil => rfl
    | cons l ls =>
      have hlist (span : Span) : Form.list (l.items.map f.form).reverse (some span) =
          f.form (.list l.items.reverse (some span)) := by
        rw [f.list, List.map_reverse]
      simp only [List.map_cons]
      rw [hlist, ← proceed_image, ← put_image hk]
      rfl

theorem take_image (hk : f.Keeps cfg sv suppress) (st : State W) (p : Piece) :
    (st.image f).take (cfg.over sv suppress) p = (st.take cfg p).image f := by
  obtain ⟨mode, ls, fs, m, w⟩ := st
  cases mode with
  | between => exact beginForm_image hk ⟨.between, ls, fs, m.next p, w⟩ m p
  | token | backslash | character => rfl
  | comment =>
    simp only [take, image, advance]
    split <;> rfl
  | string g =>
    simp only [take, image, advance]
    split
    · rw [← proceed_image, ← put_image hk, f.text]
      rfl
    · split <;> rfl
  | escape g =>
    simp only [take, image, advance]
    split
    · split <;> rfl
    · rfl

/-- A step that does not fail at what it completes is the same step in both readings. -/
theorem feed_image (hc : f.Carries cfg sv suppress P faults) (hw : P st.world) (p : Piece)
    (hf : faults ∨ ∀ st' e, st.feed cfg p ≠ .back st' (.failed e)) :
    (st.image f).feed (cfg.over sv suppress) p = (st.feed cfg p).image f := by
  have hmode : (st.image f).mode = st.mode := rfl
  unfold feed at hf ⊢
  rw [hmode]
  split
  next hends =>
    simp only [hends, ↓reduceIte] at hf
    have hsettle : faults ∨ (st.settle cfg).2 = none := by
      refine hf.imp_right fun hf => ?_
      rcases hs : st.settle cfg with ⟨st', _ | e⟩
      · rfl
      · exact absurd (by rw [hs]) (hf st' e)
    rw [settles hc hw hsettle]
    rcases st.settle cfg with ⟨st', _ | e⟩
    · simp only [satisfied_image]
      split
      · rfl
      · exact take_image hc.kept st' p
    · rfl
  · exact take_image hc.kept st p

theorem endBetween_image (st : State W) (rest : List Char) :
    (st.image f).endBetween (cfg.over sv suppress) rest = (st.endBetween cfg rest).image f := by
  simp only [endBetween, image, List.isEmpty_map]
  rfl

theorem close_image (hc : f.Carries cfg sv suppress P faults) (hw : P st.world) (rest : List Char)
    (hf : faults ∨ (st.close cfg rest).fault? = none) :
    (st.image f).close (cfg.over sv suppress) rest = (st.close cfg rest).image f := by
  have hmode : (st.image f).mode = st.mode := rfl
  unfold close at hf ⊢
  rw [hmode]
  split
  next => exact endBetween_image st rest
  next => exact endBetween_image (st.advance []) rest
  iterate 3 next => rfl
  all_goals
    next hk =>
      simp only [hk] at hf
      have hsettle : faults ∨ (st.settle cfg).2 = none := by
        refine hf.imp_right fun hf => ?_
        rcases hs : st.settle cfg with ⟨st', _ | e⟩
        · rfl
        · rw [hs] at hf
          cases hf
      rw [settles hc hw hsettle]
      rcases st.settle cfg with ⟨st', _ | e⟩
      · simp only [satisfied_image]
        split
        · rfl
        · exact endBetween_image st' rest
      · rfl

end State

/-! ### Runs -/

theorem Image.Carries.feed (hc : f.Carries cfg sv suppress P faults) (hw : P st.world) (p : Piece) :
    P (st.feed cfg p).state.world :=
  (hc.keeps.yields.feed ⟨hw, fun _ _ => trivial, fun _ _ _ _ => trivial⟩ p).world

theorem run_image (hc : f.Carries cfg sv suppress P faults) (cs : List Char) :
    ∀ {st : State W}, P st.world → faults ∨ (run cfg st cs).fault? = none →
      run (cfg.over sv suppress) (st.image f) cs = (run cfg st cs).image f := by
  induction cs with
  | nil =>
    intro st hw hf
    have hending : (cfg.over sv suppress).ending = cfg.ending := rfl
    rw [run] at hf ⊢
    rw [run, hending]
    cases he : cfg.ending with
    | complete =>
      rw [he] at hf
      exact State.close_image hc hw [] hf
    | undecodable => rfl
  | cons c cs ih =>
    intro st hw hf
    have hfeed : (st.image f).feed (cfg.over sv suppress) [c] = (st.feed cfg [c]).image f := by
      refine State.feed_image hc hw [c] (hf.imp_right fun hf st' e hback => ?_)
      rw [run, hback] at hf
      cases hf
    have hnext := hc.feed hw [c]
    rw [run] at hf ⊢
    rw [run, hfeed]
    cases hst : st.feed cfg [c] with
    | on st' =>
      rw [hst] at hf hnext
      exact ih hnext hf
    | past | back => rfl

theorem runFrom_image (hc : f.Carries cfg sv suppress P faults) (c : Cursor) {w : W} (hw : P w)
    (hf : faults ∨ (runFrom cfg c w).fault? = none) :
    runFrom (cfg.over sv suppress) c (f.world w) = (runFrom cfg c w).image f := by
  obtain ⟨rest, m, slot⟩ := c
  have hstart : P (State.initial m w).world := hw
  cases slot with
  | fresh | taken => exact run_image hc rest hw hf
  | pushed p =>
    cases p with
    | nil => exact State.close_image hc hw rest hf
    | cons c more =>
      simp only [runFrom] at hf ⊢
      have hfeed : (State.initial m (f.world w)).feed (cfg.over sv suppress) (c :: more) =
          ((State.initial m w).feed cfg (c :: more)).image f := by
        refine State.feed_image hc hstart (c :: more) (hf.imp_right fun hf st' e hback => ?_)
        rw [hback] at hf
        cases hf
      have hnext := hc.feed hstart (c :: more)
      rw [hfeed]
      cases hst : (State.initial m w).feed cfg (c :: more) with
      | on st' =>
        rw [hst] at hf hnext
        exact run_image hc rest hnext hf
      | past | back => rfl

end LispForms
