import LispForms.Proofs.Image
import LispForms.Proofs.NextForm
import LispForms.Proofs.Spans
import LispForms.Proofs.Suppression

/-! What a suppressed reading leaves of a form. Only tokens lose their values where they are read; a
string, a character and a list are still built, and it is the reading for the next form or for all
forms that puts nil in their place. A reading for the forms before a closing piece hands out what
was built. -/

namespace LispForms

/-! ### Forms without the values of tokens -/

namespace Form

mutual

/-- The form with nil in place of each part that a token was read as. -/
def masked : Form → Form
  | text s => text s
  | list items span => list (maskedItems items) span
  | _ => nil

def maskedItems : List Form → List Form
  | [] => []
  | v :: vs => masked v :: maskedItems vs

end

theorem maskedItems_eq_map (vs : List Form) : maskedItems vs = vs.map masked := by
  induction vs with
  | nil => rfl
  | cons v vs ih => rw [maskedItems, ih, List.map_cons]

theorem masked_list (items : List Form) (span : Option Span) :
    (list items span).masked = list (items.map masked) span := by
  rw [masked, maskedItems_eq_map]

theorem masked_of_isAtom {v : Form} (h : v.isAtom = true) : v.masked = nil := by
  cases v with
  | text | list => cases h
  | _ => rfl

end Form

variable {W : Type} {cfg : Settings W}

namespace Settings

/-- What a suppressed reading has in place of a form that is in no list. -/
def left (cfg : Settings W) (v : Form) : Form :=
  match cfg.goal with
  | .upTo _ => v.masked
  | _ => .nil

/-- No token has a value from which something is left. -/
def Masks (cfg : Settings W) : Prop :=
  cfg.suppress = true ∨ ∀ locate cs w v w',
    cfg.services.interpret locate cs w = (.ok v, w') → v.masked = .nil

end Settings

/-! ### A reading with values and one without -/

/-- A suppressed reading in the world `w` as the image of the plain one. -/
def masking (cfg : Settings W) (w : W) : Image W W where
  form := Form.masked
  outside := cfg.left
  world _ := w
  text _ := rfl
  list := Form.masked_list

theorem kept_masking (cfg : Settings W) (w : W) :
    (masking cfg w).Keeps cfg cfg.services true := by
  intro v
  unfold Settings.kept masking Settings.left
  cases cfg.goal <;> rfl

theorem masked_of_evaluates (hm : cfg.Masks) {cs : List Char} {v : Form} {w w' : W}
    (h : cfg.Evaluates cs w v w') : v.masked = .nil := by
  cases h with
  | suppressed => rfl
  | value hs h =>
    rcases hm with hm | hm
    · rw [hs] at hm
      cases hm
    · exact hm _ _ _ _ _ h

/-- A token that has a value leaves nil, and anything else leaves what it leaves otherwise. -/
theorem carries_masking (hm : cfg.Masks) (w : W) :
    (masking cfg w).Carries cfg cfg.services true (fun _ => True) False where
  keeps := cfg.services.keeps_true
  kept := kept_masking cfg w
  token st _ hf g hmode := by
    obtain ⟨mode, ls, fs, m, w'⟩ := st
    obtain rfl : mode = .token g := hmode
    rcases @State.settle_token _ cfg ls fs m w' g with ⟨v, w'', hv, hs⟩ | ⟨e, w'', -, -, hs⟩
    · have hput := State.put_image (kept_masking cfg w) v ⟨.between, ls, fs, m, w''⟩
      have hnil : (masking cfg w).form v = .nil := masked_of_evaluates hm hv
      rw [hnil] at hput
      unfold State.Settles
      rw [hs, ← hput]
      exact congrArg (·, none) (State.put_mode (.token g) .nil)
    · rw [hs] at hf
      rcases hf with hf | hf <;> cases hf

theorem runFrom_masked (hm : cfg.Masks) (c : Cursor) (w : W) (h : (runFrom cfg c w).fault? = none) :
    runFrom cfg.quiet c w = (runFrom cfg c w).image (masking cfg w) :=
  runFrom_image (carries_masking hm w) c trivial (.inr h)

/-! ### The forms before a closing piece -/

namespace Context

variable {sv : Services W} {c : Context W} {close : Piece} {vs : List Form}

theorem items_eq_ok_iff :
    let o := runFrom (c.settings sv (.upTo close) false) c.cursor c.world
    (c.items sv close).1 = .ok vs ↔ o.fault? = none ∧ o.forms = vs := by
  intro o
  simp only [items, Outcome.fault?]
  cases o.stop <;> simp [o]

theorem settings_of_suppressing (hc : c.suppressing = true) (sv : Services W) (goal : Goal)
    (endIsError : Bool) :
    c.settings sv goal endIsError = ((c.suppress false).settings sv goal endIsError).quiet := by
  rw [settings, hc]
  rfl

/-- Where forms are read over, the forms before a closing piece are those of the plain reading,
which ends at the same place, with nil in place of each part that a token was read as. So strings
and characters keep their values and lists their items, although the next form is always nil. -/
theorem items_suppressing (c : Context W) (sv : Services W) (close : Piece)
    (hc : c.suppressing = true) :
    (∀ vs, (∀ locate cs w v w', sv.interpret locate cs w = (.ok v, w') → v.isAtom = true) →
      let plain := (c.suppress false).items sv close
      plain.1 = .ok vs → (c.items sv close).1 = .ok (vs.map Form.masked) ∧
        (c.items sv close).2.cursor = plain.2.cursor) ∧
    (∀ vs, (c.items sv close).1 = .ok vs →
      vs.map Form.masked = vs ∧ (c.items sv close).2.world = c.world) ∧
    ∀ endIsError v, (c.next sv endIsError).1 = .ok (some v) → v = .nil := by
  have hsettings := settings_of_suppressing hc sv
  -- a reading that is suppressed already is its own suppressed reading
  have hself (goal : Goal) (endIsError : Bool)
      (h : (runFrom (c.settings sv goal endIsError) c.cursor c.world).fault? = none) :
      runFrom (c.settings sv goal endIsError) c.cursor c.world =
        (runFrom (c.settings sv goal endIsError) c.cursor c.world).image
          (masking (c.settings sv goal endIsError) c.world) := by
    have hquiet : (c.settings sv goal endIsError).quiet = c.settings sv goal endIsError := by
      rw [hsettings]
    have hrun := runFrom_masked (.inl hc) c.cursor c.world h
    rwa [hquiet] at hrun
  refine ⟨fun vs hsv hplain => ?_, fun vs hvs => ?_, fun endIsError v hv => ?_⟩
  · let cfg := (c.suppress false).settings sv (.upTo close) false
    obtain ⟨hfault, rfl⟩ := items_eq_ok_iff.1 hplain
    have hmasks : cfg.Masks := .inr fun _ _ _ _ _ h => Form.masked_of_isAtom (hsv _ _ _ _ _ h)
    have hrun : runFrom (c.settings sv (.upTo close) false) c.cursor c.world =
        (runFrom cfg c.cursor c.world).image (masking cfg c.world) := by
      rw [hsettings]
      exact runFrom_masked hmasks c.cursor c.world hfault
    refine ⟨items_eq_ok_iff.2 ?_, (congrArg Outcome.cursor hrun).trans rfl⟩
    rw [hrun]
    exact ⟨hfault, List.map_reverse.symm⟩
  · obtain ⟨hfault, rfl⟩ := items_eq_ok_iff.1 hvs
    have hrun := hself _ _ hfault
    exact ⟨List.map_reverse.trans (congrArg Outcome.forms hrun).symm,
      congrArg (·.state.world) hrun⟩
  · obtain ⟨hstop, hhead⟩ := next_eq_some_iff.1 hv
    have hfault : (runFrom (c.settings sv .one endIsError) c.cursor c.world).fault? = none :=
      Outcome.fault?_eq_none_iff.2 (by simp [hstop])
    have hmem : v ∈ (runFrom (c.settings sv .one endIsError) c.cursor c.world).state.forms :=
      List.mem_reverse.1 (List.mem_of_head? hhead)
    rw [hself _ _ hfault] at hmem
    obtain ⟨u, -, rfl⟩ := List.mem_map.1 hmem
    rfl

/-- A string in front of a token, suppressed and not. -/
theorem items_suppressing_text :
    let sv : Services Store := .standard .standard
    let c := (ofText ['"', 'a', '"', ' ', 'b', ')'] none none Store.empty).suppress true
    ∃ x, ((c.suppress false).items sv [')']).1 = .ok [.text "a", .symbol x] ∧
      (c.items sv [')']).1 = .ok ([.text "a", .symbol x].map Form.masked) ∧
      (c.items sv [')']).2.world = c.world ∧
      ∀ v, (c.next sv true).1 = .ok (some v) → v = .nil := by
  intro sv c
  obtain ⟨hplain, hsuppressed, hnext⟩ := items_suppressing c sv [')'] rfl
  have h : ((c.suppress false).items sv [')']).1 = .ok [.text "a", .symbol ⟨⟨"b", none⟩, 0⟩] := rfl
  obtain ⟨hitems, -⟩ := hplain _ (fun _ _ _ _ _ => Services.isAtom_of_interpret) h
  exact ⟨_, h, hitems, (hsuppressed _ hitems).2, hnext true⟩

/-- Not everything that is read over reads as nil. -/
theorem not_forall_items_nil :
    ¬ ∀ (text : List Char) (close : Piece) (vs : List Form),
      let c := (ofText text none none Store.empty).suppress true
      (c.items (.standard .standard) close).1 = .ok vs → ∀ v ∈ vs, v = .nil := by
  intro h
  have hitems : (((ofText ['"', 'a', '"', ' ', 'b', ')'] none none Store.empty).suppress true).items
      (.standard .standard) [')']).1 = .ok [.text "a", .nil] := rfl
  cases h _ _ _ hitems (.text "a") List.mem_cons_self

end Context
end LispForms
