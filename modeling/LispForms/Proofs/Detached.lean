import LispForms.Proofs.Image
import LispForms.Proofs.Store.Reachable
import LispForms.Form.Printer

/-! Readings without a store. Which identities symbols and vars have depends on all that was read
before, but neither their names nor anything else of a reading does: it is the same in every store
that a program comes to, and the same as with services that have no store at all. -/

namespace LispForms

/-! ### Forms without identities -/

def Symbol.detached (x : Symbol) : Symbol := ⟨x.toQName, 0⟩

def Namespace.detached (n : Namespace) : Namespace := ⟨0, n.symbol.detached⟩

def Var.detached (v : Var) : Var := ⟨0, v.home.detached, v.symbol.detached⟩

namespace Form

mutual

/-- The form with every name in it, but with no identity. -/
def detached : Form → Form
  | symbol x => symbol x.detached
  | space n => space n.detached
  | var v => var v.detached
  | list items span => list (detachedItems items) span
  | v => v

def detachedItems : List Form → List Form
  | [] => []
  | v :: vs => detached v :: detachedItems vs

end

theorem detachedItems_eq_map (vs : List Form) : detachedItems vs = vs.map detached := by
  induction vs with
  | nil => rfl
  | cons v vs ih => rw [detachedItems, ih, List.map_cons]

theorem detached_list (items : List Form) (span : Option Span) :
    (list items span).detached = list (items.map detached) span := by
  rw [detached, detachedItems_eq_map]

theorem detached_quotient (num den : Int) : (quotient num den).detached = quotient num den := by
  unfold quotient
  split
  split <;> rfl

mutual

/-- Only names are printed. -/
theorem print_detached (style : Style) : ∀ v : Form, v.detached.print style = v.print style
  | list items _ => by rw [detached, print, print, printItems_detachedItems]
  | nil | bool _ | integer _ | ratio _ _ | float _ | text _ | symbol _ | space _ | var _ | pair _ _
  | accessor _ | className _ _ | instanceMember _ _ _ | staticMember _ _ _ => rfl

theorem printItems_detachedItems (style : Style) :
    ∀ vs : List Form, printItems style (detachedItems vs) = printItems style vs
  | [] => rfl
  | v :: vs => by
    rw [detachedItems, printItems, printItems, print_detached, printItems_detachedItems]

end

end Form

/-! ### Services without a store -/

namespace Services

variable {locate : Problem → Fault} {s : Store}

/-- The standard services without a store and without identities. -/
def detached (env : Host.Environment) : Services Unit where
  symbol name _ := (.symbol ⟨⟨name, none⟩, 0⟩, ())
  var ns name _ := (.var ⟨0, ⟨0, ⟨⟨ns, none⟩, 0⟩⟩, ⟨⟨name, none⟩, 0⟩⟩, ())
  host path _ := ((env.resolve path).result.map (.ofId ·.id), ())
  note _ _ := ()

theorem resolve_detached (env : Host.Environment) (path : String) (s : Store) :
    ((standard env).resolve locate path s).1 = ((detached env).resolve locate path ()).1 := by
  simp only [resolve, standard, detached, Store.resolve]
  cases (env.resolve path).result with
  | ok o => rfl
  | error f => cases f <;> rfl

theorem value_detached (env : Host.Environment) (hs : s.Running) (token : String)
    (m : Token.Meaning) :
    ((standard env).value locate token m s).1.map Form.detached =
      ((detached env).value locate token m ()).1 := by
  have hmap {α : Type} {f : α → Form} (hf : ∀ a, (f a).detached = f a) (r : Except Fault α) :
      (r.map f).map Form.detached = r.map f := by
    cases r with
    | error => rfl
    | ok a => exact congrArg Except.ok (hf a)
  obtain ⟨ns, hs⟩ := hs
  cases m with
  | nil | float | accessor => rfl
  | symbol name =>
    exact congrArg (fun q => Except.ok (Form.symbol ⟨q, 0⟩)) (hs.sound.toQName_symbol ⟨name, none⟩)
  | var space name =>
    obtain ⟨hhome, hname⟩ := hs.sound.internVar_names space name
    exact congrArg₂ (fun p q => Except.ok (Form.var ⟨0, ⟨0, ⟨p, 0⟩⟩, ⟨q, 0⟩⟩)) hhome hname
  | integer negative ds => exact hmap (fun _ => rfl) _
  | ratio negative num den =>
    simp only [value]
    cases hr : ratio locate token negative num den with
    | error => rfl
    | ok v =>
      obtain ⟨n, d, -, -, -, rfl⟩ := ratio_eq_ok_iff.1 hr
      exact congrArg Except.ok (Form.detached_quotient _ _)
  | className path | instanceMember path member | staticMember path member =>
    simp only [value, resolve_detached]
    exact hmap (fun _ => rfl) _

theorem interpret_detached (env : Host.Environment) (hs : s.Running) (cs : List Char) :
    ((standard env).interpret locate cs s).1.map Form.detached =
      ((detached env).interpret locate cs ()).1 := by
  unfold interpret
  cases Token.classify cs with
  | none => rfl
  | some km => exact value_detached env ((Store.keeps_running env).note _ hs) _ km.2

end Services

/-! ### Readings -/

/-- A reading without a store as the image of one with a store. -/
def detaching : Image Store Unit where
  form := Form.detached
  outside := Form.detached
  world _ := ()
  text _ := rfl
  list := Form.detached_list

theorem kept_detaching (env : Host.Environment) (cfg : Settings Store) :
    detaching.Keeps cfg (.detached env) cfg.suppress := by
  intro v
  unfold Settings.kept detaching
  cases cfg.goal <;> cases cfg.suppress <;> rfl

theorem carries_detaching (env : Host.Environment) {cfg : Settings Store}
    (hsv : cfg.services = .standard env) :
    detaching.Carries cfg (.detached env) cfg.suppress Store.Running True where
  keeps := hsv ▸ Store.keeps_running env
  kept := kept_detaching env cfg
  token st hs _ g hmode := by
    refine State.settles_token (kept_detaching env cfg) rfl hmode (Prod.ext ?_ rfl)
    rw [hsv]
    exact (Services.interpret_detached env hs _).symm

theorem read_detached {s : Store} (hs : s.Running) (env : Host.Environment) (opts : Options)
    (source : Source) :
    let r := read (.standard env) opts source s
    read (.detached env) opts source () = ⟨r.forms.map Form.detached, r.fault, ()⟩ := by
  intro r
  let cfg := opts.settings (.standard env) source
  let st : State Store :=
    .initial (.initial opts.line opts.col) ((Services.standard env).note source.opening s)
  have hstart : st.world.Running := (Store.keeps_running env).note source.opening hs
  have hcarries : detaching.Carries cfg (.detached env) cfg.suppress Store.Running True :=
    carries_detaching env rfl
  have hrun := run_image hcarries source.text.chars hstart (.inl trivial)
  have hread : read (.detached env) opts source () =
    ⟨((run cfg st source.text.chars).image detaching).forms,
      ((run cfg st source.text.chars).image detaching).fault?, ()⟩ := by
    rw [← hrun]
    rfl
  rw [hread]
  exact congrArg (Reading.mk · r.fault ()) List.map_reverse.symm

/-- What is read of a text is the same in every store, as far as it is printed. -/
theorem read_alike {s t : Store} (hs : s.Running) (ht : t.Running) (env : Host.Environment)
    (opts : Options) (source : Source) (style : Style) :
    let r := read (.standard env) opts source s
    let r' := read (.standard env) opts source t
    r.fault = r'.fault ∧ r.forms.map (Form.print style) = r'.forms.map (Form.print style) := by
  intro r r'
  have hsame : (⟨r.forms.map Form.detached, r.fault, ()⟩ : Reading Unit) =
      ⟨r'.forms.map Form.detached, r'.fault, ()⟩ :=
    (read_detached hs env opts source).symm.trans (read_detached ht env opts source)
  have hprint (vs : List Form) :
      vs.map (Form.print style) = (vs.map Form.detached).map (Form.print style) := by
    rw [List.map_map]
    exact List.map_congr_left fun v _ => (Form.print_detached style v).symm
  obtain ⟨hforms, hfault, -⟩ := Reading.mk.inj hsame
  exact ⟨hfault, by rw [hprint, hforms, ← hprint]⟩

end LispForms
