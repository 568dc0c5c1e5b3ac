import LispForms.Proofs.Leaves
import LispForms.Proofs.Settled
import LispForms.Proofs.Spans

/-! Floating-point numbers in printed forms. A finite number comes back from the print of the form
in which it stands, bit for bit and in the same place, unless it is negative and printed without a
point; then, and if it is an infinity, the symbol of that name stands there. -/

namespace LispForms

open Number

namespace Form

/-- The form at a place in nested lists, given by its index in each of them. -/
def at? : List ℕ → Form → Option Form
  | [], v => some v
  | i :: path, list items _ => items[i]?.bind (at? path)
  | _ :: _, _ => none

def float? : Form → Option Binary64
  | float x => some x
  | _ => none

/-- Where the first form has a number, the second has what the print of the number is read as. -/
def FloatsAgain (v v' : Form) : Prop :=
  ∀ path x, v.at? path = some (float x) → ∃ u, v'.at? path = some u ∧ u.FloatAgain x

variable {v v' u : Form} {path : List ℕ} {x : Binary64}

theorem float?_eq_some_iff : v.float? = some x ↔ v = float x := by
  cases v <;> simp [float?]

theorem at?_eq_float_iff :
    v.at? path = some (float x) ↔ (v.at? path).bind float? = some x := by
  simp [Option.bind_eq_some_iff, float?_eq_some_iff]

theorem at?_of_isList_eq_false (hv : v.isList = false) (h : v.at? path = some u) : v = u := by
  cases path with
  | nil => exact Option.some.inj h
  | cons i path =>
    cases v with
    | list => cases hv
    | _ => cases h

theorem at?_bare (path : List ℕ) (v : Form) : v.bare.at? path = (v.at? path).map bare := by
  induction path generalizing v with
  | nil => rfl
  | cons i path ih =>
    cases v with
    | list items span =>
      rw [bare_list, at?, at?, List.getElem?_map, Option.bind_map, Option.map_bind]
      exact congrArg _ (funext ih)
    | _ => rfl

theorem FloatAgain.of_bare (h : v.bare.FloatAgain x) : v.FloatAgain x := by
  unfold FloatAgain IsName at h ⊢
  cases v with
  | list => split at h <;> simp at h
  | _ => exact h

/-! ### Numbers and lists -/

theorem FloatsAgain.of_bare (h : v.FloatsAgain v'.bare) : v.FloatsAgain v' := by
  intro path x hat
  obtain ⟨u, hu, hagain⟩ := h path x hat
  rw [at?_bare, Option.map_eq_some_iff] at hu
  obtain ⟨u', hu', rfl⟩ := hu
  exact ⟨u', hu', hagain.of_bare⟩

theorem floatsAgain_float (h : v'.FloatAgain x) : (float x).FloatsAgain v' := by
  intro path y hat
  cases path with
  | nil =>
    cases hat
    exact ⟨v', rfl, h⟩
  | cons => cases hat

theorem FloatsAgain.list {items vs : List Form} (h : List.Forall₂ FloatsAgain items vs)
    (span span' : Option Span) : (list items span).FloatsAgain (list vs span') := by
  intro path x hat
  cases path with
  | nil => cases hat
  | cons i path =>
    obtain ⟨y, hy, hat⟩ := Option.bind_eq_some_iff.1 hat
    obtain ⟨hlen, hall⟩ := List.forall₂_iff_get.1 h
    obtain ⟨hi, rfl⟩ := List.getElem?_eq_some_iff.1 hy
    obtain ⟨u, hu, hagain⟩ := hall i hi (hlen ▸ hi) path x hat
    refine ⟨u, ?_, hagain⟩
    rw [at?, List.getElem?_eq_getElem (hlen ▸ hi)]
    exact hu

/-- In every store the print of the form is read as a form with its numbers again. -/
def KeepsFloats (env : Host.Environment) (v : Form) : Prop :=
  ReadAs env (v.print .standard).toList v.FloatsAgain

end Form

variable {env : Host.Environment} {locate : Problem → Fault} {cs : List Char} {s t : Store}
  {v : Form}

/-- Where there is no number, there is none to keep. -/
theorem keepsFloats_of_settled (h : v.Settled env) (hlist : v.isList = false)
    (hfloat : v.float? = none) : v.KeepsFloats env := by
  refine ReadAs.imp h fun _ _ _ _ hat => ?_
  rw [Form.at?_of_isList_eq_false hlist hat] at hfloat
  cases hfloat

theorem keepsFloats_list {items : List Form} (h : ∀ x ∈ items, x.KeepsFloats env)
    (span : Option Span) : (Form.list items span).KeepsFloats env := by
  refine (ReadAs.list h span).imp fun v hv => ?_
  obtain ⟨vs, rfl, hagain⟩ := hv
  exact .list hagain span none

/-! ### Values of tokens -/

/-- The number of a token is a magnitude, or an infinity. -/
theorem Services.magnitude_le_of_interpret {x : Binary64}
    (h : (standard env).interpret locate cs s = (.ok (.float x), t)) :
    x.magnitude ≤ Binary64.infinity := by
  unfold interpret at h
  cases hm : Token.classify cs with
  | none =>
    rw [hm] at h
    cases h
  | some km =>
    obtain ⟨k, m⟩ := km
    rw [hm] at h
    have h := congrArg Prod.fst h
    cases m with
    | float negative d =>
      cases h
      exact Binary64.nearest_le d
    | nil | symbol | var | accessor => cases h
    | integer | className | instanceMember | staticMember =>
      obtain ⟨a, ha⟩ := exists_of_map h
      cases ha
    | ratio =>
      obtain ⟨n, d, -, -, -, hq⟩ := ratio_eq_ok_iff.1 h
      unfold Form.quotient at hq
      split at hq
      split at hq <;> cases hq

theorem keepsFloats_of_interpret (hcs : IsTokenText cs) (hs : s.Running)
    (h : (Services.standard env).interpret Problem.unplaced cs s = (.ok v, t)) :
    v.KeepsFloats env := by
  cases hx : v.float? with
  | some x =>
    obtain rfl := Form.float?_eq_some_iff.1 hx
    exact (readAs_float x.negative (Services.magnitude_le_of_interpret h)).imp fun _ =>
      Form.floatsAgain_float
  | none =>
    have hsettled : v.Settled env := settled_of_interpret hcs hs (congrArg Prod.fst h)
    exact keepsFloats_of_settled hsettled (Services.isList_of_interpret h) hx

/-! ### Whole texts -/

/-- Of everything that is read the print keeps the numbers. -/
theorem builds_keepsFloats (env : Host.Environment) :
    (Services.standard env).Builds Store.Running (Form.KeepsFloats env) where
  keeps := Store.keeps_running env
  nil := keepsFloats_of_settled (settled_of_readable fun _ => .nil) rfl rfl
  text content := keepsFloats_of_settled (settled_of_readable fun _ => .text content) rfl rfl
  token := keepsFloats_of_interpret
  list span h := keepsFloats_list h span

/-- A text that is read as one form in every store is a reading of its own. -/
theorem ReadAs.read {Q : Form → Prop} {text : String} (h : ReadAs env text.toList Q)
    (ht : t.Running) (line col : Option Int) :
    let r := LispForms.read (.standard env) ⟨false, false, line, col⟩ (.ofString text) t
    r.fault = none ∧ ∃ v, r.forms = [v] ∧ Q v.bare := by
  intro r
  obtain ⟨v, t', hspells, hQ, -⟩ :=
    h _ ((Store.keeps_running env).note (Source.ofString text).opening ht)
  obtain ⟨hfault, -, v', hforms, rfl⟩ := hspells.read rfl (Services.plain_standard env) line col
  exact ⟨hfault, v', hforms, hQ⟩

/-- The print of a form that has been read is read as one form, in whatever store. Where the first
has a number that is finite, and has a point if it is negative, the second has this number; where
it has another, the second has the symbol of that name. -/
theorem read_print_floats (env : Host.Environment) {ns ns' : List Namespace} {s t : Store}
    (hs : Store.Reachable ns s) (ht : Store.Reachable ns' t) (endIsError suppress : Bool)
    (line col line' col' : Option Int) (text : String) :
    ∀ v ∈ (read (.standard env) ⟨endIsError, suppress, line, col⟩ (.ofString text) s).forms,
      let again := read (.standard env) ⟨false, false, line', col'⟩
        (.ofString (v.print .standard)) t
      again.fault = none ∧ ∃ v', again.forms = [v'] ∧
        ∀ path x, v.at? path = some (.float x) →
          (Form.readsBack x = true → v'.at? path = some (.float x)) ∧
          (Form.readsBack x = false → ∃ y : Symbol, v'.at? path = some (.symbol y) ∧
            y.toQName = ⟨Form.floats.render x, none⟩) := by
  intro v hv again
  obtain ⟨hfault, v', hforms, hagain⟩ :=
    ((builds_keepsFloats env).read _ rfl ⟨ns, hs⟩ v hv).read ⟨ns', ht⟩ line' col'
  refine ⟨hfault, v', hforms, fun path x hat => ?_⟩
  obtain ⟨u, hu, hfloat⟩ := hagain.of_bare path x hat
  unfold Form.FloatAgain at hfloat
  refine ⟨fun hback => ?_, fun hback => ?_⟩
  · rw [if_pos hback] at hfloat
    rw [hu, hfloat]
  · rw [if_neg (by simp [hback])] at hfloat
    obtain ⟨y, rfl, hy⟩ := hfloat
    exact ⟨y, hu, hy⟩

/-- A zero with a minus sign comes back from a list in a list, a large negative number beside it
does not. -/
theorem read_print_floats_nested :
    let r := read (.standard .standard) .standard (.ofString "(a (-0.0 -1.0e16))") .empty
    ∃ v ∈ r.forms, v.at? [1, 0] = some (.float ⟨true, 0⟩) ∧
      v.at? [1, 1] = some (.float ⟨true, 0x4341c37937e08000⟩) ∧
      ∃ v', (read (.standard .standard) .standard (.ofString (v.print .standard)) .empty).forms =
          [v'] ∧ v'.at? [1, 0] = some (.float ⟨true, 0⟩) ∧
        ∃ y : Symbol, v'.at? [1, 1] = some (.symbol y) ∧ y.toQName = ⟨"-1e+16", none⟩ := by
  intro r
  have hvalues : ∃ v ∈ r.forms, (v.at? [1, 0]).bind Form.float? = some ⟨true, 0⟩ ∧
      (v.at? [1, 1]).bind Form.float? = some ⟨true, 0x4341c37937e08000⟩ := by decide +kernel
  obtain ⟨v, hv, hzero, hlarge⟩ := hvalues
  rw [← Form.at?_eq_float_iff] at hzero hlarge
  obtain ⟨-, v', hforms, hagain⟩ :=
    read_print_floats .standard .empty .empty false false none none none none _ v hv
  have hback : Form.readsBack ⟨true, 0⟩ = true := by decide +kernel
  have hlost : Form.readsBack ⟨true, 0x4341c37937e08000⟩ = false := by decide +kernel
  have hprint : Form.floats.render ⟨true, 0x4341c37937e08000⟩ = "-1e+16" := by decide +kernel
  obtain ⟨y, hy, hname⟩ := (hagain _ _ hlarge).2 hlost
  exact ⟨v, hv, hzero, hlarge, v', hforms, (hagain _ _ hzero).1 hback, y, hy, hprint ▸ hname⟩

/-- An infinity and a large negative number, neither of which is a number again. -/
theorem read_print_floats_lost :
    let r := read (.standard .standard) .standard (.ofString "(1e999 -1.0e16)") .empty
    ∃ v ∈ r.forms, (v.at? [0]).bind Form.float? = some ⟨false, Binary64.infinity⟩ ∧
      (v.at? [1]).bind Form.float? = some ⟨true, 0x4341c37937e08000⟩ ∧
      let again := read (.standard .standard) .standard (.ofString (v.print .standard)) .empty
      again.fault = none ∧ again.forms.length = 1 ∧ ∀ v' ∈ again.forms,
        (v'.at? [0]).bind Form.float? = none ∧ (v'.at? [1]).bind Form.float? = none := by
  decide +kernel

end LispForms
