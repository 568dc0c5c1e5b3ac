import LispForms.Form.Printer
import LispForms.Reader.Services

/-! Forms without the places of their lists and faults without their place: what is left of a
reading when only its content counts. -/

namespace LispForms

namespace Form

mutual

/-- The form with no list knowing its place. -/
def bare : Form → Form
  | list items _ => list (bareItems items) none
  | x => x

def bareItems : List Form → List Form
  | [] => []
  | x :: xs => bare x :: bareItems xs

end

theorem bareItems_eq_map (xs : List Form) : bareItems xs = xs.map bare := by
  induction xs with
  | nil => rfl
  | cons x xs ih => rw [bareItems, ih, List.map_cons]

@[simp] theorem bare_list (items : List Form) (span : Option Span) :
    (list items span).bare = list (items.map bare) none := by rw [bare, bareItems_eq_map]

/-- Only lists have places to lose. -/
theorem eq_of_bare {u v : Form} (h : u.bare = v) (hv : ∀ items span, v ≠ list items span) :
    u = v := by
  cases u with
  | list items span => exact absurd (h.symm.trans (bare_list items span)) (hv _ _)
  | _ => exact h

mutual

theorem print_bare (style : Style) : ∀ x : Form, x.bare.print style = x.print style
  | list items _ => by
    rw [bare, print, print, printItems_bareItems]
  | nil | bool _ | integer _ | ratio _ _ | float _ | text _ | symbol _ | space _ | var _ | pair _ _
  | accessor _ | className _ _ | instanceMember _ _ _ | staticMember _ _ _ => rfl

theorem printItems_bareItems (style : Style) :
    ∀ xs : List Form, printItems style (bareItems xs) = printItems style xs
  | [] => rfl
  | x :: xs => by rw [bareItems, printItems, printItems, print_bare, printItems_bareItems]

end

end Form

/-- A problem as a fault with no place. -/
def Problem.unplaced (p : Problem) : Fault := .misread ⟨p, 0, 0, none⟩

namespace Fault

/-- The fault without its place: of a misreading, only its problem. -/
def unplaced : Fault → Fault
  | misread m => m.problem.unplaced
  | f => f

end Fault

namespace Services

variable {W : Type} {locate : Problem → Fault}

/-! ### The value of a token does not depend on its place -/

theorem resolve_unplaced (hl : ∀ p, (locate p).unplaced = p.unplaced) (sv : Services W)
    (path : String) (w : W) :
    sv.resolve Problem.unplaced path w =
      ((sv.resolve locate path w).1.mapError Fault.unplaced, (sv.resolve locate path w).2) := by
  unfold resolve
  cases sv.host path w with
  | mk r w' =>
    cases r with
    | ok type => rfl
    | error reason =>
      cases reason with
      | importing kind name => rfl
      | invalid | unresolved => exact congrArg (Except.error · , w') (hl _).symm

theorem convert_eq_ok_iff {ds : List Char} {n : Nat} :
    convert ds = .ok n ↔ ds.length ≤ Number.maxDigits ∧ Number.ofDigits ds = n := by
  unfold convert
  split <;> simp <;> omega

theorem unplaced_of_convert {ds : List Char} {f : Fault} (h : convert ds = .error f) :
    f.unplaced = f := by
  unfold convert at h
  split at h
  · cases h; rfl
  · cases h

theorem ratio_eq_ok_iff {token : String} {negative : Bool} {num den : List Char} {v : Form} :
    ratio locate token negative num den = .ok v ↔ ∃ n d, convert num = .ok n ∧
      convert den = .ok d ∧ d ≠ 0 ∧ .quotient (Number.signed negative n) d = v := by
  unfold ratio
  cases convert num with
  | error f => simp [bind, Except.bind]
  | ok n =>
    cases convert den with
    | error f => simp [bind, Except.bind]
    | ok d =>
      by_cases hd : d = 0
      · simp [bind, Except.bind, hd, throw, throwThe, MonadExceptOf.throw]
      · simp [bind, Except.bind, hd, pure, Except.pure]

theorem ratio_unplaced (hl : ∀ p, (locate p).unplaced = p.unplaced) (token : String)
    (negative : Bool) (num den : List Char) :
    ratio Problem.unplaced token negative num den =
      (ratio locate token negative num den).mapError Fault.unplaced := by
  unfold ratio
  cases hn : convert num with
  | error f => exact congrArg Except.error (unplaced_of_convert hn).symm
  | ok n =>
    cases hd : convert den with
    | error f => exact congrArg Except.error (unplaced_of_convert hd).symm
    | ok d =>
      simp only [bind, Except.bind]
      split
      · exact congrArg Except.error (hl _).symm
      · rfl

theorem value_unplaced (hl : ∀ p, (locate p).unplaced = p.unplaced) (sv : Services W)
    (token : String) (m : Token.Meaning) (w : W) :
    sv.value Problem.unplaced token m w =
      ((sv.value locate token m w).1.mapError Fault.unplaced, (sv.value locate token m w).2) := by
  have hmap {α β : Type} (r : Except Fault α) (f : α → β) :
      (r.mapError Fault.unplaced).map f = (r.map f).mapError Fault.unplaced := by cases r <;> rfl
  cases m with
  | nil | symbol | var | float | accessor => rfl
  | integer negative ds =>
    have hc : (convert ds).mapError Fault.unplaced = convert ds := by
      cases h : convert ds with
      | ok n => rfl
      | error f => exact congrArg Except.error (unplaced_of_convert h)
    simp only [value, ← hmap, hc]
  | ratio negative num den => simp only [value, ratio_unplaced hl]
  | className path | instanceMember path member | staticMember path member =>
    simp only [value, resolve_unplaced hl sv path w, hmap]

theorem interpret_unplaced (hl : ∀ p, (locate p).unplaced = p.unplaced) (sv : Services W)
    (token : List Char) (w : W) :
    sv.interpret Problem.unplaced token w =
      ((sv.interpret locate token w).1.mapError Fault.unplaced,
        (sv.interpret locate token w).2) := by
  unfold interpret
  cases Token.classify token with
  | none => exact congrArg (Except.error · , _) (hl _).symm
  | some km => exact value_unplaced hl sv _ _ _

/-! ### The value of a token is no list -/

/-- Services that give no list as the value of a name. -/
structure Plain (sv : Services W) : Prop where
  symbol : ∀ name w, (sv.symbol name w).1.bare = (sv.symbol name w).1
  var : ∀ ns name w, (sv.var ns name w).1.bare = (sv.var ns name w).1

theorem plain_standard (env : Host.Environment) : (standard env).Plain :=
  ⟨fun _ _ => rfl, fun _ _ _ => rfl⟩

theorem bare_quotient (num den : Int) : (Form.quotient num den).bare = Form.quotient num den := by
  unfold Form.quotient
  split
  split <;> rfl

theorem exists_of_map {α : Type} {r : Except Fault α} {f : α → Form} {v : Form}
    (h : r.map f = .ok v) : ∃ a, f a = v := by
  cases r with
  | error => cases h
  | ok a => exact ⟨a, Except.ok.inj h⟩

theorem bare_of_value {sv : Services W} (hp : sv.Plain) {token : String} {m : Token.Meaning}
    {w : W} {v : Form} (h : (sv.value locate token m w).1 = .ok v) : v.bare = v := by
  cases m with
  | symbol name => exact Except.ok.inj h ▸ hp.symbol name w
  | var ns name => exact Except.ok.inj h ▸ hp.var ns name w
  | nil | float | accessor =>
    obtain rfl := Except.ok.inj h
    rfl
  | integer | className | instanceMember | staticMember =>
    obtain ⟨a, rfl⟩ := exists_of_map h
    rfl
  | ratio negative num den =>
    obtain ⟨n, d, -, -, -, rfl⟩ := ratio_eq_ok_iff.1 h
    exact bare_quotient _ _

theorem bare_of_interpret {sv : Services W} (hp : sv.Plain) {token : List Char} {w : W} {v : Form}
    (h : (sv.interpret locate token w).1 = .ok v) : v.bare = v := by
  unfold interpret at h
  cases hc : Token.classify token with
  | none => simp [hc] at h
  | some km =>
    simp only [hc] at h
    exact bare_of_value hp h

end Services
end LispForms
