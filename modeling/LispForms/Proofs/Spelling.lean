import LispForms.Form.Printer
import LispForms.Proofs.Assembly
import LispForms.Proofs.Keeping
import Mathlib.Data.List.Forall2

/-! Spellings: texts that are read as one form wherever a token may begin and whatever comes behind
them that ends a token. Spellings between parentheses spell a list, and spellings on lines of their
own are a text. -/

namespace LispForms

variable {W : Type} {sv : Services W} {cs : List Char} {w w' : W} {v : Form}

open Lexeme (cut)

/-- Read in the world `w`, the characters are the form `v` and leave the world `w'`. -/
def Spells (sv : Services W) (cs : List Char) (w : W) (v : Form) (w' : W) : Prop :=
  ∀ lists forms rest, StopsToken rest →
    Assembly.run sv ⟨lists, forms, w⟩ (cut (cs ++ rest)) =
      Assembly.run sv (Assembly.put v ⟨lists, forms, w'⟩) (cut rest)

/-- Characters that are forms one after the other. -/
inductive SpellsAll (sv : Services W) : List (List Char) → W → List Form → W → Prop
  | nil {w : W} : SpellsAll sv [] w [] w
  | cons {cs : List Char} {css : List (List Char)} {v : Form} {vs : List Form} {w w' w'' : W} :
    Spells sv cs w v w' → SpellsAll sv css w' vs w'' → SpellsAll sv (cs :: css) w (v :: vs) w''

/-- Forms that have spellings one by one, in every world with a property that is kept, have them one
after the other. -/
theorem SpellsAll.of_forall {P : W → Prop} {Q : Form → Form → Prop} {spell : Form → List Char}
    {items : List Form} (h : ∀ x ∈ items, ∀ w, P w → ∃ v w', Spells sv (spell x) w v w' ∧ Q x v ∧
      P w') : ∀ w, P w →
    ∃ vs w', SpellsAll sv (items.map spell) w vs w' ∧ List.Forall₂ Q items vs ∧ P w' := by
  induction items with
  | nil => exact fun w hw => ⟨[], w, .nil, .nil, hw⟩
  | cons x items ih =>
    intro w hw
    obtain ⟨v, w', hv, hQ, hw'⟩ := h x List.mem_cons_self w hw
    obtain ⟨vs, w'', hvs, hQs, hw''⟩ := ih (fun y hy => h y (List.mem_cons_of_mem x hy)) w' hw'
    exact ⟨v :: vs, w'', .cons hv hvs, .cons hQ hQs, hw''⟩

theorem stopsToken_cons {c : Char} (h : isOrdinary c = false) (cs : List Char) :
    StopsToken (c :: cs) := by
  rintro d ⟨⟩
  exact h

/-! ### Tokens -/

theorem Spells.token (h : IsTokenText cs)
    (hi : sv.interpret Problem.unplaced cs w = (.ok v, w')) : Spells sv cs w v w' := by
  intro lists forms rest hr
  rw [Lexeme.cut_token h hr, Assembly.run, Assembly.take]
  simp only [hi, Assembly.receive]

theorem Services.interpret_eq {k : TokenClass} {m : Token.Meaning}
    (h : Token.classify cs = some (k, m)) (sv : Services W) (locate : Problem → Fault) (w : W) :
    ∃ n, sv.interpret locate cs w = sv.value locate (.ofList cs) m (sv.note n w) := by
  refine ⟨⟨Level.trace, logger, s!"Token '{String.ofList cs}' matched {k.pattern}"⟩, ?_⟩
  simp only [interpret, h]

/-- A token whose meaning has a value in every world with a property that is kept spells the value
that it has there. -/
theorem Spells.exists_of_value {P : W → Prop} {Q : Form → Prop} {k : TokenClass}
    {m : Token.Meaning} (hk : sv.Keeps P) (hcs : IsTokenText cs)
    (hm : Token.classify cs = some (k, m))
    (hv : ∀ w, P w → ∃ v, (sv.value Problem.unplaced (.ofList cs) m w).1 = .ok v ∧ Q v) :
    ∀ w, P w → ∃ v w', Spells sv cs w v w' ∧ Q v ∧ P w' := by
  intro w hw
  obtain ⟨n, hi⟩ := Services.interpret_eq hm sv Problem.unplaced w
  obtain ⟨v, hok, hQ⟩ := hv _ (hk.note n hw)
  rw [← hi] at hok
  exact ⟨v, _, .token hcs (Prod.ext hok rfl), hQ, hk.interpret hw _ _⟩

/-! ### Strings -/

theorem unescape?_of_escapeLetter {c l : Char} (h : Form.escapeLetter c = some l) :
    State.unescape? l = some c := by
  unfold Form.escapeLetter at h
  split at h <;> first | cases h; rfl | cases h

/-- A string ends behind its escaped content. -/
theorem splitString_escaped (cs rest : List Char) :
    Lexeme.splitString (Form.escaped cs ++ '"' :: rest) = (Form.escaped cs, true, rest) := by
  induction cs with
  | nil => rfl
  | cons c cs ih =>
    have hcons : Form.escaped (c :: cs) = Form.escapedChar c ++ Form.escaped cs := rfl
    rw [hcons, List.append_assoc]
    unfold Form.escapedChar
    cases h : Form.escapeLetter c with
    | some l => simp [Lexeme.splitString, ih]
    | none =>
      have hq : c ≠ '"' := by rintro rfl; simp [Form.escapeLetter] at h
      have hb : c ≠ '\\' := by rintro rfl; simp [Form.escapeLetter] at h
      simp only [List.cons_append, List.nil_append]
      rw [Lexeme.splitString_cons hq hb, ih]

theorem unescape_escaped (cs : List Char) : Assembly.unescape (Form.escaped cs) = .ok cs := by
  induction cs with
  | nil => rfl
  | cons c cs ih =>
    have hcons : Form.escaped (c :: cs) = Form.escapedChar c ++ Form.escaped cs := rfl
    rw [hcons]
    unfold Form.escapedChar
    cases h : Form.escapeLetter c with
    | some l =>
      simp only [List.cons_append, List.nil_append, Assembly.unescape,
        unescape?_of_escapeLetter h, ih]
      rfl
    | none =>
      have hb : c ≠ '\\' := by rintro rfl; simp [Form.escapeLetter] at h
      simp only [List.cons_append, List.nil_append]
      rw [Assembly.unescape.eq_3 _ _ fun _ _ e => absurd e hb, ih]
      rfl

theorem Spells.text (sv : Services W) (s : String) (w : W) :
    Spells sv ('"' :: Form.escaped s.toList ++ ['"']) w (.text s) w := by
  intro lists forms rest _
  have happ : '"' :: Form.escaped s.toList ++ ['"'] ++ rest =
    '"' :: (Form.escaped s.toList ++ '"' :: rest) := by simp
  rw [happ, Lexeme.cut_string, splitString_escaped, Assembly.run, Assembly.take,
    Assembly.stringValue, unescape_escaped]
  simp only [↓reduceIte, String.ofList_toList]
  rfl

/-! ### Lists -/

theorem run_blank {c : Char} (h : Text.isBlank c = true) (a : Assembly W) (cs : List Char) :
    Assembly.run sv a (cut (c :: cs)) = Assembly.run sv a (cut cs) := by
  rw [Lexeme.cut_blank h, Assembly.run]
  rfl

/-- Spellings with a space between them are taken into the innermost open list. -/
theorem SpellsAll.run_separated {css : List (List Char)} {vs : List Form}
    (h : SpellsAll sv css w vs w') : ∀ (items : List Form) lists forms rest,
      Assembly.run sv ⟨items :: lists, forms, w⟩ (cut ([' '].intercalate css ++ ')' :: rest)) =
        Assembly.run sv ⟨(vs.reverse ++ items) :: lists, forms, w'⟩ (cut (')' :: rest)) := by
  induction h with
  | nil => exact fun _ _ _ _ => rfl
  | @cons cs css v vs w w' w'' hv hvs ih =>
    intro items lists forms rest
    cases css with
    | nil =>
      cases hvs
      have hone : [' '].intercalate [cs] = cs := by simp [List.intercalate]
      rw [hone, hv _ _ _ (stopsToken_cons (by decide) rest)]
      rfl
    | cons cs' css =>
      have hcons : [' '].intercalate (cs :: cs' :: css) ++ ')' :: rest =
          cs ++ ' ' :: ([' '].intercalate (cs' :: css) ++ ')' :: rest) := by
        simp [List.intercalate]
      rw [hcons, hv _ _ _ (stopsToken_cons (by decide) _), run_blank (by decide)]
      refine (ih (v :: items) lists forms rest).trans ?_
      rw [List.reverse_cons, List.append_assoc]
      rfl

theorem SpellsAll.list {css : List (List Char)} {vs : List Form} (h : SpellsAll sv css w vs w') :
    Spells sv ('(' :: [' '].intercalate css ++ [')']) w (.list vs none) w' := by
  intro lists forms rest _
  have happ : '(' :: [' '].intercalate css ++ [')'] ++ rest =
    '(' :: ([' '].intercalate css ++ ')' :: rest) := by simp
  rw [happ, Lexeme.cut_opening, Assembly.run, Assembly.take]
  refine (h.run_separated [] lists forms rest).trans ?_
  rw [Lexeme.cut_closing, Assembly.run, Assembly.take, List.append_nil]
  simp only [List.reverse_reverse]

/-! ### Printed lists -/

theorem Form.printItems_eq_map (style : Style) (items : List Form) :
    printItems style items = items.map (print style) := by
  induction items with
  | nil => rfl
  | cons x items ih => rw [printItems, ih, List.map_cons]

theorem Form.toList_print_list (style : Style) (items : List Form) (span : Option Span) :
    ((list items span).print style).toList = '(' ::
      [' '].intercalate (items.map fun x => (x.print style.forItems).toList) ++ [')'] := by
  have hopen : "(".toList = ['('] := rfl
  have hclose : ")".toList = [')'] := rfl
  have hspace : " ".toList = [' '] := rfl
  rw [print, printItems_eq_map, String.toList_append, String.toList_append,
    String.toList_intercalate, hopen, hclose, hspace, List.map_map]
  rfl

/-! ### Texts -/

theorem Spells.reading (h : Spells sv cs w v w') :
    Assembly.reading sv cs w = ⟨[v], none, w'⟩ := by
  have hrun := h [] [] [] (by rintro c ⟨⟩)
  rw [List.append_nil] at hrun
  rw [Assembly.reading, hrun, Lexeme.cut_nil, Assembly.run]
  rfl

/-- A spelling by itself is read as its form. -/
theorem Spells.read {text : String}
    (h : Spells sv cs (sv.note (Source.ofString text).opening w) v w') (htext : text.toList = cs)
    (hp : sv.Plain) (line col : Option Int) :
    let r := LispForms.read sv ⟨false, false, line, col⟩ (.ofString text) w
    r.fault = none ∧ r.world = w' ∧ ∃ v', r.forms = [v'] ∧ v'.bare = v := by
  intro r
  have hr : r.bare = ⟨[v], none, w'⟩ :=
    (bare_read hp line col text w).trans (htext ▸ h.reading)
  obtain ⟨hfault, hforms⟩ := Reading.of_bare hr
  exact ⟨hfault, congrArg Reading.world hr, List.map_eq_singleton_iff.1 hforms⟩

/-- The text of a token is read as the value that the token has behind an entry of the journal. -/
theorem read_token (hp : sv.Plain) (hcs : IsTokenText cs) {k : TokenClass} {m : Token.Meaning}
    (hm : Token.classify cs = some (k, m)) (line col : Option Int) (w : W) : ∃ n,
    let value := sv.value Problem.unplaced (.ofList cs) m
      (sv.note n (sv.note (Source.ofString (.ofList cs)).opening w))
    let r := LispForms.read sv ⟨false, false, line, col⟩ (.ofString (.ofList cs)) w
    ∀ v, value.1 = .ok v → (∀ items span, v ≠ .list items span) →
      r.forms = [v] ∧ r.fault = none ∧ r.world = value.2 := by
  obtain ⟨n, hi⟩ := Services.interpret_eq hm sv Problem.unplaced
    (sv.note (Source.ofString (.ofList cs)).opening w)
  refine ⟨n, fun v hv hlist => ?_⟩
  have hspells := Spells.token hcs (hi.trans (Prod.ext hv rfl))
  obtain ⟨hfault, hworld, v', hforms, hbare⟩ :=
    hspells.read String.toList_ofList hp line col
  rw [Form.eq_of_bare hbare hlist] at hforms
  exact ⟨hforms, hfault, hworld⟩

theorem SpellsAll.run_lines {css : List (List Char)} {vs : List Form}
    (h : SpellsAll sv css w vs w') : ∀ forms : List Form,
      Assembly.run sv ⟨[], forms, w⟩ (cut (css.flatMap (· ++ ['\n']))) =
        (⟨[], vs.reverse ++ forms, w'⟩, none) := by
  induction h with
  | nil =>
    intro forms
    rw [List.flatMap_nil, Lexeme.cut_nil]
    rfl
  | @cons cs css v vs w w' w'' hv hvs ih =>
    intro forms
    have hcons : (cs :: css).flatMap (· ++ ['\n']) = cs ++ '\n' :: css.flatMap (· ++ ['\n']) := by
      simp
    rw [hcons, hv _ _ _ (stopsToken_cons (by decide) _), run_blank (by decide)]
    refine (ih (v :: forms)).trans ?_
    rw [List.reverse_cons, List.append_assoc]
    rfl

/-- Spellings on lines of their own are read as their forms. -/
theorem SpellsAll.reading {css : List (List Char)} {vs : List Form} (h : SpellsAll sv css w vs w') :
    Assembly.reading sv (css.flatMap (· ++ ['\n'])) w = ⟨vs, none, w'⟩ := by
  rw [Assembly.reading, h.run_lines, List.append_nil]
  simp

end LispForms
