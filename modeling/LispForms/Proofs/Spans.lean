import LispForms.Proofs.Nesting
import LispForms.Proofs.Suppression

/-! The spans of lists. A list stands from its own parenthesis to the one that matches it, the lists
among its items stand one behind the other between the two, and what stands there by itself is read
as the same list with the same places. -/

namespace LispForms

variable {W : Type}

/-! ### Lists in lists -/

namespace Form

/-- The form is one of the forms, or stands in a list that is one of them or stands in one. -/
inductive Within (v : Form) : List Form → Prop
  | here {vs} (h : v ∈ vs) : Within v vs
  | inside {items span vs} (h : list items span ∈ vs) (hv : Within v items) : Within v vs

def isList : Form → Bool
  | list _ _ => true
  | _ => false

/-- Whether a form can be the value of a token. -/
def isAtom : Form → Bool
  | text _ | list _ _ => false
  | _ => true

def span? : Form → Option Span
  | list _ span => span
  | _ => none

variable {v u : Form} {vs us items : List Form} {span : Option Span}

theorem not_within_nil : ¬ v.Within [] := by
  rintro (h | ⟨h, -⟩) <;> exact List.not_mem_nil h

theorem within_append (h : v.Within (vs ++ us)) : v.Within vs ∨ v.Within us := by
  rcases h with h | ⟨h, hv⟩
  · exact (List.mem_append.1 h).imp .here .here
  · exact (List.mem_append.1 h).imp (.inside · hv) (.inside · hv)

theorem within_singleton (h : v.Within [u]) :
    v = u ∨ ∃ items span, u = list items span ∧ v.Within items := by
  rcases h with h | ⟨h, hv⟩
  · exact .inl (List.mem_singleton.1 h)
  · exact .inr ⟨_, _, (List.mem_singleton.1 h).symm, hv⟩

theorem not_within_of_isList_eq_false (hu : u.isList = false) : ¬ (list items span).Within [u] := by
  intro h
  rcases within_singleton h with rfl | ⟨_, _, rfl, -⟩ <;> cases hu

theorem isList_of_isAtom (hv : v.isAtom = true) : v.isList = false := by
  cases v with
  | list => cases hv
  | _ => rfl

theorem span?_of_isList_eq_false (hu : u.isList = false) : u.span? = none := by
  cases u with
  | list => cases hu
  | _ => rfl

end Form

namespace Services

variable {locate : Problem → Fault} {cs : List Char} {v : Form} {env : Host.Environment}
  {s t : Store}

theorem isAtom_quotient (num den : Int) : (Form.quotient num den).isAtom = true := by
  unfold Form.quotient
  split
  split <;> rfl

/-- No token has a string or a list for its value. -/
theorem isAtom_of_interpret (h : (standard env).interpret locate cs s = (.ok v, t)) :
    v.isAtom = true := by
  unfold interpret at h
  cases hm : Token.classify cs with
  | none =>
    rw [hm] at h
    cases h
  | some km =>
    obtain ⟨k, m⟩ := km
    rw [hm] at h
    have h := congrArg Prod.fst h
    cases m with
    | nil | symbol | var | float | accessor =>
      obtain rfl := Except.ok.inj h
      rfl
    | integer | className | instanceMember | staticMember =>
      obtain ⟨a, rfl⟩ := exists_of_map h
      rfl
    | ratio =>
      obtain ⟨n, d, -, -, -, rfl⟩ := ratio_eq_ok_iff.1 h
      exact isAtom_quotient _ _

theorem isList_of_interpret (h : (standard env).interpret locate cs s = (.ok v, t)) :
    v.isList = false := Form.isList_of_isAtom (isAtom_of_interpret h)

end Services

theorem Lexeme.isList_of_literal? {x : Lexeme} {v : Form} (h : x.literal? = some (.ok v)) :
    v.isList = false := by
  obtain ⟨content, rfl⟩ := exists_text_of_literal? h
  rfl

/-! ### The order of places -/

namespace Mark

def Before (a b : Mark) : Prop := a.line < b.line ∨ a.line = b.line ∧ a.col < b.col

def UpTo (a b : Mark) : Prop := a.line < b.line ∨ a.line = b.line ∧ a.col ≤ b.col

variable {a b : Mark}

theorem UpTo.refl (a : Mark) : a.UpTo a := .inr ⟨rfl, Int.le_refl a.col⟩

theorem Before.upTo (h : a.Before b) : a.UpTo b := h.imp_right fun h => ⟨h.1, Int.le_of_lt h.2⟩

/-- Every piece stands behind what was read before it. -/
theorem UpTo.next (h : a.UpTo b) (p : Piece) : a.Before (b.next p) := by
  unfold UpTo at h
  unfold Before Mark.next
  split
  · left
    show a.line < b.line + 1
    omega
  · show a.line < b.line ∨ a.line = b.line ∧ a.col < b.col + 1
    omega

theorem UpTo.through (h : a.UpTo b) (cs : List Char) : a.UpTo (b.through cs) := by
  induction cs generalizing b with
  | nil => exact h
  | cons c cs ih => exact ih (h.next [c]).upTo

end Mark

/-- The spans stand one behind the other between two places, none of them empty. -/
inductive Span.Chain : Mark → List Span → Mark → Prop
  | nil {first last : Mark} (h : first.Before last) : Chain first [] last
  | cons {first a b last : Mark} {spans : List Span} (ha : first.Before a) (hab : a.Before b)
    (h : Chain b spans last) : Chain first (.between a b :: spans) last

variable {env : Host.Environment} {m : Mark} {s t : Store} {xs : List Lexeme} {vs items : List Form}

namespace Laid

/-- The spans of what is laid out from a place on follow each other behind that place. The spans
that follow further behind are put after them. -/
theorem chain_append (h : Laid (.standard env) m s xs vs t) :
    ∀ {first last : Mark} {spans : List Span}, first.UpTo m →
      (∀ first' : Mark, first'.UpTo (m.past xs) → Span.Chain first' spans last) →
      Span.Chain first (vs.filterMap Form.span? ++ spans) last := by
  induction h with
  | nil => exact fun hm hrest => hrest _ hm
  | blank | comment => exact fun hm hrest => hrest _ (hm.through _)
  | literal hx =>
    intro first last spans hm hrest
    have hnone := Form.span?_of_isList_eq_false (Lexeme.isList_of_literal? hx)
    simpa [hnone] using hrest _ (hm.through _)
  | token hv =>
    intro first last spans hm hrest
    have hnone := Form.span?_of_isList_eq_false (Services.isList_of_interpret hv)
    simpa [hnone] using hrest _ (hm.through _)
  | @list m s xs items t _ _ =>
    intro first last spans hm hrest
    have hinside : (m.next ['(']).UpTo ((m.next ['(']).past xs) := (Mark.UpTo.refl _).through _
    refine .cons (hm.next _) (hinside.next _) (hrest _ ?_)
    rw [Mark.past_enclosed]
    exact .refl _
  | @append m s xs vs s₁ ys us s₂ _ _ ih ih' =>
    intro first last spans hm hrest
    rw [List.filterMap_append, List.append_assoc]
    rw [Mark.past_append] at hrest
    exact ih hm fun first' h => ih' h hrest

/-- The lists among the items of a list stand one behind the other between its parentheses. -/
theorem chain (h : Laid (.standard env) m s xs items t) :
    Span.Chain m (items.filterMap Form.span?) ((m.past xs).next [')']) := by
  have hchain := h.chain_append (.refl m) fun first' h => .nil (h.next [')'])
  rwa [List.append_nil] at hchain

/-- A list at any depth is laid out over parentheses of its own. -/
theorem exists_of_within {span : Option Span} (h : Laid (.standard env) m s xs vs t)
    (hin : (Form.list items span).Within vs) :
    ∃ pre ys post s₁ s₂, xs = pre ++ (.opening :: (ys ++ [.closing])) ++ post ∧
      span = some (.over ((m.past pre).next ['(']) ys) ∧
      Laid (.standard env) ((m.past pre).next ['(']) s₁ ys items s₂ ∧ s₂.Extends t := by
  induction h with
  | nil | blank | comment => exact (Form.not_within_nil hin).elim
  | literal hx =>
    exact (Form.not_within_of_isList_eq_false (Lexeme.isList_of_literal? hx) hin).elim
  | token hv =>
    exact (Form.not_within_of_isList_eq_false (Services.isList_of_interpret hv) hin).elim
  | @list m s xs items' t h ih =>
    rcases Form.within_singleton hin with hlist | ⟨_, _, hlist, hin⟩
    · obtain ⟨rfl, rfl⟩ := Form.list.inj hlist
      exact ⟨[], xs, [], s, t, (List.append_nil _).symm, rfl, h, .refl t⟩
    · obtain ⟨rfl, -⟩ := Form.list.inj hlist
      obtain ⟨pre, ys, post, s₁, s₂, rfl, hspan, hlaid, hext⟩ := ih hin
      exact ⟨.opening :: pre, ys, post ++ [.closing], s₁, s₂, by simp, hspan, hlaid, hext⟩
  | @append m s xs vs t₁ ys us t₂ _ h' ih ih' =>
    rcases Form.within_append hin with hin | hin
    · obtain ⟨pre, zs, post, s₁, s₂, rfl, hspan, hlaid, hext⟩ := ih hin
      refine ⟨pre, zs, post ++ ys, s₁, s₂, by simp, hspan, hlaid, ?_⟩
      exact h'.keeps (Store.keeps_extends env s₂) hext
    · obtain ⟨pre, zs, post, s₁, s₂, rfl, hspan, hlaid, hext⟩ := ih' hin
      rw [← Mark.past_append] at hspan hlaid
      exact ⟨xs ++ pre, zs, post, s₁, s₂, by simp, hspan, hlaid, hext⟩

end Laid

/-! ### Whole texts -/

/-- The text of lexemes that stand in parentheses stands in parentheses. -/
theorem Lexeme.cut_eq_enclosed {cs : List Char} (h : cut cs = .opening :: (xs ++ [.closing])) :
    ∃ inner, cs = '(' :: (inner ++ [')']) ∧ cut inner = xs := by
  have single {ds : List Char} {x : Lexeme} (h : cut ds = [x]) : ds = x.text := by
    rw [← flatMap_text_cut ds, h, List.flatMap_singleton]
  obtain ⟨a, b, rfl, ha, hb⟩ := @cut_eq_append [.opening] _ _ h
  obtain ⟨inner, c, rfl, hinner, hc⟩ := cut_eq_append hb
  refine ⟨inner, ?_, hinner⟩
  rw [single ha, single hc]
  rfl

/-- A text that is given the place of a parenthesis, one column before it, begins there. -/
theorem Mark.next_initial {n : Mark} (hn : n.after = .none) :
    (initial (some n.line) (some (n.col - 1))).next ['('] = n := by
  obtain ⟨line, col, after⟩ := n
  obtain rfl : after = .none := hn
  simp [next, initial, breaksBefore, LineBreak.of]

theorem Mark.after_through_opening (m : Mark) (cs : List Char) :
    (m.through (cs ++ ['('])).after = .none := by
  rw [through_concat, next]
  split <;> rfl

theorem Span.over_cut (first : Mark) (cs : List Char) :
    Span.over first (Lexeme.cut cs) = .between first (first.through (cs ++ [')'])) := by
  rw [Span.over, Mark.past_cut, Mark.through_concat]

/-- What is laid out in parentheses is read with them as a list, from where they stand and in any
later store. -/
theorem Laid.read_enclosed {first : Mark} {text : String} {u : Store}
    (h : Laid (.standard env) first s xs items t) (hfirst : first.after = .none)
    (hu : t.Extends u) (hcut : Lexeme.cut text.toList = .opening :: (xs ++ [.closing])) :
    let r := LispForms.read (.standard env) ⟨false, false, some first.line, some (first.col - 1)⟩
      (.ofString text) u
    r.fault = none ∧ r.forms = [.list items (some (.over first xs))] := by
  intro r
  have hstart := Mark.next_initial hfirst
  have hlater : t.Extends ((Services.standard env).note (Source.ofString text).opening u) :=
    hu.trans (Store.extends_note u _)
  obtain ⟨u', hinner, -⟩ := h.later hlater
  rw [← hstart] at hinner
  have hlist := hinner.list
  rw [hstart, ← hcut] at hlist
  have hread : r = ⟨_, none, u'⟩ := hlist.read
  exact ⟨congrArg Reading.fault hread, congrArg Reading.forms hread⟩

/-- A list at any depth of what is laid out over a text is laid out over a slice of it. -/
theorem Laid.exists_slice {cs : List Char} {ys : List Lexeme} {span : Option Span}
    (h : Laid (.standard env) m s xs vs t) (hcut : Lexeme.cut cs = xs ++ ys)
    (hin : (Form.list items span).Within vs) : ∃ pre inner post s₁ s₂,
      cs = pre ++ '(' :: (inner ++ [')']) ++ post ∧
      Lexeme.cut cs =
        Lexeme.cut pre ++ .opening :: (Lexeme.cut inner ++ [.closing]) ++ Lexeme.cut post ∧
      Lexeme.cut ('(' :: (inner ++ [')'])) = .opening :: (Lexeme.cut inner ++ [.closing]) ∧
      span = some (.over (m.through (pre ++ ['('])) (Lexeme.cut inner)) ∧
      Laid (.standard env) (m.through (pre ++ ['('])) s₁ (Lexeme.cut inner) items s₂ ∧
      s₂.Extends t := by
  obtain ⟨xs₁, xs₂, xs₃, s₁, s₂, rfl, hspan, hinner, hext⟩ := h.exists_of_within hin
  rw [List.append_assoc, List.append_assoc] at hcut
  obtain ⟨pre, rest, rfl, rfl, hrest⟩ := Lexeme.cut_eq_append hcut
  obtain ⟨slice, post, rfl, hslice, hpost⟩ := Lexeme.cut_eq_append hrest
  obtain ⟨inner, rfl, rfl⟩ := Lexeme.cut_eq_enclosed hslice
  have hfirst : (m.past (Lexeme.cut pre)).next ['('] = m.through (pre ++ ['(']) := by
    rw [Mark.past_cut, Mark.through_concat]
  rw [hfirst] at hspan hinner
  refine ⟨pre, inner, post, s₁, s₂, (List.append_assoc _ _ _).symm, ?_, hslice, hspan, hinner, hext⟩
  rw [hcut, hpost, List.append_assoc]

/-- The forms of a reading are laid out over its text, and every list among them, at any depth,
stands from a parenthesis to the one that matches it. The lists among its items follow one another
in between, and in any later store the slice by itself is read as that list. -/
theorem read_spans (env : Host.Environment) (s : Store) (endIsError suppress : Bool)
    (line col : Option Int) (text : String) :
    let r := read (.standard env) ⟨endIsError, suppress, line, col⟩ (.ofString text) s
    let start := Mark.initial line col
    (suppress = false → ∃ xs ys s₁ s₂, Lexeme.cut text.toList = xs ++ ys ∧
      Laid (.standard env) start s₁ xs r.forms s₂) ∧
    ∀ items span, (Form.list items span).Within r.forms → ∃ pre inner post : List Char,
      let first := start.through (pre ++ ['('])
      let last := start.through (pre ++ ['('] ++ inner ++ [')'])
      text.toList = pre ++ '(' :: (inner ++ [')']) ++ post ∧
      Lexeme.cut text.toList = Lexeme.cut pre ++
        .opening :: (Lexeme.cut inner ++ [.closing]) ++ Lexeme.cut post ∧
      Lexeme.Balanced (Lexeme.cut inner) ∧
      span = some (.between first last) ∧
      Span.Chain first (items.filterMap Form.span?) last ∧
      ∀ t, r.world.Extends t →
        let slice := read (.standard env) ⟨false, false, some first.line, some (first.col - 1)⟩
          (.ofString (.ofList ('(' :: (inner ++ [')'])))) t
        slice.fault = none ∧ slice.forms = [.list items span] := by
  intro r start
  cases suppress with
  | true =>
    have hnil := (idle_read (.standard env) endIsError line col text s).2
    refine ⟨Bool.noConfusion, fun items span hin => ?_⟩
    rcases hin with h | ⟨h, -⟩ <;> exact Form.noConfusion (hnil _ h)
  | false =>
    let cfg : Settings Store := ⟨.standard env, .all, false, endIsError, none, .complete⟩
    obtain ⟨xs, ys, s₂, hcut, hlaid, hkeeps⟩ := @exists_laid _ cfg rfl rfl rfl text.toList start
      ((Services.standard env).note (Source.ofString text).opening s)
    refine ⟨fun _ => ⟨xs, ys, _, s₂, hcut, hlaid⟩, fun items span hin => ?_⟩
    obtain ⟨pre, inner, post, s₃, s₄, htext, hcuts, hslice, hspan, hinner, hext⟩ :=
      hlaid.exists_slice hcut hin
    have hover := Span.over_cut (start.through (pre ++ ['('])) inner
    have hchain := hinner.chain
    rw [← Mark.through_append, ← List.append_assoc] at hover
    rw [Mark.past_cut, ← Mark.through_append, ← Mark.through_concat] at hchain
    refine ⟨pre, inner, post, htext, hcuts, hinner.balanced, hspan.trans (congrArg some hover),
      hchain, fun t ht => ?_⟩
    have hlater : s₄.Extends r.world :=
      hkeeps s₄.Extends (Store.keeps_extends env s₄) hext
    rw [hspan]
    rw [← String.toList_ofList (l := '(' :: (inner ++ [')']))] at hslice
    exact hinner.read_enclosed (start.after_through_opening pre) (hlater.trans ht) hslice

/-- A list on two lines in a list with a character that is a parenthesis. -/
theorem read_spans_nested :
    let r := read (.standard .standard) ⟨false, false, some 5, none⟩ (.ofString "(\\) (1\n))")
      .empty
    let inside := Form.list [.integer 1] (some ⟨some 5, some 5, some 6, some 1⟩)
    inside.Within r.forms ∧ ∃ pre inner post : List Char,
      let first := (Mark.initial (some 5) none).through (pre ++ ['('])
      "(\\) (1\n))".toList = pre ++ '(' :: (inner ++ [')']) ++ post ∧
      Lexeme.Balanced (Lexeme.cut inner) ∧
      (read (.standard .standard) ⟨false, false, some first.line, some (first.col - 1)⟩
        (.ofString (.ofList ('(' :: (inner ++ [')'])))) r.world).forms = [inside] := by
  intro r inside
  have hforms : r.forms =
      [.list [.text ")", inside] (some ⟨some 5, some 1, some 6, some 2⟩)] := by
    rfl
  have hin : inside.Within r.forms := by
    rw [hforms]
    exact .inside List.mem_cons_self (.here (by simp))
  obtain ⟨-, hlists⟩ :=
    read_spans .standard .empty false false (some 5) none "(\\) (1\n))"
  obtain ⟨pre, inner, post, htext, -, hbalanced, -, -, hslice⟩ := hlists _ _ hin
  exact ⟨hin, pre, inner, post, htext, hbalanced, (hslice _ (.refl r.world)).2⟩

end LispForms
