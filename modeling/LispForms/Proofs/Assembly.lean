import LispForms.Proofs.Bare
import LispForms.Proofs.Step
import LispForms.Reader.Reading

/-! Reading in two passes: a text is cut into lexemes, and the lexemes are put together with a
stack of open lists. The reading machine, which does both at once and character by character,
comes to the same forms, the same fault and the same world. -/

namespace LispForms

variable {W : Type}

/-- What the lexemes so far have come to. -/
structure Assembly (W : Type) where
  /-- The forms in the open lists, innermost list first, newest form first. -/
  lists : List (List Form)
  /-- The forms outside of lists, newest first. -/
  forms : List Form
  world : W

namespace Assembly

/-- Adds a form to the innermost open list. -/
def put (v : Form) (a : Assembly W) : Assembly W :=
  match a.lists with
  | items :: outer => { a with lists := (v :: items) :: outer }
  | [] => { a with forms := v :: a.forms }

def receive (a : Assembly W) : Except Fault Form → Assembly W × Option Fault
  | .ok v => (a.put v, none)
  | .error f => (a, some f)

/-- The content of a string, up to its first unsupported escape. A backslash without a character
behind it is at the end of a text, so that the string is not closed. -/
def unescape : List Char → Except Problem (List Char)
  | [] => .ok []
  | '\\' :: c :: cs =>
    match State.unescape? c with
    | some x => (unescape cs).map (x :: ·)
    | none => .error (.escape (.singleton c))
  | c :: cs => (unescape cs).map (c :: ·)

def stringValue (body : List Char) (closed : Bool) : Except Problem Form :=
  match unescape body with
  | .ok cs => if closed then .ok (.text (.ofList cs)) else .error (.unfinished .string)
  | .error p => .error p

def characterValue (name : List Char) : Except Problem Form :=
  match Token.character? name with
  | some c => .ok (.text (.singleton c))
  | none => .error (if name = [] then .unfinished .character else .character (.ofList name))

/-- The effect of a lexeme, and the fault if it has one. -/
def take (sv : Services W) (a : Assembly W) : Lexeme → Assembly W × Option Fault
  | .blank _ | .comment _ => (a, none)
  | .opening => ({ a with lists := [] :: a.lists }, none)
  | .closing =>
    match a.lists with
    | items :: outer => (put (.list items.reverse none) { a with lists := outer }, none)
    | [] => (a, some (Problem.delimiter ")").unplaced)
  | .string body closed => a.receive ((stringValue body closed).mapError Problem.unplaced)
  | .character name => a.receive ((characterValue name).mapError Problem.unplaced)
  | .token cs =>
    let (r, w) := sv.interpret Problem.unplaced cs a.world
    { a with world := w }.receive r

/-- Puts lexemes together up to the first fault. At their end no list may be open. -/
def run (sv : Services W) (a : Assembly W) : List Lexeme → Assembly W × Option Fault
  | [] => (a, if a.lists.isEmpty then none else some (Problem.unfinished .form).unplaced)
  | x :: xs =>
    match a.take sv x with
    | (a, none) => run sv a xs
    | (a, some f) => (a, some f)

/-- The reading of a text in two passes. -/
def reading (sv : Services W) (text : List Char) (w : W) : Reading W :=
  let (a, fault) := run sv ⟨[], [], w⟩ (Lexeme.cut text)
  ⟨a.forms.reverse, fault, a.world⟩

end Assembly

/-- A reading without places. -/
def Reading.bare (r : Reading W) : Reading W :=
  ⟨r.forms.map Form.bare, r.fault.map Fault.unplaced, r.world⟩

theorem Reading.of_bare {r : Reading W} {vs : List Form} {w : W} (h : r.bare = ⟨vs, none, w⟩) :
    r.fault = none ∧ r.forms.map Form.bare = vs := by
  have hfault : r.fault.map Fault.unplaced = none := congrArg Reading.fault h
  exact ⟨by simpa using hfault, congrArg Reading.forms h⟩

/-- Reading every form of an unnamed text, with values and up to its end. -/
abbrev Settings.plain (sv : Services W) : Settings W := ⟨sv, .all, false, false, none, .complete⟩

/-- A state of the machine as a state of the second pass. -/
def State.assembly (st : State W) : Assembly W :=
  ⟨st.lists.map fun l => l.items.map Form.bare, st.forms.map Form.bare, st.world⟩

def Outcome.assembly (o : Outcome W) : Assembly W × Option Fault :=
  (o.state.assembly, o.fault?.map Fault.unplaced)

/-! ### Strings -/

section Strings

variable {cfg : Settings W} {ls : List OpenList} {fs : List Form} {w : W} {cs : List Char}
  {p : Problem}

open Lexeme (splitString)

namespace Assembly

open State (unescape?)

theorem stringValue_eq_ok_iff {body : List Char} {closed : Bool} {v : Form} :
    stringValue body closed = .ok v ↔
      closed = true ∧ ∃ xs, unescape body = .ok xs ∧ .text (.ofList xs) = v := by
  unfold stringValue
  cases unescape body <;> cases closed <;> simp

theorem characterValue_eq_ok_iff {name : List Char} {v : Form} :
    characterValue name = .ok v ↔
      ∃ c, Token.character? name = some c ∧ .text (.singleton c) = v := by
  unfold characterValue
  cases Token.character? name <;> simp

/-- The content of a string up to and with its first unsupported escape, and what follows that. -/
def splitEscape : List Char → List Char × List Char
  | [] => ([], [])
  | '\\' :: c :: cs =>
    if (unescape? c).isSome then
      let (taken, left) := splitEscape cs
      ('\\' :: c :: taken, left)
    else (['\\', c], cs)
  | c :: cs =>
    let (taken, left) := splitEscape cs
    (c :: taken, left)

theorem splitEscape_append (cs : List Char) : (splitEscape cs).1 ++ (splitEscape cs).2 = cs := by
  fun_induction splitEscape cs with
  | case1 => rfl
  | case2 c cs _ taken left h ih => simpa [h] using ih
  | case3 c cs => rfl
  | case4 c cs _ taken left h ih => simpa [h] using ih

/-- A string that can be unescaped is read to its end. -/
theorem splitEscape_eq_self {xs : List Char} (h : unescape cs = .ok xs) :
    splitEscape cs = (cs, []) := by
  fun_induction splitEscape cs generalizing xs with
  | case1 => rfl
  | case2 c cs hc taken left hsplit ih =>
    obtain ⟨x, hx⟩ := Option.isSome_iff_exists.1 hc
    cases hu : unescape cs with
    | ok xs => simpa [hsplit] using ih hu
    | error q => simp [unescape, hx, hu, Except.map] at h
  | case3 c cs hc =>
    have hx : unescape? c = none := by simpa using hc
    simp [unescape, hx] at h
  | case4 c cs hc taken left hsplit ih =>
    rw [unescape.eq_3 _ _ hc] at h
    cases hu : unescape cs with
    | ok xs => simpa [hsplit] using ih hu
    | error q => simp [hu, Except.map] at h

/-- A string that cannot be unescaped is read up to and with an unsupported escape. -/
theorem suffix_splitEscape (h : unescape cs = .error p) :
    ∃ c, p = .escape (.singleton c) ∧ ['\\', c] <:+ (splitEscape cs).1 := by
  fun_induction splitEscape cs with
  | case1 => cases h
  | case2 c cs hc taken left hsplit ih =>
    obtain ⟨x, hx⟩ := Option.isSome_iff_exists.1 hc
    rw [hsplit] at ih
    cases hu : unescape cs with
    | ok xs => simp [unescape, hx, hu, Except.map] at h
    | error q =>
      obtain rfl : q = p := by simpa [unescape, hx, hu, Except.map] using h
      obtain ⟨d, hp, hsuffix⟩ := ih hu
      exact ⟨d, hp, hsuffix.trans (List.suffix_append ['\\', c] taken)⟩
  | case3 c cs hc =>
    have hx : unescape? c = none := by simpa using hc
    obtain rfl : .escape (.singleton c) = p := by simpa [unescape, hx] using h
    exact ⟨c, rfl, List.suffix_refl _⟩
  | case4 c cs hc taken left hsplit ih =>
    rw [hsplit] at ih
    rw [unescape.eq_3 _ _ hc] at h
    cases hu : unescape cs with
    | ok xs => simp [hu, Except.map] at h
    | error q =>
      obtain rfl : q = p := by simpa [hu, Except.map] using h
      obtain ⟨d, hp, hsuffix⟩ := ih hu
      exact ⟨d, hp, hsuffix.trans (List.suffix_cons c taken)⟩

end Assembly

open Assembly (splitEscape)

/-- A string is read to its end, or up to and with its first unsupported escape. -/
theorem run_string (hg : cfg.goal = .all) (he : cfg.ending = .complete) (cs : List Char) :
    ∀ (g : List Char) (m : Mark),
      match Assembly.unescape (splitString cs).1, (splitString cs).2.1 with
      | .ok x, true => run cfg ⟨.string g, ls, fs, m, w⟩ cs =
        run cfg (State.put cfg (.text (.ofList (g.reverse ++ x)))
          ⟨.between, ls, fs, m.through ((splitString cs).1 ++ ['"']), w⟩) (splitString cs).2.2
      | .ok _, false =>
        let last := (m.through (splitString cs).1).next []
        (run cfg ⟨.string g, ls, fs, m, w⟩ cs).Fails ⟨.between, ls, fs, last, w⟩
          (last.locate cfg.source (.unfinished .string)) []
      | .error p, closed =>
        let last := m.through (splitEscape (splitString cs).1).1
        (run cfg ⟨.string g, ls, fs, m, w⟩ cs).Fails ⟨.between, ls, fs, last, w⟩
          (last.locate cfg.source p) ((splitEscape (splitString cs).1).2 ++
            ((if closed then ['"'] else []) ++ (splitString cs).2.2)) := by
  fun_induction splitString cs with
  | case1 =>
    intro g m
    rw [run_nil _ he]
    exact ⟨rfl, rfl, rfl, rfl, rfl, rfl⟩
  | case2 cs =>
    intro g m
    simp only [Assembly.unescape, List.append_nil]
    rw [run_on (feed_string_quote hg)]
    rfl
  | case3 c cs body closed rest h ih =>
    intro g m
    rw [h] at ih
    rw [run_on feed_string_backslash]
    cases hx : State.unescape? c with
    | none =>
      have hcs := Lexeme.splitString_append cs
      rw [h] at hcs
      simp only [Assembly.unescape, hx, splitEscape, Option.isSome_none, Bool.false_eq_true,
        ↓reduceIte]
      rw [run_past (feed_unsupported hx)]
      exact ⟨rfl, rfl, rfl, rfl, rfl, hcs.symm⟩
    | some x =>
      have hrun := ih (x :: g) ((m.next ['\\']).next [c])
      rw [run_on (feed_escape hx)]
      simp only [Assembly.unescape, hx, splitEscape, Option.isSome_some, ↓reduceIte]
      cases hu : Assembly.unescape body <;> rw [hu] at hrun <;> cases closed <;>
        simpa [Except.map, Mark.through_cons] using hrun
  | case4 c cs h1 h2 body closed rest h ih =>
    intro g m
    rw [h] at ih
    have hq : c ≠ '"' := h1
    by_cases hc : c = '\\'
    · -- a backslash at the end of the text
      obtain rfl : cs = [] := by
        cases cs with
        | nil => rfl
        | cons d ds => exact (h2 d ds hc rfl).elim
      obtain ⟨rfl, rfl, rfl⟩ : body = [] ∧ closed = false ∧ rest = [] := by
        simpa [splitString, eq_comm] using h
      rw [hc, run_on feed_string_backslash, run_nil _ he]
      exact ⟨rfl, rfl, rfl, rfl, rfl, rfl⟩
    · have hrun := ih (c :: g) (m.next [c])
      have hu : Assembly.unescape (c :: body) = (Assembly.unescape body).map (c :: ·) :=
        Assembly.unescape.eq_3 _ _ fun _ _ e => (hc e).elim
      have hs : splitEscape (c :: body) =
          (c :: (splitEscape body).1, (splitEscape body).2) :=
        splitEscape.eq_3 _ _ fun _ _ e => (hc e).elim
      rw [run_on (feed_string hq hc)]
      simp only [hu, hs]
      cases hu : Assembly.unescape body <;> rw [hu] at hrun <;> cases closed <;>
        simpa [Except.map, Mark.through_cons] using hrun

end Strings

/-- A run that fails is in the state in which it fails. -/
theorem Outcome.Fails.assembly {st : State W} {f : Fault} {ahead : List Char} {o : Outcome W}
    (h : o.Fails st f ahead) : o.assembly = (st.assembly, some f.unplaced) := by
  unfold Outcome.assembly Outcome.fault? State.assembly
  rw [h.stop, h.lists, h.forms, h.world]
  rfl

section Simulation

variable {sv : Services W} {ls : List OpenList} {fs : List Form} {w : W}

open Lexeme (splitComment splitString cut first)

theorem State.assembly_put (v : Form) (st : State W) :
    (st.put (.plain sv) v).assembly = st.assembly.put v.bare := by
  unfold State.put State.assembly Assembly.put
  cases st.lists <;> simp

/-! ### Comments and strings -/

theorem assembly_run_comment (cs : List Char) (m : Mark) : ∃ m',
    (run (.plain sv) ⟨.comment, ls, fs, m, w⟩ cs).assembly =
      (run (.plain sv) ⟨.between, ls, fs, m', w⟩ (splitComment cs).2).assembly := by
  rcases @run_comment _ (.plain sv) ls fs w rfl cs m with ⟨-, h⟩ | ⟨-, hrest, h⟩
  · exact ⟨_, by rw [h]⟩
  · refine ⟨(m.through (splitComment cs).1).next [], ?_⟩
    rw [h, hrest, run_nil _ rfl]
    rfl

theorem assembly_run_string (cs g : List Char) (m : Mark) : ∃ m',
    (run (.plain sv) ⟨.string g, ls, fs, m, w⟩ cs).assembly =
      match Assembly.unescape (splitString cs).1, (splitString cs).2.1 with
      | .ok x, true =>
        (run (.plain sv) (State.put (.plain sv) (.text (.ofList (g.reverse ++ x)))
          ⟨.between, ls, fs, m', w⟩) (splitString cs).2.2).assembly
      | .ok _, false =>
        ((⟨.between, ls, fs, m', w⟩ : State W).assembly,
          some (Problem.unfinished .string).unplaced)
      | .error p, _ => ((⟨.between, ls, fs, m', w⟩ : State W).assembly, some p.unplaced) := by
  have h := @run_string _ (.plain sv) ls fs w rfl rfl cs g m
  refine ⟨m.through ((splitString cs).1 ++ ['"']), ?_⟩
  cases hu : Assembly.unescape (splitString cs).1 with
  | error p =>
    rw [hu] at h
    exact h.assembly
  | ok x =>
    rw [hu] at h
    cases hc : (splitString cs).2.1 with
    | true =>
      rw [hc] at h
      rw [h]
    | false =>
      rw [hc] at h
      exact h.assembly

/-! ### Tokens and characters -/

theorem assembly_settle_token (hp : sv.Plain) (g : List Char) (m : Mark) :
    ((State.settle (.plain sv) ⟨.token g, ls, fs, m, w⟩).1.assembly,
      (State.settle (.plain sv) ⟨.token g, ls, fs, m, w⟩).2.map Fault.unplaced) =
      Assembly.take sv (State.assembly ⟨.between, ls, fs, m, w⟩) (.token g.reverse) := by
  let locate := State.locate (.plain sv) ⟨.token g, ls, fs, m, w⟩
  have hl := @Services.interpret_unplaced _ locate (fun _ => rfl) sv g.reverse w
  have hb (v : Form) (h : (sv.interpret locate g.reverse w).1 = .ok v) : v.bare = v :=
    Services.bare_of_interpret hp h
  simp only [State.settle, Assembly.take, State.assembly, hl, Bool.false_eq_true, ↓reduceIte]
  split
  next v w' h =>
    rw [h] at hb ⊢
    simp only [Except.mapError, Assembly.receive, Prod.mk.injEq]
    exact ⟨(State.assembly_put v _).trans (by rw [hb v rfl]; rfl), rfl⟩
  next f w' h =>
    rw [h]
    rfl

theorem assembly_settle_character {g : List Char} (hg : g ≠ []) (m : Mark) :
    ((State.settle (.plain sv) ⟨.character g, ls, fs, m, w⟩).1.assembly,
      (State.settle (.plain sv) ⟨.character g, ls, fs, m, w⟩).2.map Fault.unplaced) =
      Assembly.take sv (State.assembly ⟨.between, ls, fs, m, w⟩) (.character g.reverse) := by
  simp only [State.settle, Assembly.take, Assembly.characterValue]
  cases Token.character? g.reverse with
  | some c =>
    simp only [Except.mapError, Assembly.receive, Prod.mk.injEq]
    exact ⟨State.assembly_put _ _, rfl⟩
  | none =>
    simp only [List.reverse_eq_nil_iff, hg, ↓reduceIte]
    rfl

/-- A token or a character that is settled has the effect of its lexeme. -/
theorem assembly_run_settle {k : List Char → Mode} (hk : Gathers k) {rest : List Char}
    (hr : StopsToken rest) {g : List Char} {m : Mark} {a : Assembly W} {x : Lexeme}
    (h : ((State.settle (.plain sv) ⟨k g, ls, fs, m, w⟩).1.assembly,
      (State.settle (.plain sv) ⟨k g, ls, fs, m, w⟩).2.map Fault.unplaced) = a.take sv x)
    (ih : ∀ st : State W, st.mode = .between →
      (run (.plain sv) st rest).assembly = st.assembly.run sv (cut rest)) :
    (run (.plain sv) ⟨k g, ls, fs, m, w⟩ rest).assembly = a.run sv (x :: cut rest) := by
  rw [Assembly.run, ← h]
  rcases hs : State.settle (.plain sv) ⟨k g, ls, fs, m, w⟩ with ⟨st, _ | f⟩
  · rw [run_settle rfl rfl hk hr hs]
    exact ih st (mode_settle hk hs)
  · exact (run_settle_failed rfl rfl hk hr hs).assembly

/-! ### The whole text -/

theorem assembly_run (hp : sv.Plain) (cs : List Char) : ∀ st : State W, st.mode = .between →
    (run (.plain sv) st cs).assembly = st.assembly.run sv (cut cs) := by
  fun_induction cut cs with
  | case1 =>
    rintro ⟨mode, ls, fs, m, w⟩ rfl
    rw [run_nil _ rfl, Assembly.run]
    cases ls <;> rfl
  | case2 c cs ih =>
    rintro ⟨mode, ls, fs, m, w⟩ rfl
    rcases Lexeme.first_cases c with hc | rfl | rfl | rfl | rfl | rfl | hc
    · have hf : first c cs = (.blank c, cs) := by simp [first, hc]
      rw [hf] at ih ⊢
      rw [run_on (feed_blank hc)]
      exact ih _ rfl
    · obtain ⟨m', h⟩ := @assembly_run_comment _ sv ls fs w cs (m.next [';'])
      rw [run_on (feed_semicolon rfl), h]
      exact ih _ rfl
    · rw [run_on (feed_opening rfl)]
      exact ih _ rfl
    · cases ls with
      | nil =>
        rw [run_past (feed_unmatched rfl)]
        rfl
      | cons l ls =>
        rw [run_on (feed_closing rfl l)]
        refine (ih _ (mode_put _ _)).trans ?_
        rw [State.assembly_put, Form.bare_list, List.map_reverse]
        rfl
    · obtain ⟨m', h⟩ := @assembly_run_string _ sv ls fs w cs [] (m.next ['"'])
      have hf : first '"' cs =
        (.string (splitString cs).1 (splitString cs).2.1, (splitString cs).2.2) := rfl
      rw [hf] at ih ⊢
      rw [run_on (feed_quote rfl), h, Assembly.run, Assembly.take, Assembly.stringValue]
      cases Assembly.unescape (splitString cs).1 with
      | error p => rfl
      | ok x =>
        cases (splitString cs).2.1 with
        | false => rfl
        | true =>
          refine (ih _ (mode_put _ _)).trans ?_
          rw [State.assembly_put]
          rfl
    · rw [run_on (feed_backslash rfl)]
      cases cs with
      | nil =>
        rw [run_nil _ rfl]
        rfl
      | cons d ds =>
        have hf : first '\\' (d :: ds) =
          (.character (d :: ds.takeWhile isOrdinary), ds.dropWhile isOrdinary) := rfl
        rw [hf] at ih ⊢
        rw [run_on feed_character_first, run_gather .character ds [d]]
        have hset := @assembly_settle_character _ sv ls fs w
          ((ds.takeWhile isOrdinary).reverse ++ [d]) (by simp)
          (((m.next ['\\']).next [d]).through (ds.takeWhile isOrdinary))
        rw [List.reverse_append, List.reverse_reverse] at hset
        exact assembly_run_settle .character (Lexeme.stopsToken_dropWhile ds) hset ih
    · rw [run_on (feed_ordinary rfl hc)]
      rw [Lexeme.first_ordinary hc] at ih ⊢
      rw [run_gather .token cs [c]]
      have hset := @assembly_settle_token _ sv ls fs w hp
        ((cs.takeWhile isOrdinary).reverse ++ [c])
        ((m.next [c]).through (cs.takeWhile isOrdinary))
      rw [List.reverse_append, List.reverse_reverse] at hset
      exact assembly_run_settle .token (Lexeme.stopsToken_dropWhile cs) hset ih

end Simulation

/-- The machine reads a text as the two passes do, but for the places of lists and faults. -/
theorem bare_read {sv : Services W} (hp : sv.Plain) (line col : Option Int) (text : String)
    (w : W) :
    (read sv ⟨false, false, line, col⟩ (.ofString text) w).bare =
      Assembly.reading sv text.toList (sv.note (Source.ofString text).opening w) := by
  let st := State.initial (.initial line col) (sv.note (Source.ofString text).opening w)
  have h : (run (.plain sv) st text.toList).assembly =
      Assembly.run sv ⟨[], [], sv.note (Source.ofString text).opening w⟩ (Lexeme.cut text.toList) :=
    assembly_run hp text.toList st rfl
  rw [Assembly.reading, ← h, read_ofString]
  simp only [Reading.bare, Outcome.forms, Outcome.assembly, State.assembly, List.map_reverse]
  rfl

/-- Reading a text and reading it in two passes come to the same forms, up to the places of lists,
and to the same first fault, up to its place. -/
theorem read_eq_two_passes (env : Host.Environment) (line col : Option Int) (text : String)
    (s : Store) :
    let r := read (.standard env) ⟨false, false, line, col⟩ (.ofString text) s
    let a := Assembly.reading (.standard env) text.toList
      ((Services.standard env).note (Source.ofString text).opening s)
    r.forms.map Form.bare = a.forms ∧ r.fault.map Fault.unplaced = a.fault ∧ r.world = a.world := by
  intro r a
  have h : r.bare = a := bare_read (Services.plain_standard env) line col text s
  rw [← h]
  exact ⟨rfl, rfl, rfl⟩

end LispForms
