import LispForms.Proofs.FormEnd
import LispForms.Proofs.Spelling

/-! Characters behind a backslash. The first of them is taken as it is, whatever it means elsewhere,
and one that stands alone in front of what ends a token is the form that it spells. Whatever follows
keeps its own meaning. -/

namespace LispForms

variable {W : Type} {cfg : Settings W} {ls : List OpenList} {fs : List Form} {m start : Mark}
  {w : W} {c : Char} {t cs rest r : List Char} {sv : Services W}

/-- The string of a single character. -/
def Form.ofChar (c : Char) : Form := .text (.singleton c)

theorem Assembly.characterValue_singleton (c : Char) :
    Assembly.characterValue [c] = .ok (.ofChar c) := rfl

/-- In any reading of a whole text, at any depth of it, a character behind a backslash is read as
itself, and the reading goes on in front of whatever follows that ends a token. -/
theorem run_character (hg : cfg.goal = .all) (he : cfg.ending = .complete) (hr : StopsToken rest) :
    run cfg ⟨.between, ls, fs, m, w⟩ ('\\' :: c :: rest) =
      run cfg (State.put cfg (.ofChar c) ⟨.between, ls, fs, m.through ['\\', c], w⟩) rest := by
  rw [run_on (feed_backslash hg), run_on feed_character_first]
  exact run_settle hg he .character hr
    (settle_of_characterValue (Assembly.characterValue_singleton c))

/-- The same where only the next form of a text is read. -/
theorem takes_character {endIsError : Bool} {line col : Option Int} (hr : StopsToken r) :
    Takes sv endIsError line col w ['\\', c] (.ofChar c) r := by
  have hlaid : Laid sv (.initial line col) w ([] ++ [.character [c]]) [.ofChar c] w := .literal rfl
  have hcut : Lexeme.cut ['\\', c] = [] ++ [.character [c]] := by
    rw [Lexeme.cut_cons]
    exact congrArg _ Lexeme.cut_nil
  exact hlaid.takes (.inr rfl) (fun _ => hr) hcut

/-! ### Lists of characters -/

/-- Characters behind backslashes, with any blanks before, between and behind them, and what they
are. -/
inductive Literals : List Char → List Char → Prop
  | nil : Literals [] []
  | blank {b : Char} {t cs : List Char} (hb : Text.isBlank b = true) (h : Literals t cs) :
    Literals (b :: t) cs
  | character (c : Char) {t cs : List Char} (h : Literals t cs) :
    Literals ('\\' :: c :: t) (c :: cs)

/-- Whatever the characters are, nothing but a blank or a backslash stands in front. -/
theorem Literals.stopsToken (h : Literals t cs) (hr : StopsToken rest) :
    StopsToken (t ++ rest) := by
  cases h with
  | nil => exact hr
  | blank hb => exact stopsToken_cons (by simp [isOrdinary, hb]) _
  | character c => exact stopsToken_cons rfl _

theorem literals_spaced : ∀ cs : List Char,
    Literals ([' '].intercalate (cs.map fun c => ['\\', c])) cs
  | [] => .nil
  | [c] => .character c .nil
  | c :: d :: cs => .character c (.blank rfl (literals_spaced (d :: cs)))

/-- Read inside of a list, they are its next items. -/
theorem run_literals (hg : cfg.goal = .all) (he : cfg.ending = .complete) (h : Literals t cs)
    (hr : StopsToken rest) : ∀ (items : List Form) (m : Mark),
    run cfg ⟨.between, ⟨start, items⟩ :: ls, fs, m, w⟩ (t ++ rest) =
      run cfg ⟨.between, ⟨start, (cs.map .ofChar).reverse ++ items⟩ :: ls, fs, m.through t, w⟩
        rest := by
  induction h with
  | nil => exact fun _ _ => rfl
  | @blank b t cs hb _ ih =>
    intro items m
    rw [List.cons_append, run_on (feed_blank hb), ih]
    rfl
  | @character c t cs h ih =>
    intro items m
    have hput (m : Mark) : State.put cfg (.ofChar c) ⟨.between, ⟨start, items⟩ :: ls, fs, m, w⟩ =
        ⟨.between, ⟨start, .ofChar c :: items⟩ :: ls, fs, m, w⟩ := rfl
    rw [List.cons_append, List.cons_append, run_character hg he (h.stopsToken hr), hput, ih,
      List.map_cons, List.reverse_cons, List.append_assoc]
    rfl

/-- The list of the characters, read behind the place `start` from its opening parenthesis to the
end of the text. -/
def Form.ofChars (start : Mark) (text cs : List Char) : Form :=
  .list (cs.map .ofChar) (some (.between (start.next ['(']) (start.through text)))

theorem read_literals (line col : Option Int) (h : Literals t cs) :
    let text := '(' :: t ++ [')']
    let source := Source.ofString (.ofList text)
    read sv ⟨false, false, line, col⟩ source w =
      ⟨[.ofChars (.initial line col) text cs], none, sv.note source.opening w⟩ := by
  intro text source
  let cfg : Settings W := ⟨sv, .all, false, false, none, .complete⟩
  let behind := ((Mark.initial line col).next ['(']).through t
  have happ : text = '(' :: (t ++ [')']) := List.cons_append
  have hthrough : (Mark.initial line col).through text = behind.next [')'] := by
    rw [happ, Mark.through_cons, Mark.through_concat]
  have hclosed : run cfg (.initial (.initial line col) (sv.note source.opening w)) text =
      run cfg ⟨.between, [], [.ofChars (.initial line col) text cs], behind.next [')'],
        sv.note source.opening w⟩ [] := by
    rw [Form.ofChars, hthrough, happ, State.initial, run_on (feed_opening rfl),
      run_literals rfl rfl h (stopsToken_cons rfl []), run_on (feed_closing rfl _), List.append_nil,
      List.reverse_reverse]
    rfl
  have hread := read_ofString sv ⟨false, false, line, col⟩ (.ofList text) w
  rw [String.toList_ofList] at hread
  rw [hread, hclosed]
  rfl

/-- Every character has a literal. Between parentheses the literals of any characters, with a space
between each and the next, are one form, the list of the characters, and so they are with any blanks
or with none between them. A literal is read as its character wherever a form may begin, at any
depth, in front of a blank, a special character or the end of the text, and what follows is read as
it is read anywhere. -/
theorem read_characters (sv : Services W) (line col : Option Int) (w : W) :
    let start := Mark.initial line col
    let IsList (text cs : List Char) :=
      let source := Source.ofString (.ofList text)
      read sv ⟨false, false, line, col⟩ source w =
        ⟨[.ofChars start text cs], none, sv.note source.opening w⟩
    (∀ cs, IsList ('(' :: [' '].intercalate (cs.map fun c => ['\\', c]) ++ [')']) cs) ∧
    (∀ t cs, Literals t cs → IsList ('(' :: t ++ [')']) cs) ∧
    (∀ cfg : Settings W, cfg.goal = .all → cfg.ending = .complete → ∀ c r, StopsToken r →
      ∀ ls fs m u, run cfg ⟨.between, ls, fs, m, u⟩ ('\\' :: c :: r) =
        run cfg (State.put cfg (.ofChar c) ⟨.between, ls, fs, m.through ['\\', c], u⟩) r) ∧
    ∀ c r, StopsToken r → ∀ endIsError,
      Takes sv endIsError line col w ['\\', c] (.ofChar c) r :=
  ⟨fun cs => read_literals line col (literals_spaced cs), fun _ _ => read_literals line col,
    fun _ hg he _ _ hr _ _ _ _ => run_character hg he hr, fun _ _ hr _ => takes_character hr⟩

end LispForms
