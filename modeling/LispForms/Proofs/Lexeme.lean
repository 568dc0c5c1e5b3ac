import LispForms.Token
import Mathlib.Data.List.TakeWhile

/-! Lexemes: the pieces into which a text falls from left to right before any of it has a
value. Nothing is lost in the cutting: the lexemes put together are the text. -/

namespace LispForms

/-- A character that a token goes on with. -/
def isOrdinary (c : Char) : Bool := !Text.isBlank c && !isSpecial c

/-- The spelling of a token: one ordinary character or more. -/
def IsTokenText (cs : List Char) : Prop := cs ≠ [] ∧ ∀ c ∈ cs, isOrdinary c = true

instance : DecidablePred IsTokenText := fun cs =>
  decidable_of_iff (cs ≠ [] ∧ cs.all isOrdinary = true) (by rw [IsTokenText, List.all_eq_true])

/-- A text in front of which a token ends. -/
def StopsToken (rest : List Char) : Prop := ∀ c ∈ rest.head?, isOrdinary c = false

inductive Lexeme where
  | blank (c : Char)
  /-- What follows a semicolon, up to and with the line break that ends the comment. -/
  | comment (body : List Char)
  | opening
  | closing
  /-- What follows a quote, as it is written, and whether a second quote stands behind it. -/
  | string (body : List Char) (closed : Bool)
  /-- What follows a backslash; it is empty only at the end of the text. -/
  | character (name : List Char)
  | token (cs : List Char)
  deriving DecidableEq, Repr

namespace Lexeme

def text : Lexeme → List Char
  | blank c => [c]
  | comment body => ';' :: body
  | opening => ['(']
  | closing => [')']
  | string body closed => '"' :: (body ++ if closed then ['"'] else [])
  | character name => '\\' :: name
  | token cs => cs

/-- The rest of a comment, and what follows it. -/
def splitComment : List Char → List Char × List Char
  | [] => ([], [])
  | c :: cs =>
    if Text.isLineBreak c then ([c], cs)
    else
      let (body, rest) := splitComment cs
      (c :: body, rest)

/-- Whether the body of a comment ends its line; if not, the text ends in the comment. -/
def endsLine (body : List Char) : Bool := body.getLast?.any Text.isLineBreak

/-- The rest of a string, whether it is closed, and what follows it. A backslash takes the next
character along. -/
def splitString : List Char → List Char × Bool × List Char
  | [] => ([], false, [])
  | '"' :: cs => ([], true, cs)
  | '\\' :: c :: cs =>
    let (body, closed, rest) := splitString cs
    ('\\' :: c :: body, closed, rest)
  | c :: cs =>
    let (body, closed, rest) := splitString cs
    (c :: body, closed, rest)

/-- The lexeme that begins with a character, and what follows it. -/
def first (c : Char) (cs : List Char) : Lexeme × List Char :=
  if Text.isBlank c then (blank c, cs)
  else if c = ';' then
    let (body, rest) := splitComment cs
    (comment body, rest)
  else if c = '(' then (opening, cs)
  else if c = ')' then (closing, cs)
  else if c = '"' then
    let (body, closed, rest) := splitString cs
    (string body closed, rest)
  else if c = '\\' then
    match cs with
    | [] => (character [], [])
    | d :: ds => (character (d :: ds.takeWhile isOrdinary), ds.dropWhile isOrdinary)
  else (token (c :: cs.takeWhile isOrdinary), cs.dropWhile isOrdinary)

/-! ### Nothing is lost -/

theorem splitComment_append (cs : List Char) : (splitComment cs).1 ++ (splitComment cs).2 = cs := by
  induction cs with
  | nil => rfl
  | cons c cs ih =>
    simp only [splitComment]
    split <;> simp [ih]

theorem splitString_append (cs : List Char) :
    (splitString cs).1 ++ ((if (splitString cs).2.1 then ['"'] else []) ++ (splitString cs).2.2) =
      cs := by
  fun_induction splitString cs with
  | case1 => rfl
  | case2 cs => rfl
  | case3 c cs body closed rest h ih => simpa [h] using ih
  | case4 c cs _ _ body closed rest h ih => simpa [h] using ih

/-- A string without its second quote goes on to the end of the text. -/
theorem splitString_rest {cs : List Char} (h : (splitString cs).2.1 = false) :
    (splitString cs).2.2 = [] := by
  fun_induction splitString cs with
  | case1 => rfl
  | case2 => cases h
  | case3 c cs body closed rest hs ih =>
    rw [hs] at ih
    exact ih h
  | case4 c cs _ _ body closed rest hs ih =>
    rw [hs] at ih
    exact ih h

theorem text_first (c : Char) (cs : List Char) :
    (first c cs).1.text ++ (first c cs).2 = c :: cs := by
  unfold first
  split_ifs with h1 h2 h3 h4 h5 h6
  · rfl
  · simp [text, h2, splitComment_append]
  · simp [text, h3]
  · simp [text, h4]
  · simp [text, h5, splitString_append]
  · cases cs <;> simp [text, h6, List.takeWhile_append_dropWhile]
  · simp [text, List.takeWhile_append_dropWhile]

theorem text_first_ne_nil (c : Char) (cs : List Char) : (first c cs).1.text ≠ [] := by
  unfold first
  split_ifs
  iterate 5 simp [text]
  · cases cs <;> simp [text]
  · simp [text]

theorem length_first_le (c : Char) (cs : List Char) : (first c cs).2.length ≤ cs.length := by
  have hlen : (first c cs).1.text.length + (first c cs).2.length = cs.length + 1 := by
    rw [← List.length_append, text_first, List.length_cons]
  have hpos := List.length_pos_iff.2 (text_first_ne_nil c cs)
  omega

/-- Cuts a text into lexemes. -/
def cut : List Char → List Lexeme
  | [] => []
  | c :: cs => (first c cs).1 :: cut (first c cs).2
termination_by cs => cs.length
decreasing_by
  have := length_first_le c cs
  simp only [List.length_cons]
  omega

@[simp] theorem cut_nil : cut [] = [] := by rw [cut]

theorem cut_cons (c : Char) (cs : List Char) :
    cut (c :: cs) = (first c cs).1 :: cut (first c cs).2 := by rw [cut]

theorem flatMap_text_cut (cs : List Char) : (cut cs).flatMap text = cs := by
  fun_induction cut cs with
  | case1 => rfl
  | case2 c cs ih => rw [List.flatMap_cons, ih, text_first]

/-! ### Where a lexeme begins and ends -/

theorem cut_blank {c : Char} (h : Text.isBlank c = true) (cs : List Char) :
    cut (c :: cs) = blank c :: cut cs := by
  rw [cut_cons]
  simp only [first, h, ↓reduceIte]

theorem cut_opening (cs : List Char) : cut ('(' :: cs) = opening :: cut cs := cut_cons '(' cs

theorem cut_closing (cs : List Char) : cut (')' :: cs) = closing :: cut cs := cut_cons ')' cs

theorem cut_string (cs : List Char) :
    cut ('"' :: cs) = string (splitString cs).1 (splitString cs).2.1 :: cut (splitString cs).2.2 :=
  cut_cons '"' cs

theorem first_ordinary {c : Char} (h : isOrdinary c = true) (cs : List Char) :
    first c cs = (token (c :: cs.takeWhile isOrdinary), cs.dropWhile isOrdinary) := by
  simp only [isOrdinary, isSpecial, Bool.and_eq_true, Bool.not_eq_true', List.contains_eq_mem,
    decide_eq_false_iff_not, List.mem_cons, List.not_mem_nil, not_or] at h
  simp [first, h]

theorem cut_ordinary {c : Char} (h : isOrdinary c = true) (cs : List Char) :
    cut (c :: cs) = token (c :: cs.takeWhile isOrdinary) :: cut (cs.dropWhile isOrdinary) := by
  rw [cut_cons, first_ordinary h]

/-- The kinds of character that a lexeme can begin with. -/
theorem first_cases (c : Char) : Text.isBlank c = true ∨ c = ';' ∨ c = '(' ∨ c = ')' ∨ c = '"' ∨
    c = '\\' ∨ isOrdinary c = true := by
  by_cases hb : Text.isBlank c = true
  · exact .inl hb
  · by_cases hs : isSpecial c = true
    · have hs : c = '"' ∨ c = ';' ∨ c = '(' ∨ c = ')' ∨ c = '\\' := by simpa [isSpecial] using hs
      rcases hs with rfl | rfl | rfl | rfl | rfl <;> simp
    · simp [isOrdinary, hb, hs]

/-- A token ends in front of what stops it and nowhere before. -/
theorem takeWhile_ordinary {cs rest : List Char} (h : ∀ c ∈ cs, isOrdinary c = true)
    (hr : StopsToken rest) : (cs ++ rest).takeWhile isOrdinary = cs ∧
      (cs ++ rest).dropWhile isOrdinary = rest := by
  have hrest : rest.takeWhile isOrdinary = [] ∧ rest.dropWhile isOrdinary = rest := by
    cases rest with
    | nil => exact ⟨rfl, rfl⟩
    | cons d ds =>
      have hd : isOrdinary d = false := hr d rfl
      simp [hd]
  rw [List.takeWhile_append_of_pos h, List.dropWhile_append_of_pos h, hrest.1, hrest.2]
  simp

theorem cut_token {cs rest : List Char} (h : IsTokenText cs) (hr : StopsToken rest) :
    cut (cs ++ rest) = token cs :: cut rest := by
  obtain ⟨hne, hall⟩ := h
  cases cs with
  | nil => exact absurd rfl hne
  | cons c cs =>
    have hcs := takeWhile_ordinary (fun d hd => hall d (List.mem_cons_of_mem c hd)) hr
    rw [List.cons_append, cut_ordinary (hall c List.mem_cons_self), hcs.1, hcs.2]

theorem stopsToken_dropWhile (cs : List Char) : StopsToken (cs.dropWhile isOrdinary) := by
  intro c hc
  have h := List.head?_dropWhile_not isOrdinary cs
  rw [Option.mem_def.1 hc] at h
  exact h

theorem isTokenText_first {c : Char} {cs ds : List Char} (h : (first c cs).1 = token ds) :
    IsTokenText ds := by
  rcases first_cases c with hc | rfl | rfl | rfl | rfl | rfl | hc
  · simp [first, hc] at h
  iterate 4 exact nomatch h
  · cases cs <;> exact nomatch h
  · rw [first_ordinary hc] at h
    obtain rfl := token.inj h
    refine ⟨List.cons_ne_nil _ _, fun d hd => ?_⟩
    rcases List.mem_cons.1 hd with rfl | hd
    · exact hc
    · exact List.mem_takeWhile_imp hd

/-- What is cut as a token is the spelling of one. -/
theorem isTokenText_of_mem_cut {cs ds : List Char} (h : token ds ∈ cut cs) : IsTokenText ds := by
  fun_induction cut cs with
  | case1 => simp at h
  | case2 c cs ih =>
    rcases List.mem_cons.1 h with h | h
    · exact isTokenText_first h.symm
    · exact ih h

/-! ### Texts that end with a lexeme -/

theorem cut_injective {cs ds : List Char} (h : cut cs = cut ds) : cs = ds := by
  rw [← flatMap_text_cut cs, h, flatMap_text_cut]

/-- What follows a comment has no part in it. -/
theorem splitComment_congr {cs body rest other : List Char} (h : splitComment cs = (body, rest))
    (hend : rest = [] → other = []) : splitComment (body ++ other) = (body, other) := by
  induction cs generalizing body with
  | nil =>
    obtain ⟨rfl, hrest⟩ := Prod.mk.inj h
    rw [hend hrest.symm]
    rfl
  | cons c cs ih =>
    by_cases hc : Text.isLineBreak c = true
    · simp only [splitComment, hc, ↓reduceIte] at h
      obtain ⟨rfl, -⟩ := Prod.mk.inj h
      simp only [List.singleton_append, splitComment, hc, ↓reduceIte]
    · simp only [splitComment, hc, Bool.false_eq_true, ↓reduceIte] at h
      obtain ⟨rfl, hrest⟩ := Prod.mk.inj h
      have hcs : splitComment cs = ((splitComment cs).1, rest) := Prod.ext rfl hrest
      simp only [List.cons_append, splitComment, hc, ih hcs, Bool.false_eq_true, ↓reduceIte]

theorem splitString_cons {c : Char} (hq : c ≠ '"') (hb : c ≠ '\\') (cs : List Char) :
    splitString (c :: cs) =
      (c :: (splitString cs).1, (splitString cs).2.1, (splitString cs).2.2) :=
  splitString.eq_4 c cs hq fun _ _ h => absurd h hb

/-- What follows a string has no part in it. -/
theorem splitString_congr {cs body rest other : List Char} {closed : Bool}
    (h : splitString cs = (body, closed, rest))
    (hend : closed = false → rest = [] → other = []) :
    splitString (body ++ ((if closed then ['"'] else []) ++ other)) = (body, closed, other) := by
  fun_induction splitString cs generalizing body closed with
  | case1 =>
    simp only [Prod.mk.injEq] at h
    obtain ⟨rfl, rfl, hrest⟩ := h
    rw [hend rfl hrest.symm]
    rfl
  | case2 cs =>
    simp only [Prod.mk.injEq] at h
    obtain ⟨rfl, rfl, -⟩ := h
    rfl
  | case3 c cs body' closed' rest' hs ih =>
    simp only [Prod.mk.injEq] at h
    obtain ⟨rfl, rfl, rfl⟩ := h
    simp only [List.cons_append, splitString, ih hs hend]
  | case4 c cs hq hb body' closed' rest' hs ih =>
    simp only [Prod.mk.injEq] at h
    obtain ⟨rfl, rfl, rfl⟩ := h
    by_cases hc : c = '\\'
    · obtain rfl : cs = [] := by
        cases cs with
        | nil => rfl
        | cons d ds => exact (hb d ds hc rfl).elim
      simp only [splitString, Prod.mk.injEq] at hs
      obtain ⟨rfl, rfl, hrest⟩ := hs
      rw [hend rfl hrest.symm, hc]
      rfl
    · rw [List.cons_append, splitString_cons hq hc, ih hs hend]

theorem stopsToken_of_append {a b : List Char} (h : StopsToken (a ++ b)) : StopsToken a := by
  cases a with
  | nil => exact fun _ hc => nomatch hc
  | cons c cs => exact h

/-- What follows a lexeme has no part in it, as long as it does not go on with it. -/
theorem first_congr {c : Char} {cs rest other : List Char} {x : Lexeme}
    (h : first c cs = (x, rest)) (hend : rest = [] → other = [])
    (hstops : StopsToken rest → StopsToken other) :
    ∃ ds, cs = ds ++ rest ∧ first c (ds ++ other) = (x, other) := by
  have token {ds : List Char} (hds : ds.dropWhile isOrdinary = rest) :
      ds = ds.takeWhile isOrdinary ++ rest ∧
        (ds.takeWhile isOrdinary ++ other).takeWhile isOrdinary = ds.takeWhile isOrdinary ∧
        (ds.takeWhile isOrdinary ++ other).dropWhile isOrdinary = other := by
    have hrest := stopsToken_dropWhile ds
    rw [hds] at hrest
    refine ⟨?_, takeWhile_ordinary (fun _ hd => List.mem_takeWhile_imp hd) (hstops hrest)⟩
    rw [← hds, List.takeWhile_append_dropWhile]
  rcases first_cases c with hc | rfl | rfl | rfl | rfl | rfl | hc
  · have hf (ds : List Char) : first c ds = (blank c, ds) := by simp [first, hc]
    rw [hf] at h
    obtain ⟨rfl, rfl⟩ := Prod.mk.inj h
    exact ⟨[], rfl, hf other⟩
  · obtain ⟨rfl, hrest⟩ := Prod.mk.inj h
    have hcs : splitComment cs = ((splitComment cs).1, rest) := Prod.ext rfl hrest
    have happ := splitComment_append cs
    rw [hrest] at happ
    refine ⟨(splitComment cs).1, happ.symm, ?_⟩
    show (comment _, _) = _
    rw [splitComment_congr hcs hend]
  · obtain ⟨rfl, rfl⟩ := Prod.mk.inj h
    exact ⟨[], rfl, rfl⟩
  · obtain ⟨rfl, rfl⟩ := Prod.mk.inj h
    exact ⟨[], rfl, rfl⟩
  · obtain ⟨rfl, hrest⟩ := Prod.mk.inj h
    have hcs : splitString cs = ((splitString cs).1, (splitString cs).2.1, rest) :=
      Prod.ext rfl (Prod.ext rfl hrest)
    have happ := splitString_append cs
    rw [hrest, ← List.append_assoc] at happ
    refine ⟨_, happ.symm, ?_⟩
    show (string _ _, _) = _
    rw [List.append_assoc, splitString_congr hcs fun _ => hend]
  · cases cs with
    | nil =>
      obtain ⟨rfl, hrest⟩ := Prod.mk.inj h
      rw [hend hrest.symm]
      exact ⟨[], hrest, rfl⟩
    | cons d ds =>
      obtain ⟨rfl, hrest⟩ := Prod.mk.inj h
      obtain ⟨happ, htake, hdrop⟩ := token hrest
      refine ⟨d :: ds.takeWhile isOrdinary, congrArg (d :: ·) happ, ?_⟩
      show (character (d :: (ds.takeWhile isOrdinary ++ other).takeWhile isOrdinary),
        (ds.takeWhile isOrdinary ++ other).dropWhile isOrdinary) = _
      rw [htake, hdrop]
  · rw [first_ordinary hc] at h
    obtain ⟨rfl, hrest⟩ := Prod.mk.inj h
    obtain ⟨happ, htake, hdrop⟩ := token hrest
    refine ⟨cs.takeWhile isOrdinary, happ, ?_⟩
    rw [first_ordinary hc, htake, hdrop]

/-- A text falls apart where its lexemes do. -/
theorem cut_eq_append {xs ys : List Lexeme} : ∀ {cs : List Char}, cut cs = xs ++ ys →
    ∃ a b, cs = a ++ b ∧ cut a = xs ∧ cut b = ys := by
  induction xs with
  | nil => exact fun {cs} h => ⟨[], cs, rfl, cut_nil, h⟩
  | cons x xs ih =>
    intro cs h
    cases cs with
    | nil => simp at h
    | cons c cs =>
      rw [cut_cons, List.cons_append] at h
      obtain ⟨hx, hxs⟩ := List.cons.inj h
      obtain ⟨a, b, hab, rfl, rfl⟩ := ih hxs
      obtain ⟨ds, rfl, hfirst⟩ := first_congr (Prod.ext hx hab)
        (fun h => (List.append_eq_nil_iff.1 h).1) stopsToken_of_append
      refine ⟨c :: (ds ++ a), b, by simp, ?_, rfl⟩
      rw [cut_cons, hfirst]

/-- The first lexemes of a text are those of the text that they make up. -/
theorem cut_flatMap {cs : List Char} {xs ys : List Lexeme} (h : cut cs = xs ++ ys) :
    cut (xs.flatMap text) = xs := by
  obtain ⟨a, b, -, rfl, -⟩ := cut_eq_append h
  rw [flatMap_text_cut]

/-- A text is cut from each of its lexemes on as it is from its beginning. -/
theorem cut_text_append {cs rest : List Char} {xs : List Lexeme} {x : Lexeme}
    (h : cut cs = xs ++ x :: cut rest) : cut (x.text ++ rest) = x :: cut rest := by
  obtain ⟨a, b, -, -, hb⟩ := cut_eq_append h
  have htext : b = x.text ++ rest := by
    rw [← flatMap_text_cut b, hb, List.flatMap_cons, flatMap_text_cut]
  rw [← htext, hb]

end Lexeme
end LispForms
