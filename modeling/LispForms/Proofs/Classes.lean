import LispForms.Proofs.Lexeme

/-! The class of a token, by the parts that it is put together from. The classes are tried in order,
so that each spelling comes with the reasons why no earlier class takes it. -/

namespace LispForms

namespace Token

open TokenClass

variable {cs ds : List Char} {c : Char}

/-! ### Parts of tokens -/

theorem isName_eq_false_of_mem (h : ':' ∈ cs ∨ '.' ∈ cs) : isName cs = false := by
  cases cs with
  | nil => rfl
  | cons c cs =>
    refine Bool.eq_false_iff.2 fun he => ?_
    simp only [isName, Bool.and_eq_true, List.all_eq_true, bne_iff_ne] at he
    rcases h with h | h
    · exact (he.2 _ h).1 rfl
    · exact (he.2 _ h).2 rfl

theorem isName_eq_false_of_isDigit (h : c.isDigit = true) : isName (c :: cs) = false := by
  simp [isName, h]

theorem not_mem_of_isName (h : isName cs = true) : ':' ∉ cs ∧ '.' ∉ cs := by
  constructor <;> intro hmem
  · exact Bool.false_ne_true ((isName_eq_false_of_mem (.inl hmem)).symm.trans h)
  · exact Bool.false_ne_true ((isName_eq_false_of_mem (.inr hmem)).symm.trans h)

theorem isAlpha_iff : c.isAlpha = true ↔
    65 ≤ c.toNat ∧ c.toNat ≤ 90 ∨ 97 ≤ c.toNat ∧ c.toNat ≤ 122 := by
  change (decide (65 ≤ c.val ∧ c.val ≤ 90) ||
    (decide (97 ≤ c.val) && decide (c.val ≤ 122))) = true ↔ _
  simp only [Bool.or_eq_true, Bool.and_eq_true, decide_eq_true_eq, UInt32.le_iff_toNat_le]
  rfl

theorem ne_of_isLetter (h : isLetter c = true) :
    c.isDigit = false ∧ c ≠ '-' ∧ c ≠ '+' ∧ c ≠ '.' ∧ c ≠ ':' := by
  refine ⟨?_, ?_, ?_, ?_, ?_⟩
  · simp only [isLetter, Bool.or_eq_true, beq_iff_eq, isAlpha_iff] at h
    rw [Bool.eq_false_iff]
    intro hd
    simp only [Char.isDigit, Bool.and_eq_true, decide_eq_true_eq, UInt32.le_iff_toNat_le] at hd
    have h57 : c.val.toNat ≤ 57 := hd.2
    rcases h with (⟨h, -⟩ | ⟨h, -⟩) | rfl
    · have : 65 ≤ c.val.toNat := h
      omega
    · have : 97 ≤ c.val.toNat := h
      omega
    · exact absurd h57 (by decide)
  all_goals
    rintro rfl
    exact absurd h (by decide)

theorem isWordChar_of_isLetter (h : isLetter c = true) : isWordChar c = true := by
  simp only [isLetter, isWordChar, Char.isAlphanum, Bool.or_eq_true] at h ⊢
  rcases h with h | h
  · exact .inl (.inl h)
  · exact .inr h

theorem not_mem_of_isIdentifier (h : isIdentifier cs = true) : '.' ∉ cs ∧ ':' ∉ cs := by
  cases cs with
  | nil => simp
  | cons c cs =>
    simp only [isIdentifier, Bool.and_eq_true, List.all_eq_true] at h
    have hall (d : Char) (hd : d ∈ c :: cs) : isWordChar d = true := by
      rcases List.mem_cons.1 hd with rfl | hd
      · exact isWordChar_of_isLetter h.1
      · exact h.2 d hd
    constructor <;> intro hmem
    · exact absurd (hall _ hmem) (by decide)
    · exact absurd (hall _ hmem) (by decide)

theorem not_mem_of_isPath (h : isPath cs = true) : ':' ∉ cs := by
  cases cs with
  | nil => simp
  | cons c cs =>
    simp only [isPath, Bool.and_eq_true, List.all_eq_true] at h
    intro hmem
    rcases List.mem_cons.1 hmem with rfl | hmem
    · exact absurd h.1 (by decide)
    · exact absurd (h.2 _ hmem) (by decide)

/-! ### Ordinary characters -/

theorem isOrdinary_of_toNat (hlow : 43 ≤ c.toNat) (hhigh : c.toNat < 128) (hsemicolon : c ≠ ';')
    (hbackslash : c ≠ '\\') : isOrdinary c = true := by
  have hne (d : Char) (hd : d.toNat < 43) : c ≠ d := by
    rintro rfl
    omega
  have hspecial : isSpecial c = false := by
    simp [isSpecial, hne '"' (by decide), hne '(' (by decide), hne ')' (by decide), hsemicolon,
      hbackslash]
  have hblank : Text.isBlank c = false := by
    rw [Bool.eq_false_iff]
    intro hb
    simp only [Text.isBlank, Text.inRanges, Text.blankRanges, List.any_cons, List.any_nil,
      Bool.or_eq_true, Bool.and_eq_true, decide_eq_true_eq, Bool.false_eq_true, or_false] at hb
    omega
  rw [isOrdinary, hspecial, hblank]
  rfl

theorem isOrdinary_of_isWordChar (h : isWordChar c = true) : isOrdinary c = true := by
  simp only [isWordChar, Char.isAlphanum, isAlpha_iff, Char.isDigit, Bool.or_eq_true,
    Bool.and_eq_true, decide_eq_true_eq, beq_iff_eq, UInt32.le_iff_toNat_le] at h
  have hc : 48 ≤ c.toNat ∧ c.toNat ≤ 122 ∧ c.toNat ≠ 59 ∧ c.toNat ≠ 92 := by
    change (((65 ≤ c.toNat ∧ c.toNat ≤ 90) ∨ (97 ≤ c.toNat ∧ c.toNat ≤ 122)) ∨
      (48 ≤ c.toNat ∧ c.toNat ≤ 57)) ∨ c = '_' at h
    rcases h with ((h | h) | h) | rfl
    · omega
    · omega
    · omega
    · decide
  refine isOrdinary_of_toNat (by omega) (by omega) ?_ ?_
  all_goals
    rintro rfl
    exact absurd hc (by decide)

theorem isOrdinary_of_isDigit (h : c.isDigit = true) : isOrdinary c = true := by
  refine isOrdinary_of_isWordChar ?_
  simp [isWordChar, Char.isAlphanum, h]

theorem isTokenText_append (h : IsTokenText cs) (hd : ∀ d ∈ ds, isOrdinary d = true) :
    IsTokenText (cs ++ ds) := by
  obtain ⟨hne, hall⟩ := h
  refine ⟨by simp [hne], fun d hmem => ?_⟩
  rcases List.mem_append.1 hmem with hmem | hmem
  · exact hall d hmem
  · exact hd d hmem

theorem isOrdinary_point : isOrdinary '.' = true := by decide

theorem isTokenText_point_append (h : IsTokenText cs) : IsTokenText ('.' :: cs) := by
  refine ⟨List.cons_ne_nil '.' cs, fun d hd => ?_⟩
  rcases List.mem_cons.1 hd with rfl | hd
  · exact isOrdinary_point
  · exact h.2 d hd

theorem isTokenText_of_isPath (h : isPath cs = true) : IsTokenText cs := by
  cases cs with
  | nil => exact absurd h (by decide)
  | cons c cs =>
    simp only [isPath, Bool.and_eq_true, List.all_eq_true, Bool.or_eq_true, beq_iff_eq] at h
    refine ⟨List.cons_ne_nil c cs, fun d hd => ?_⟩
    rcases List.mem_cons.1 hd with rfl | hd
    · exact isOrdinary_of_isWordChar (isWordChar_of_isLetter h.1)
    · rcases h.2 d hd with hword | rfl
      · exact isOrdinary_of_isWordChar hword
      · decide

theorem isPath_of_isIdentifier (h : isIdentifier cs = true) : isPath cs = true := by
  cases cs with
  | nil => exact absurd h (by decide)
  | cons c cs =>
    simp only [isIdentifier, Bool.and_eq_true, List.all_eq_true] at h
    simp only [isPath, Bool.and_eq_true, List.all_eq_true, Bool.or_eq_true]
    exact ⟨h.1, fun d hd => .inl (h.2 d hd)⟩

theorem isTokenText_member (h : isIdentifier cs = true) : IsTokenText ('.' :: cs) :=
  isTokenText_point_append (isTokenText_of_isPath (isPath_of_isIdentifier h))

/-! ### Digits -/

theorem digits_append (hd : ∀ d ∈ ds, d.isDigit = true) (hc : ∀ c ∈ cs.head?, c.isDigit = false) :
    digits (ds ++ cs) = (ds, cs) := by
  have hcs : cs.takeWhile Char.isDigit = [] ∧ cs.dropWhile Char.isDigit = cs := by
    cases cs with
    | nil => exact ⟨rfl, rfl⟩
    | cons c cs =>
      have h : c.isDigit = false := hc c rfl
      simp [h]
  rw [digits, List.takeWhile_append_of_pos hd, List.dropWhile_append_of_pos hd, hcs.1, hcs.2,
    List.append_nil]

theorem digits_eq_self (hd : ∀ d ∈ ds, d.isDigit = true) : digits ds = (ds, []) := by
  have h := @digits_append [] ds hd (by simp)
  rwa [List.append_nil] at h

/-! ### Classes that do not apply -/

theorem symbol?_eq_none_of_point (h : '.' ∈ cs) : symbol? cs = none := by
  have htail : cs.head? = some ':' → '.' ∈ cs.tail := by
    cases cs with
    | nil => simp
    | cons c cs =>
      rintro ⟨⟩
      simpa using h
  have hname := isName_eq_false_of_mem (.inr h)
  by_cases hhead : cs.head? = some ':'
  · simp [symbol?, hname, isName_eq_false_of_mem (.inr (htail hhead))]
  · simp [symbol?, hname, hhead]

theorem symbol?_eq_none_of_isDigit (h : c.isDigit = true) : symbol? (c :: cs) = none := by
  have hc : c ≠ ':' := by
    rintro rfl
    exact absurd h (by decide)
  simp [symbol?, isName_eq_false_of_isDigit h, hc]

theorem var?_eq_none_of_colon (h : ':' ∉ cs) : var? cs = none := by
  have hdrop : cs.dropWhile (· != ':') = [] := by
    rw [List.dropWhile_eq_nil_iff]
    intro d hd
    exact bne_iff_ne.2 fun he => h (he ▸ hd)
  have hname : isName [] = false := rfl
  simp [var?, hdrop, hname]

theorem unsign_eq (hm : c ≠ '-') (hp : c ≠ '+') : unsign (c :: cs) = (false, c :: cs) := by
  unfold unsign
  split
  · rename_i he
    exact absurd (List.cons.inj he).1 hm
  · rename_i he
    exact absurd (List.cons.inj he).1 hp
  · rfl

/-- What does not begin with a digit or a sign is no number. -/
theorem number_eq_none (hd : c.isDigit = false) (hm : c ≠ '-') (hp : c ≠ '+') :
    integer? (c :: cs) = none ∧ float? (c :: cs) = none ∧ ratio? (c :: cs) = none := by
  have hu : unsign (c :: cs) = (false, c :: cs) := unsign_eq hm hp
  have hds : digits (c :: cs) = ([], c :: cs) := by simp [digits, hd]
  refine ⟨?_, ?_, ?_⟩
  · simp [integer?, hu, hds]
  · simp [float?, hu, hds]
  · simp only [ratio?, hu, hds]
    split <;> rfl

theorem null?_eq_none (h : cs ≠ ['n', 'u', 'l', 'l']) : null? cs = none := by
  simp [null?, h]

/-! ### The class of a spelling -/

theorem classify_null : classify ['n', 'u', 'l', 'l'] = some (.null, .nil) := rfl

theorem classify_symbol (hn : cs ≠ ['n', 'u', 'l', 'l']) (h : (symbol? cs).isSome = true) :
    classify cs = some (.symbol, .symbol (.ofList cs)) := by
  have hs : symbol? cs = some (.symbol (.ofList cs)) := by
    unfold symbol? at h ⊢
    split at h
    · rename_i he
      rw [if_pos he]
    · cases h
  simp [classify, order, List.findSome?, meaning?, null?_eq_none hn, hs]

theorem var?_append {ns name : List Char} (hns : isName ns = true) (hname : isName name = true) :
    var? (ns ++ ':' :: name) = some (.var (.ofList ns) (.ofList name)) := by
  have hne (d : Char) (hd : d ∈ ns) : (d != ':') = true :=
    bne_iff_ne.2 fun he => (not_mem_of_isName hns).1 (he ▸ hd)
  simp [var?, List.takeWhile_append_of_pos hne, List.dropWhile_append_of_pos hne, hns, hname]

theorem classify_var {ns name : List Char} (hns : isName ns = true) (hname : isName name = true) :
    classify (ns ++ ':' :: name) = some (.var, .var (.ofList ns) (.ofList name)) := by
  have hcolon := (not_mem_of_isName hns).1
  have hnull : ns ++ ':' :: name ≠ ['n', 'u', 'l', 'l'] := by
    intro he
    have hmem : ':' ∈ ns ++ ':' :: name := by simp
    rw [he] at hmem
    exact absurd hmem (by decide)
  have hsym : symbol? (ns ++ ':' :: name) = none := by
    have hhead : (ns ++ ':' :: name).head? ≠ some ':' := by
      cases ns with
      | nil => exact absurd hns (by decide)
      | cons c ns =>
        rintro ⟨⟩
        exact hcolon List.mem_cons_self
    have hfalse : isName (ns ++ ':' :: name) = false := isName_eq_false_of_mem (.inl (by simp))
    rw [symbol?, hfalse, beq_false_of_ne hhead]
    rfl
  have hv := var?_append hns hname
  simp [classify, order, List.findSome?, meaning?, null?_eq_none hnull, hsym, hv]

section Digits

variable {num den : List Char}

theorem isDigit_cons_of_digits (hne : ds ≠ []) (hd : ∀ d ∈ ds, d.isDigit = true) :
    ∃ c cs, ds = c :: cs ∧ c.isDigit = true ∧ unsign (ds ++ den) = (false, ds ++ den) := by
  cases ds with
  | nil => exact absurd rfl hne
  | cons c cs =>
    have hc := hd c List.mem_cons_self
    refine ⟨c, cs, rfl, hc, unsign_eq ?_ ?_⟩
    all_goals
      rintro rfl
      exact absurd hc (by decide)

theorem not_mem_of_digits (hd : ∀ d ∈ ds, d.isDigit = true) (hc : c.isDigit = false) : c ∉ ds :=
  fun hmem => Bool.false_ne_true (hc.symm.trans (hd c hmem))

/-- What begins with a digit is neither null nor a name, and without a colon no var. -/
theorem name_eq_none (hne : ds ≠ []) (hd : ∀ d ∈ ds, d.isDigit = true) (hcs : ':' ∉ cs) :
    null? (ds ++ cs) = none ∧ symbol? (ds ++ cs) = none ∧ var? (ds ++ cs) = none := by
  obtain ⟨c, tail, rfl, hc, -⟩ := @isDigit_cons_of_digits ds [] hne hd
  refine ⟨null?_eq_none ?_, symbol?_eq_none_of_isDigit hc, var?_eq_none_of_colon ?_⟩
  · intro he
    rw [(List.cons.inj he).1] at hc
    exact absurd hc (by decide)
  · rw [List.mem_append, not_or]
    exact ⟨not_mem_of_digits hd (by decide), hcs⟩

theorem classify_integer (hne : ds ≠ []) (hd : ∀ d ∈ ds, d.isDigit = true) :
    classify ds = some (.integer, .integer false ds) := by
  obtain ⟨hnull, hsym, hvar⟩ := @name_eq_none [] ds hne hd (by simp)
  obtain ⟨-, -, -, -, hu⟩ := @isDigit_cons_of_digits ds [] hne hd
  rw [List.append_nil] at hnull hsym hvar hu
  have hi : integer? ds = some (.integer false ds) := by
    simp [integer?, hu, digits_eq_self hd, hne]
  simp [classify, order, List.findSome?, meaning?, hnull, hsym, hvar, hi]

theorem classify_ratio (hn : num ≠ []) (hnum : ∀ d ∈ num, d.isDigit = true) (hd : den ≠ [])
    (hden : ∀ d ∈ den, d.isDigit = true) :
    classify (num ++ '/' :: den) = some (.ratio, .ratio false num den) := by
  have hcolon : ':' ∉ '/' :: den := by
    simp [@not_mem_of_digits den ':' hden (by decide)]
  obtain ⟨hnull, hsym, hvar⟩ := name_eq_none hn hnum hcolon
  obtain ⟨-, -, -, -, hu⟩ := @isDigit_cons_of_digits num ('/' :: den) hn hnum
  have hds : digits (num ++ '/' :: den) = (num, '/' :: den) := digits_append hnum (by simp)
  have hi : integer? (num ++ '/' :: den) = none := by
    simp [integer?, hu, hds]
  have hf : float? (num ++ '/' :: den) = none := by
    simp [float?, hu, hds, hn, fraction?, exponent?]
  have hr : ratio? (num ++ '/' :: den) = some (.ratio false num den) := by
    have hall : den.all Char.isDigit = true := List.all_eq_true.2 hden
    simp [ratio?, hu, hds, hn, hd, hall]
  simp [classify, order, List.findSome?, meaning?, hnull, hsym, hvar, hi, hf, hr]

end Digits

/-! ### Host names -/

/-- What holds a point and begins with neither a digit nor a sign, without a colon, is of one of the
classes for host names. -/
theorem host_eq_none (hc : c.isDigit = false ∧ c ≠ '-' ∧ c ≠ '+') (hpoint : '.' ∈ c :: cs)
    (hcolon : ':' ∉ c :: cs) : null? (c :: cs) = none ∧ symbol? (c :: cs) = none ∧
      var? (c :: cs) = none ∧ integer? (c :: cs) = none ∧ float? (c :: cs) = none ∧
      ratio? (c :: cs) = none := by
  refine ⟨null?_eq_none fun he => ?_, symbol?_eq_none_of_point hpoint, var?_eq_none_of_colon hcolon,
    number_eq_none hc.1 hc.2.1 hc.2.2⟩
  rw [he] at hpoint
  exact absurd hpoint (by decide)

/-- What does not begin with a point names no member of something else. -/
theorem dotted_eq_none (h : c ≠ '.') :
    accessor? (c :: cs) = none ∧ instanceMember? (c :: cs) = none := by
  constructor
  · unfold accessor?
    split
    next he => exact absurd (List.cons.inj he).1 h
    next => rfl
  · unfold instanceMember?
    split
    next he => exact absurd (List.cons.inj he).1 h
    next => rfl

theorem classify_accessor (h : isIdentifier cs = true) :
    classify ('.' :: cs) = some (.accessor, .accessor (.ofList cs)) := by
  have hcolon : ':' ∉ '.' :: cs := by simp [(not_mem_of_isIdentifier h).2]
  obtain ⟨hnull, hsym, hvar, hint, hfloat, hratio⟩ :=
    @host_eq_none _ '.' (by decide) List.mem_cons_self hcolon
  have ha : accessor? ('.' :: cs) = some (.accessor (.ofList cs)) := by simp [accessor?, h]
  simp [classify, order, List.findSome?, meaning?, hnull, hsym, hvar, hint, hfloat, hratio, ha]

/-- A path begins with a letter. -/
theorem isLetter_of_isPath (h : isPath cs = true) : ∃ c ds, cs = c :: ds ∧ isLetter c = true := by
  cases cs with
  | nil => exact absurd h (by decide)
  | cons c ds =>
    simp only [isPath, Bool.and_eq_true] at h
    exact ⟨c, ds, rfl, h.1⟩

theorem className?_concat (h : isPath cs = true) :
    className? (cs ++ ['.']) = some (.className (.ofList cs)) := by
  rw [className?, List.getLast?_concat, List.dropLast_concat, h]
  rfl

theorem classify_className (h : isPath cs = true) :
    classify (cs ++ ['.']) = some (.className, .className (.ofList cs)) := by
  obtain ⟨c, ds, rfl, hc⟩ := isLetter_of_isPath h
  obtain ⟨hd, hm, hp, hpoint, -⟩ := ne_of_isLetter hc
  have hcolon : ':' ∉ c :: (ds ++ ['.']) := by
    have := not_mem_of_isPath h
    simpa using this
  obtain ⟨hnull, hsym, hvar, hint, hfloat, hratio⟩ :=
    @host_eq_none (ds ++ ['.']) c ⟨hd, hm, hp⟩ (by simp) hcolon
  have ha : accessor? (c :: (ds ++ ['.'])) = none := (dotted_eq_none hpoint).1
  have hn : className? (c :: (ds ++ ['.'])) = some (.className (.ofList (c :: ds))) :=
    className?_concat h
  simp [classify, order, List.findSome?, meaning?, hnull, hsym, hvar, hint, hfloat, hratio, ha, hn]

/-- A path and a member are told apart at the last point. -/
theorem member?_append {path : List Char} (hp : isPath path = true) (hm : isIdentifier cs = true) :
    member? (path ++ '.' :: cs) = some (.ofList path, .ofList cs) := by
  have hne (d : Char) (hd : d ∈ cs.reverse) : (d != '.') = true :=
    bne_iff_ne.2 fun he => (not_mem_of_isIdentifier hm).1 (he ▸ List.mem_reverse.1 hd)
  have hrev : (path ++ '.' :: cs).reverse = cs.reverse ++ '.' :: path.reverse := by simp
  have hs : splitLastPoint (path ++ '.' :: cs) = some (path, cs) := by
    simp [splitLastPoint, hrev, List.takeWhile_append_of_pos hne, List.dropWhile_append_of_pos hne]
  simp [member?, hs, hp, hm]

/-- The last character of an identifier is no point. -/
theorem className?_append {path : List Char} (hm : isIdentifier cs = true) :
    className? (path ++ '.' :: cs) = none := by
  have hlast : (path ++ '.' :: cs).getLast? ≠ some '.' := by
    intro he
    cases hcs : cs with
    | nil =>
      rw [hcs] at hm
      exact absurd hm (by decide)
    | cons d ds =>
      have hmem : '.' ∈ cs := by
        have hne : cs ≠ [] := hcs ▸ List.cons_ne_nil d ds
        rw [List.getLast?_append, List.getLast?_cons_of_ne_nil hne] at he
        exact List.mem_of_getLast? (by simpa [List.getLast?_eq_some_getLast hne] using he)
      exact (not_mem_of_isIdentifier hm).1 hmem
  rw [className?, beq_false_of_ne hlast]
  rfl

theorem classify_instanceMember {path : List Char} (hp : isPath path = true)
    (hm : isIdentifier cs = true) : classify ('.' :: path ++ '.' :: cs) =
      some (.instanceMember, .instanceMember (.ofList path) (.ofList cs)) := by
  have hcolon : ':' ∉ '.' :: (path ++ '.' :: cs) := by
    simp [not_mem_of_isPath hp, (not_mem_of_isIdentifier hm).2]
  obtain ⟨hnull, hsym, hvar, hint, hfloat, hratio⟩ :=
    @host_eq_none _ '.' (by decide) List.mem_cons_self hcolon
  have ha : accessor? ('.' :: (path ++ '.' :: cs)) = none := by
    have hid : isIdentifier (path ++ '.' :: cs) = false := by
      refine Bool.eq_false_iff.2 fun he => ?_
      exact (not_mem_of_isIdentifier he).1 (by simp)
    simp [accessor?, hid]
  have hn : className? ('.' :: (path ++ '.' :: cs)) = none := @className?_append cs ('.' :: path) hm
  have hi : instanceMember? ('.' :: (path ++ '.' :: cs)) =
      some (.instanceMember (.ofList path) (.ofList cs)) := by
    simp [instanceMember?, member?_append hp hm]
  rw [List.cons_append]
  simp [classify, order, List.findSome?, meaning?, hnull, hsym, hvar, hint, hfloat, hratio, ha, hn,
    hi]

theorem classify_staticMember {path : List Char} (hp : isPath path = true)
    (hm : isIdentifier cs = true) : classify (path ++ '.' :: cs) =
      some (.staticMember, .staticMember (.ofList path) (.ofList cs)) := by
  have hn : className? (path ++ '.' :: cs) = none := className?_append hm
  have hs := member?_append hp hm
  obtain ⟨c, ds, rfl, hc⟩ := isLetter_of_isPath hp
  obtain ⟨hd, hminus, hplus, hpoint, -⟩ := ne_of_isLetter hc
  rw [List.cons_append] at hn hs ⊢
  have hcolon : ':' ∉ c :: (ds ++ '.' :: cs) := by
    have := not_mem_of_isPath hp
    simpa [(not_mem_of_isIdentifier hm).2] using this
  obtain ⟨hnull, hsym, hvar, hint, hfloat, hratio⟩ :=
    @host_eq_none (ds ++ '.' :: cs) c ⟨hd, hminus, hplus⟩ (by simp) hcolon
  obtain ⟨ha, hi⟩ := @dotted_eq_none (ds ++ '.' :: cs) c hpoint
  simp [classify, order, List.findSome?, meaning?, hnull, hsym, hvar, hint, hfloat, hratio, ha, hn,
    hi, staticMember?, hs]

/-! ### What a class says of its tokens -/

variable {m : Meaning}

theorem meaning?_of_classify {k : TokenClass} (h : classify cs = some (k, m)) :
    k.meaning? cs = some m := by
  obtain ⟨k', -, hk⟩ := List.exists_of_findSome?_eq_some h
  obtain ⟨m', hm, he⟩ := Option.map_eq_some_iff.1 hk
  obtain ⟨rfl, rfl⟩ := Prod.mk.inj he
  exact hm

theorem isDigit_of_mem_digits (h : c ∈ (digits cs).1) : c.isDigit = true :=
  List.mem_takeWhile_imp h

theorem of_null? (h : null? cs = some m) : m = .nil := by
  unfold null? at h
  split at h <;> cases h
  rfl

theorem of_symbol? (h : symbol? cs = some m) : m = .symbol (.ofList cs) := by
  unfold symbol? at h
  split at h <;> cases h
  rfl

theorem of_var? (h : var? cs = some m) : ∃ ns name, isName ns = true ∧ isName name = true ∧
    cs = ns ++ ':' :: name ∧ m = .var (.ofList ns) (.ofList name) := by
  simp only [var?] at h
  split at h
  next hparts =>
    obtain ⟨hns, hname⟩ := (Bool.and_eq_true _ _).mp hparts
    cases h
    refine ⟨_, _, hns, hname, ?_, rfl⟩
    have hsplit := @List.takeWhile_append_dropWhile _ (· != ':') cs
    have hhead := List.head?_dropWhile_not (· != ':') cs
    revert hname hsplit hhead
    cases cs.dropWhile (· != ':') with
    | nil => exact fun hname => absurd hname (by decide)
    | cons d ds =>
      intro _ hsplit hd
      obtain rfl : d = ':' := by simpa using hd
      exact hsplit.symm
  next => cases h

theorem of_integer? (h : integer? cs = some m) :
    ∃ negative ds, (∀ d ∈ ds, d.isDigit = true) ∧ m = .integer negative ds := by
  simp only [integer?] at h
  split at h <;> cases h
  exact ⟨_, _, fun d => isDigit_of_mem_digits, rfl⟩

theorem of_float? (h : float? cs = some m) : ∃ negative d, m = .float negative d := by
  simp only [float?] at h
  split at h
  · cases h
  · simp only [Option.bind_eq_bind, Option.bind_eq_some_iff] at h
    obtain ⟨p, -, e, -, h⟩ := h
    cases h
    exact ⟨_, _, rfl⟩

theorem of_ratio? (h : ratio? cs = some m) : ∃ negative num den, (∀ d ∈ num, d.isDigit = true) ∧
    (∀ d ∈ den, d.isDigit = true) ∧ m = .ratio negative num den := by
  simp only [ratio?] at h
  split at h
  · split at h
    next den _ hparts =>
      cases h
      simp only [Bool.and_eq_true, List.all_eq_true] at hparts
      exact ⟨_, _, den, fun d => isDigit_of_mem_digits, hparts.2, rfl⟩
    next => cases h
  · cases h

theorem of_accessor? (h : accessor? cs = some m) :
    ∃ member : String, isIdentifier member.toList = true ∧ m = .accessor member := by
  unfold accessor? at h
  split at h
  · split at h
    next hid =>
      cases h
      exact ⟨_, by rwa [String.toList_ofList], rfl⟩
    next => cases h
  · cases h

theorem of_className? (h : className? cs = some m) :
    ∃ path : String, isPath path.toList = true ∧ m = .className path := by
  unfold className? at h
  split at h
  next hparts =>
    cases h
    simp only [Bool.and_eq_true] at hparts
    exact ⟨_, by rw [String.toList_ofList, hparts.2], rfl⟩
  next => cases h

theorem of_member? {p : String × String} (h : member? cs = some p) :
    isPath p.1.toList = true ∧ isIdentifier p.2.toList = true := by
  simp only [member?, Option.bind_eq_bind, Option.bind_eq_some_iff] at h
  obtain ⟨⟨path, member⟩, -, h⟩ := h
  split at h
  next hparts =>
    cases h
    simpa using hparts
  next => cases h

theorem of_instanceMember? (h : instanceMember? cs = some m) : ∃ path member : String,
    isPath path.toList = true ∧ isIdentifier member.toList = true ∧
      m = .instanceMember path member := by
  unfold instanceMember? at h
  split at h
  · obtain ⟨p, hp, rfl⟩ := Option.map_eq_some_iff.1 h
    obtain ⟨hpath, hmember⟩ := of_member? hp
    exact ⟨p.1, p.2, hpath, hmember, rfl⟩
  · cases h

theorem of_staticMember? (h : staticMember? cs = some m) : ∃ path member : String,
    isPath path.toList = true ∧ isIdentifier member.toList = true ∧
      m = .staticMember path member := by
  obtain ⟨p, hp, rfl⟩ := Option.map_eq_some_iff.1 h
  obtain ⟨hpath, hmember⟩ := of_member? hp
  exact ⟨p.1, p.2, hpath, hmember, rfl⟩

end Token
end LispForms
