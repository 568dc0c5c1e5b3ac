import LispForms.Proofs.Patterns
import LispForms.Proofs.FaultKinds

/-! Tokens of more than one class, and that only they are read otherwise where the classes are tried
in another order. An outline of a token, with what can be seen of it without reading it through, is
admitted by few classes; the pairs of classes that admit a common one are looked at one by one. -/

namespace LispForms

open Pattern Token

variable {cs ds rest sg : List Char} {c : Char}

/-! ### Outlines -/

namespace Token

/-- What a token begins with. -/
inductive Opening where
  | digit
  | sign
  | point
  | letter
  | other
  deriving DecidableEq

def Opening.of : List Char → Opening
  | [] => .other
  | c :: _ =>
    if c.isDigit then .digit
    else if c = '-' ∨ c = '+' then .sign
    else if c = '.' then .point
    else if isLetter c then .letter
    else .other

def Opening.isNumeric (o : Opening) : Bool := o == .digit || o == .sign

structure Outline where
  opening : Opening
  /-- Whether colons, points, strokes and marks of an exponent stand behind the first character. -/
  colon : Bool
  point : Bool
  stroke : Bool
  power : Bool
  /-- Whether the last character is a point. -/
  pointed : Bool

def outline (cs : List Char) : Outline where
  opening := .of cs
  colon := decide (':' ∈ cs.tail)
  point := decide ('.' ∈ cs.tail)
  stroke := decide ('/' ∈ cs.tail)
  power := decide ('e' ∈ cs.tail) || decide ('E' ∈ cs.tail)
  pointed := cs.getLast? == some '.'

theorem opening_of_isDigit (h : c.isDigit = true) : Opening.of (c :: cs) = .digit := if_pos h

theorem opening_of_isLetter (h : isLetter c = true) : Opening.of (c :: cs) = .letter := by
  obtain ⟨hd, hm, hp, hpoint, -⟩ := ne_of_isLetter h
  simp [Opening.of, hd, hm, hp, hpoint, h]

theorem opening_of_name (h : isName cs = true) :
    Opening.of (cs ++ ds) ≠ .digit ∧ Opening.of (cs ++ ds) ≠ .point := by
  cases cs with
  | nil => cases h
  | cons c cs =>
    have hc : c.isDigit = false ∧ c ≠ '.' := by
      simp only [isName, List.all_cons, Bool.and_eq_true, Bool.not_eq_true', bne_iff_ne] at h
      exact ⟨h.1, h.2.1.2⟩
    simp only [List.cons_append, Opening.of, hc.1, hc.2, Bool.false_eq_true, if_false]
    split_ifs <;> simp

end Token

namespace TokenClass

/-- What the tokens of a class look like. -/
def admits : TokenClass → Outline → Bool
  | null, o => o.opening == .letter && !o.colon && !o.point
  | symbol, o => o.opening != .digit && o.opening != .point && !o.colon && !o.point
  | var, o => o.opening != .digit && o.opening != .point && o.colon && !o.point
  | integer, o =>
    o.opening.isNumeric && !o.colon && !o.stroke && !o.power && (!o.point || o.pointed)
  | float, o => o.opening.isNumeric && !o.colon && !o.stroke && !o.pointed
  | ratio, o => o.opening.isNumeric && !o.colon && !o.point && o.stroke
  | accessor, o => o.opening == .point && !o.colon && !o.point
  | className, o => o.opening == .letter && !o.colon && o.point && o.pointed
  | instanceMember, o => o.opening == .point && !o.colon && o.point
  | staticMember, o => o.opening == .letter && !o.colon && o.point && !o.pointed

/-- The classes with common tokens. -/
def overlapping : List (TokenClass × TokenClass) :=
  [(null, symbol), (symbol, integer), (symbol, float), (symbol, ratio), (integer, float)]

theorem overlapping_of_admits (o : Outline) (k k' : TokenClass) (h : k.admits o = true)
    (h' : k'.admits o = true) : k = k' ∨ (k, k') ∈ overlapping ∨ (k', k) ∈ overlapping := by
  have hall : ∀ opening ∈ [Opening.digit, .sign, .point, .letter, .other],
      ∀ colon point stroke power pointed, ∀ k ∈ order, ∀ k' ∈ order,
        k.admits ⟨opening, colon, point, stroke, power, pointed⟩ = true →
        k'.admits ⟨opening, colon, point, stroke, power, pointed⟩ = true →
        k = k' ∨ (k, k') ∈ overlapping ∨ (k', k) ∈ overlapping := by
    decide +kernel
  have horder (k : TokenClass) : k ∈ order := by cases k <;> decide
  obtain ⟨opening, colon, point, stroke, power, pointed⟩ := o
  refine hall opening ?_ _ _ _ _ _ k (horder k) k' (horder k') h h'
  cases opening <;> decide

/-! ### The outlines of the classes -/

section Number

/-- Behind the first character, a number has no marks but those behind its digits. -/
theorem mem_tail_number (hsg : sg ∈ sign) (hds : ds ∈ numeral) (hc : c.isDigit = false) :
    c ∈ (sg ++ ds ++ rest).tail ↔ c ∈ rest := by
  obtain ⟨hne, hd⟩ := mem_numeral.1 hds
  obtain ⟨d, ds, rfl⟩ := List.exists_cons_of_ne_nil hne
  have hcs : c ∉ d :: ds := not_mem_of_digits hd hc
  rcases mem_sign.1 hsg with rfl | rfl | rfl <;> simp_all

theorem opening_number (hsg : sg ∈ sign) (hds : ds ∈ numeral) :
    Opening.of (sg ++ ds ++ rest) = if sg = [] then .digit else .sign := by
  obtain ⟨hne, hd⟩ := mem_numeral.1 hds
  obtain ⟨d, ds, rfl⟩ := List.exists_cons_of_ne_nil hne
  rcases mem_sign.1 hsg with rfl | rfl | rfl
  · exact opening_of_isDigit (hd d List.mem_cons_self)
  · rfl
  · rfl

theorem getLast?_number (hds : ds ∈ numeral) :
    (sg ++ ds ++ rest).getLast? = some '.' ↔ rest.getLast? = some '.' := by
  obtain ⟨hne, hd⟩ := mem_numeral.1 hds
  have hlast : ds.getLast? ≠ some '.' := fun h =>
    not_mem_of_digits hd rfl (List.mem_of_getLast? h)
  rw [List.getLast?_append]
  cases rest.getLast? with
  | some d => rfl
  | none => simp [List.getLast?_append, hne, hlast]

/-- The outline of a number is that of what follows its digits. -/
theorem outline_number (hsg : sg ∈ sign) (hds : ds ∈ numeral) :
    outline (sg ++ ds ++ rest) = ⟨if sg = [] then .digit else .sign, decide (':' ∈ rest),
      decide ('.' ∈ rest), decide ('/' ∈ rest), decide ('e' ∈ rest) || decide ('E' ∈ rest),
      rest.getLast? == some '.'⟩ := by
  have hpointed : ((sg ++ ds ++ rest).getLast? == some '.') = (rest.getLast? == some '.') := by
    rw [Bool.eq_iff_iff, beq_iff_eq, beq_iff_eq, getLast?_number hds]
  rw [outline, opening_number hsg hds, hpointed]
  simp only [mem_tail_number hsg hds (c := ':') rfl, mem_tail_number hsg hds (c := '.') rfl,
    mem_tail_number hsg hds (c := '/') rfl, mem_tail_number hsg hds (c := 'e') rfl,
    mem_tail_number hsg hds (c := 'E') rfl]

theorem mem_signed {l : Language Char} : cs ∈ sign * numeral * l ↔
    ∃ sg ∈ sign, ∃ ds ∈ numeral, ∃ rest ∈ l, sg ++ ds ++ rest = cs := by
  simp [Language.mem_mul]

/-- What an exponent is made of. -/
theorem of_mem_power (h : cs ∈ optional power) :
    ∀ c ∈ cs, c.isDigit = true ∨ c ∈ ['e', 'E', '-', '+'] := by
  rcases mem_optional.1 h with rfl | h
  · simp
  · rw [power, mul_assoc, mem_one_mul] at h
    obtain ⟨e, _, rfl, he, hrest⟩ := h
    obtain ⟨sg, hsg, ds, hds, rfl⟩ := Language.mem_mul.1 hrest
    have hsign : ∀ c ∈ sg, c ∈ ['-', '+'] := by
      rcases mem_sign.1 hsg with rfl | rfl | rfl <;> simp
    have he : e = 'e' ∨ e = 'E' := by simpa using he
    intro c hc
    rcases List.mem_cons.1 hc with rfl | hc
    · exact .inr (by simpa using .imp_right .inl he)
    · rcases List.mem_append.1 hc with hc | hc
      · exact .inr (List.mem_cons_of_mem _ (List.mem_cons_of_mem _ (hsign c hc)))
      · exact .inl ((mem_numeral.1 hds).2 c hc)

/-- What follows the whole digits of a floating-point token; it does not end in a point. -/
theorem of_mem_fraction (h : rest ∈ optional (literal '.' * numeral) * optional power) :
    (∀ c ∈ rest, c.isDigit = true ∨ c ∈ ['.', 'e', 'E', '-', '+']) ∧
      rest.getLast? ≠ some '.' := by
  obtain ⟨fr, hfr, pw, hpw, rfl⟩ := Language.mem_mul.1 h
  have hmarks := of_mem_power hpw
  have hlast : pw.getLast? ≠ some '.' := fun h =>
    absurd (hmarks _ (List.mem_of_getLast? h)) (by decide)
  rcases mem_optional.1 hfr with rfl | hfr
  · exact ⟨fun c hc => (hmarks c hc).imp_right (List.mem_cons_of_mem _), hlast⟩
  · obtain ⟨ds, rfl, hds⟩ := mem_literal_mul.1 hfr
    refine ⟨fun c hc => ?_, ?_⟩
    · rcases List.mem_append.1 hc with hc | hc
      · rcases List.mem_cons.1 hc with rfl | hc
        · exact .inr List.mem_cons_self
        · exact .inl ((mem_numeral.1 hds).2 c hc)
      · exact (hmarks c hc).imp_right (List.mem_cons_of_mem _)
    · have hnumber := (@getLast?_number ds pw ['.'] hds).not.2 hlast
      simpa using hnumber

theorem isNumeric_opening (sg : List Char) :
    (if sg = [] then Opening.digit else .sign).isNumeric = true := by
  split <;> rfl

theorem admits_of_mem_integer (h : cs ∈ integer.language) : integer.admits (outline cs) = true := by
  obtain ⟨sg, hsg, ds, hds, rest, hrest, rfl⟩ := mem_signed.1 h
  rw [outline_number hsg hds]
  rcases mem_optional.1 hrest with rfl | hrest
  · simp [admits, isNumeric_opening]
  · obtain rfl := mem_literal.1 hrest
    simp [admits, isNumeric_opening]

theorem admits_of_mem_float (h : cs ∈ float.language) : float.admits (outline cs) = true := by
  rw [language, mul_assoc, mem_signed] at h
  obtain ⟨sg, hsg, ds, hds, rest, hrest, rfl⟩ := h
  obtain ⟨hmarks, hlast⟩ := of_mem_fraction hrest
  have hcolon : ':' ∉ rest := fun h => absurd (hmarks _ h) (by decide)
  have hstroke : '/' ∉ rest := fun h => absurd (hmarks _ h) (by decide)
  rw [outline_number hsg hds]
  simp [admits, isNumeric_opening, hcolon, hstroke, hlast]

theorem admits_of_mem_ratio (h : cs ∈ ratio.language) : ratio.admits (outline cs) = true := by
  rw [language, mul_assoc, mem_signed] at h
  obtain ⟨sg, hsg, ds, hds, rest, hrest, rfl⟩ := h
  obtain ⟨den, rfl, hden⟩ := mem_literal_mul.1 hrest
  have hd := (mem_numeral.1 hden).2
  rw [outline_number hsg hds]
  simp [admits, isNumeric_opening, not_mem_of_digits hd]

end Number

theorem admits_of_mem_symbol (h : cs ∈ symbol.language) : symbol.admits (outline cs) = true := by
  rw [language, Pattern.optional, add_mul, one_mul, Language.mem_add] at h
  rcases h with h | h
  · have hname := mem_name.1 h
    obtain ⟨hcolon, hpoint⟩ := not_mem_of_isName hname
    have hopening := @opening_of_name cs [] hname
    rw [List.append_nil] at hopening
    simp [admits, outline, hopening, mt List.mem_of_mem_tail hcolon, mt List.mem_of_mem_tail hpoint]
  · obtain ⟨name, rfl, hname⟩ := mem_literal_mul.1 h
    have hmarks := not_mem_of_isName (mem_name.1 hname)
    simp [admits, outline, Opening.of, hmarks, isLetter]

theorem admits_of_mem_var (h : cs ∈ var.language) : var.admits (outline cs) = true := by
  rw [language, mul_assoc, Language.mem_mul] at h
  obtain ⟨ns, hns, _, hrest, rfl⟩ := h
  obtain ⟨name, rfl, hname⟩ := mem_literal_mul.1 hrest
  rw [mem_name] at hns hname
  obtain ⟨hdigit, hdot⟩ := @opening_of_name ns (':' :: name) hns
  have hpoint := (not_mem_of_isName hns).2
  have hpoint' := (not_mem_of_isName hname).2
  cases ns with
  | nil => cases hns
  | cons c ns =>
    rw [List.mem_cons, not_or] at hpoint
    rw [List.cons_append] at hdigit hdot ⊢
    simp [admits, outline, hdigit, hdot, hpoint.2, hpoint']

theorem admits_of_mem_accessor (h : cs ∈ accessor.language) :
    accessor.admits (outline cs) = true := by
  obtain ⟨member, rfl, hm⟩ := mem_literal_mul.1 h
  obtain ⟨hpoint, hcolon⟩ := not_mem_of_isIdentifier (mem_identifier.1 hm)
  simp [admits, outline, Opening.of, hpoint, hcolon]

/-- What a path begins, with a point behind it. -/
theorem outline_path {path : List Char} (hp : path ∈ Pattern.path) (hrest : ':' ∉ rest) :
    (outline (path ++ '.' :: rest)).opening = .letter ∧
      (outline (path ++ '.' :: rest)).colon = false ∧
      (outline (path ++ '.' :: rest)).point = true := by
  rw [mem_path] at hp
  have hcolon := not_mem_of_isPath hp
  obtain ⟨c, ds, rfl, hc⟩ := isLetter_of_isPath hp
  rw [List.mem_cons, not_or] at hcolon
  simp [outline, opening_of_isLetter hc, hcolon.2, hrest]

theorem admits_of_mem_className (h : cs ∈ className.language) :
    className.admits (outline cs) = true := by
  obtain ⟨path, hp, _, hpoint, rfl⟩ := Language.mem_mul.1 h
  obtain rfl := mem_literal.1 hpoint
  obtain ⟨hopening, hcolon, hpoint⟩ := outline_path hp (List.not_mem_nil (a := ':'))
  have hpointed : (outline (path ++ ['.'])).pointed = true := by simp [outline]
  simp [admits, hopening, hcolon, hpoint, hpointed]

theorem admits_of_mem_instanceMember (h : cs ∈ instanceMember.language) :
    instanceMember.admits (outline cs) = true := by
  rw [language, mul_assoc, mul_assoc, mem_literal_mul] at h
  obtain ⟨_, rfl, h⟩ := h
  obtain ⟨path, hp, _, hrest, rfl⟩ := Language.mem_mul.1 h
  obtain ⟨member, rfl, hm⟩ := mem_literal_mul.1 hrest
  have hcolon := not_mem_of_isPath (mem_path.1 hp)
  have hcolon' := (not_mem_of_isIdentifier (mem_identifier.1 hm)).2
  simp [admits, outline, Opening.of, hcolon, hcolon']

theorem admits_of_mem_staticMember (h : cs ∈ staticMember.language) :
    staticMember.admits (outline cs) = true := by
  rw [language, mul_assoc] at h
  obtain ⟨path, hp, _, hrest, rfl⟩ := Language.mem_mul.1 h
  obtain ⟨member, rfl, hm⟩ := mem_literal_mul.1 hrest
  rw [mem_identifier] at hm
  obtain ⟨hpoint, hcolon⟩ := not_mem_of_isIdentifier hm
  obtain ⟨hopening, hcolon, hpoint'⟩ := outline_path hp hcolon
  have hpointed : (outline (path ++ '.' :: member)).pointed = false := by
    have hne : member ≠ [] := by
      rintro rfl
      cases hm
    have hlast : member.getLast? ≠ some '.' := fun h => hpoint (List.mem_of_getLast? h)
    simpa [outline, List.getLast?_append, List.getLast?_cons_of_ne_nil hne, hne] using hlast
  simp [admits, hopening, hcolon, hpoint', hpointed]

/-- A class admits the outlines of its tokens. -/
theorem admits_of_mem {k : TokenClass} (h : cs ∈ k.language) : k.admits (outline cs) = true := by
  cases k with
  | null =>
    obtain rfl : cs = ['n', 'u', 'l', 'l'] := h
    decide
  | symbol => exact admits_of_mem_symbol h
  | var => exact admits_of_mem_var h
  | integer => exact admits_of_mem_integer h
  | float => exact admits_of_mem_float h
  | ratio => exact admits_of_mem_ratio h
  | accessor => exact admits_of_mem_accessor h
  | className => exact admits_of_mem_className h
  | instanceMember => exact admits_of_mem_instanceMember h
  | staticMember => exact admits_of_mem_staticMember h

end TokenClass
end LispForms
