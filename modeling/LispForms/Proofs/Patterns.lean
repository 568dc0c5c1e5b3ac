import LispForms.Proofs.TokenFault
import Mathlib.Computability.Language

/-! The classes of tokens as patterns. Each class is a regular language, put together from kinds of
characters, and a token denotes something in the class if and only if the whole of it is in the
language. -/

namespace LispForms

open Token
open scoped Computability

variable {cs ds rest : List Char} {c : Char}

/-! ### Parts of patterns -/

namespace Pattern

/-- One character of a kind. -/
def one (p : Char → Bool) : Language Char := {cs | ∃ c, p c = true ∧ cs = [c]}

def literal (c : Char) : Language Char := one (· == c)

/-- What may be there or not. -/
def optional (l : Language Char) : Language Char := 1 + l

/-- A character of one kind and any number of another. -/
def headed (p q : Char → Bool) : Language Char := one p * (one q)∗

def sign : Language Char := optional (one fun c => c == '-' || c == '+')

def numeral : Language Char := headed Char.isDigit Char.isDigit

/-- A name in a symbol or a var. -/
def name : Language Char :=
  headed (fun c => !(c.isDigit || c == ':' || c == '.')) fun c => !(c == ':' || c == '.')

def identifier : Language Char := headed isLetter isWordChar

def path : Language Char := headed isLetter fun c => isWordChar c || c == '.'

variable {p q : Char → Bool} {l : Language Char}

theorem mem_literal : cs ∈ literal c ↔ cs = [c] := by
  constructor
  · rintro ⟨d, hd, rfl⟩
    rw [beq_iff_eq.1 hd]
  · rintro rfl
    exact ⟨c, beq_self_eq_true c, rfl⟩

theorem mem_optional : cs ∈ optional l ↔ cs = [] ∨ cs ∈ l := by
  rw [optional, Language.mem_add, Language.mem_one]

theorem mem_kstar_one : cs ∈ (one p)∗ ↔ ∀ c ∈ cs, p c = true := by
  rw [Language.mem_kstar]
  constructor
  · rintro ⟨ls, rfl, hls⟩ c hc
    obtain ⟨l, hl, hc⟩ := List.mem_flatten.1 hc
    obtain ⟨d, hd, rfl⟩ := hls l hl
    rwa [List.mem_singleton.1 hc]
  · intro h
    refine ⟨cs.map ([·]), ?_, ?_⟩
    · exact (List.flatMap_singleton' cs).symm
    · intro l hl
      obtain ⟨c, hc, rfl⟩ := List.mem_map.1 hl
      exact ⟨c, h c hc, rfl⟩

theorem mem_one_mul : cs ∈ one p * l ↔ ∃ c ds, cs = c :: ds ∧ p c = true ∧ ds ∈ l := by
  rw [Language.mem_mul]
  constructor
  · rintro ⟨_, ⟨c, hc, rfl⟩, ds, hds, rfl⟩
    exact ⟨c, ds, rfl, hc, hds⟩
  · rintro ⟨c, ds, rfl, hc, hds⟩
    exact ⟨[c], ⟨c, hc, rfl⟩, ds, hds, rfl⟩

theorem mem_literal_mul : cs ∈ literal c * l ↔ ∃ ds, cs = c :: ds ∧ ds ∈ l := by
  rw [literal, mem_one_mul]
  simp

theorem mem_headed :
    cs ∈ headed p q ↔ ∃ c ds, cs = c :: ds ∧ p c = true ∧ ∀ d ∈ ds, q d = true := by
  simp only [headed, mem_one_mul, mem_kstar_one]

theorem mem_sign : cs ∈ sign ↔ cs = [] ∨ cs = ['-'] ∨ cs = ['+'] := by
  rw [sign, mem_optional]
  refine or_congr_right ⟨?_, ?_⟩
  · rintro ⟨c, hc, rfl⟩
    simpa using hc
  · rintro (rfl | rfl)
    · exact ⟨'-', rfl, rfl⟩
    · exact ⟨'+', rfl, rfl⟩

theorem mem_numeral : cs ∈ numeral ↔ cs ≠ [] ∧ ∀ d ∈ cs, d.isDigit = true := by
  rw [numeral, mem_headed]
  cases cs with
  | nil => simp
  | cons c ds => simp

theorem mem_numeral_of_all (hne : cs ≠ []) (h : cs.all Char.isDigit = true) : cs ∈ numeral :=
  mem_numeral.2 ⟨hne, List.all_eq_true.1 h⟩

theorem mem_name : cs ∈ name ↔ isName cs = true := by
  rw [name, mem_headed]
  cases cs with
  | nil => simp [isName]
  | cons c ds => simp [isName, and_assoc, bne]

theorem mem_identifier : cs ∈ identifier ↔ isIdentifier cs = true := by
  rw [identifier, mem_headed]
  cases cs <;> simp [isIdentifier]

theorem mem_path : cs ∈ path ↔ isPath cs = true := by
  rw [path, mem_headed]
  cases cs <;> simp [isPath]

/-! ### Numbers from left to right -/

/-- No word of the language begins with a digit. -/
def Undigited (l : Language Char) : Prop := ∀ cs ∈ l, ∀ c ∈ cs.head?, c.isDigit = false

theorem digits_spec (cs : List Char) : cs = (digits cs).1 ++ (digits cs).2 ∧
    (∀ d ∈ (digits cs).1, d.isDigit = true) :=
  ⟨List.takeWhile_append_dropWhile.symm, fun _ => isDigit_of_mem_digits⟩

/-- The digits in front of a word that begins with none are those that a reader takes. -/
theorem mem_numeral_mul (hl : Undigited l) :
    cs ∈ numeral * l ↔ (Token.digits cs).1 ≠ [] ∧ (Token.digits cs).2 ∈ l := by
  rw [Language.mem_mul]
  constructor
  · rintro ⟨ds, hds, rest, hrest, rfl⟩
    obtain ⟨hne, hd⟩ := mem_numeral.1 hds
    rw [digits_append hd (hl rest hrest)]
    exact ⟨hne, hrest⟩
  · rintro ⟨hne, hrest⟩
    obtain ⟨hcs, hd⟩ := digits_spec cs
    exact ⟨_, mem_numeral.2 ⟨hne, hd⟩, _, hrest, hcs.symm⟩

theorem exists_sign (cs : List Char) : ∃ sg ∈ sign, cs = sg ++ (unsign cs).2 := by
  unfold unsign
  split
  · exact ⟨['-'], mem_sign.2 (.inr (.inl rfl)), rfl⟩
  · exact ⟨['+'], mem_sign.2 (.inr (.inr rfl)), rfl⟩
  · exact ⟨[], mem_sign.2 (.inl rfl), rfl⟩

theorem unsign_append {sg : List Char} (hs : sg ∈ sign) (h : cs ∈ numeral * l) :
    unsign (sg ++ cs) = (sg == ['-'], cs) := by
  obtain ⟨ds, hds, rest, -, rfl⟩ := Language.mem_mul.1 h
  obtain ⟨hne, hd⟩ := mem_numeral.1 hds
  rcases mem_sign.1 hs with rfl | rfl | rfl
  · obtain ⟨-, -, -, -, hu⟩ := @isDigit_cons_of_digits ds rest hne hd
    exact hu
  · rfl
  · rfl

theorem mem_sign_mul : cs ∈ sign * (numeral * l) ↔ (unsign cs).2 ∈ numeral * l := by
  rw [Language.mem_mul]
  constructor
  · rintro ⟨sg, hs, rest, hrest, rfl⟩
    rwa [unsign_append hs hrest]
  · intro h
    obtain ⟨sg, hs, hcs⟩ := exists_sign cs
    exact ⟨sg, hs, _, h, hcs.symm⟩

/-! ### The rest of a number -/

/-- The exponent of a floating-point token. -/
def power : Language Char := one (fun c => c == 'e' || c == 'E') * sign * numeral

theorem undigited_empty : Undigited 1 := by
  intro cs hcs
  rw [(Language.mem_one cs).1 hcs]
  exact fun c hc => nomatch hc

theorem undigited_one_mul (hp : ∀ c, p c = true → c.isDigit = false) : Undigited (one p * l) := by
  intro cs hcs
  obtain ⟨c, ds, rfl, hc, -⟩ := mem_one_mul.1 hcs
  rintro _ ⟨⟩
  exact hp c hc

theorem undigited_literal_mul (hc : c.isDigit = false) : Undigited (literal c * l) :=
  undigited_one_mul fun d hd => by rwa [beq_iff_eq.1 hd]

theorem Undigited.optional (h : Undigited l) : Undigited (optional l) := by
  intro cs hcs
  rcases mem_optional.1 hcs with rfl | hcs
  · exact fun c hc => nomatch hc
  · exact h cs hcs

theorem Undigited.mul {l' : Language Char} (h : Undigited l) (h' : Undigited l') :
    Undigited (l * l') := by
  intro cs hcs
  obtain ⟨as, has, bs, hbs, rfl⟩ := Language.mem_mul.1 hcs
  cases as with
  | nil => exact h' bs hbs
  | cons a as => exact h (a :: as) has

theorem undigited_power : Undigited (optional power) := by
  rw [power, mul_assoc]
  refine (undigited_one_mul fun c hc => ?_).optional
  simp only [Bool.or_eq_true, beq_iff_eq] at hc
  rcases hc with rfl | rfl <;> rfl

theorem mem_optional_power : cs ∈ optional power ↔ (exponent? cs).isSome = true := by
  rw [mem_optional, power, mul_assoc]
  cases cs with
  | nil => simp [exponent?]
  | cons c cs =>
    have hrest : cs ∈ sign * numeral ↔ (Token.digits (unsign cs).2).1 ≠ [] ∧
        (Token.digits (unsign cs).2).2 = [] := by
      rw [← mul_one numeral, mem_sign_mul, mem_numeral_mul undigited_empty, Language.mem_one]
    rw [mem_one_mul]
    simp [exponent?, hrest, and_assoc]

theorem mem_fraction : cs ∈ optional (literal '.' * numeral) * optional power ↔
    ∃ p, fraction? cs = some p ∧ p.2 ∈ optional power := by
  rw [optional, add_mul, one_mul, Language.mem_add, mul_assoc, mem_literal_mul]
  unfold fraction?
  split
  next cs =>
    have hpower : '.' :: cs ∉ optional power := by
      simp [mem_optional_power, exponent?]
    simp only [hpower, false_or, List.cons.injEq, true_and, exists_eq_left',
      mem_numeral_mul undigited_power]
    by_cases hne : (Token.digits cs).1 = [] <;> simp [hne]
  next hpoint =>
    have hcs (ds : List Char) : cs ≠ '.' :: ds := hpoint ds
    simp [hcs]

end Pattern

namespace TokenClass

open Pattern

/-- The tokens of a class. -/
def language : TokenClass → Language Char
  | null => {['n', 'u', 'l', 'l']}
  | symbol => optional (literal ':') * Pattern.name
  | var => Pattern.name * literal ':' * Pattern.name
  | integer => sign * numeral * optional (literal '.')
  | float => sign * numeral * optional (literal '.' * numeral) * optional power
  | ratio => sign * numeral * literal '/' * numeral
  | accessor => literal '.' * identifier
  | className => path * literal '.'
  | instanceMember => literal '.' * path * literal '.' * identifier
  | staticMember => path * literal '.' * identifier

/-! ### What is tried of a token -/

theorem mem_symbol : cs ∈ symbol.language ↔ (symbol? cs).isSome = true := by
  have hname : cs ∈ literal ':' * Pattern.name ↔ cs.head? = some ':' ∧ isName cs.tail = true := by
    rw [mem_literal_mul]
    cases cs with
    | nil => simp
    | cons c ds => simp [mem_name]
  rw [language, Pattern.optional, add_mul, one_mul, Language.mem_add, hname, mem_name, symbol?]
  split <;> simp_all

theorem mem_var : cs ∈ var.language ↔ (var? cs).isSome = true := by
  rw [language, mul_assoc, Language.mem_mul]
  constructor
  · rintro ⟨ns, hns, rest, hrest, rfl⟩
    obtain ⟨name, rfl, hname⟩ := mem_literal_mul.1 hrest
    rw [var?_append (mem_name.1 hns) (mem_name.1 hname)]
    rfl
  · intro h
    obtain ⟨m, hm⟩ := Option.isSome_iff_exists.1 h
    obtain ⟨ns, name, hns, hname, rfl, -⟩ := of_var? hm
    exact ⟨ns, mem_name.2 hns, _, mem_literal_mul.2 ⟨name, rfl, mem_name.2 hname⟩, rfl⟩

theorem mem_integer : cs ∈ integer.language ↔ (integer? cs).isSome = true := by
  have hpoint : Undigited (optional (literal '.')) := by
    rw [← mul_one (literal '.')]
    exact (undigited_literal_mul rfl).optional
  rw [language, mul_assoc, mem_sign_mul, mem_numeral_mul hpoint, mem_optional, mem_literal]
  simp [integer?]

theorem mem_float : cs ∈ float.language ↔ (float? cs).isSome = true := by
  have hrest : Undigited (optional (literal '.' * numeral) * optional power) :=
    (undigited_literal_mul rfl).optional.mul undigited_power
  rw [language, mul_assoc, mul_assoc, mem_sign_mul, mem_numeral_mul hrest, mem_fraction]
  simp only [mem_optional_power]
  by_cases hne : (Token.digits (unsign cs).2).1 = []
  · simp [float?, hne]
  · cases hf : fraction? (Token.digits (unsign cs).2).2 with
    | none => simp [float?, hne, hf]
    | some p => cases he : exponent? p.2 <;> simp [float?, hne, hf, he]

theorem mem_ratio : cs ∈ ratio.language ↔ (ratio? cs).isSome = true := by
  rw [language, mul_assoc, mul_assoc, mem_sign_mul, mem_numeral_mul (undigited_literal_mul rfl),
    mem_literal_mul]
  unfold ratio?
  dsimp only
  split
  next den h => simp [h, mem_numeral, and_assoc]
  next h => simpa using fun hne den hden => absurd hden (h den)

theorem mem_accessor : cs ∈ accessor.language ↔ (accessor? cs).isSome = true := by
  rw [language, mem_literal_mul]
  unfold accessor?
  split
  next ds => simp [mem_identifier]
  next hpoint =>
    have hcs (ds : List Char) : cs ≠ '.' :: ds := hpoint ds
    simp [hcs]

theorem mem_className : cs ∈ className.language ↔ (className? cs).isSome = true := by
  rw [language, Language.mem_mul]
  constructor
  · rintro ⟨path, hp, point, hpoint, rfl⟩
    rw [mem_literal.1 hpoint, className?_concat (mem_path.1 hp)]
    rfl
  · intro h
    obtain ⟨m, hm⟩ := Option.isSome_iff_exists.1 h
    obtain ⟨path, hpath, rfl⟩ := of_className? hm
    rw [toList_of_className? hm]
    exact ⟨_, mem_path.2 hpath, _, mem_literal.2 rfl, rfl⟩

theorem mem_member : cs ∈ path * literal '.' * identifier ↔ (member? cs).isSome = true := by
  rw [mul_assoc, Language.mem_mul]
  constructor
  · rintro ⟨path, hp, rest, hrest, rfl⟩
    obtain ⟨member, rfl, hm⟩ := mem_literal_mul.1 hrest
    rw [member?_append (mem_path.1 hp) (mem_identifier.1 hm)]
    rfl
  · intro h
    obtain ⟨p, hp⟩ := Option.isSome_iff_exists.1 h
    obtain ⟨hpath, hmember⟩ := of_member? hp
    rw [toList_of_member? hp]
    exact ⟨_, mem_path.2 hpath, _, mem_literal_mul.2 ⟨_, rfl, mem_identifier.2 hmember⟩, rfl⟩

theorem mem_instanceMember : cs ∈ instanceMember.language ↔ (instanceMember? cs).isSome = true := by
  rw [language, mul_assoc, mul_assoc, ← mul_assoc Pattern.path, mem_literal_mul]
  unfold instanceMember?
  split
  next ds => simp [mem_member]
  next hpoint =>
    have hcs (ds : List Char) : cs ≠ '.' :: ds := hpoint ds
    simp [hcs]

/-- The whole of a token is in the language of a class just when it denotes something in it. -/
theorem mem_language_iff (k : TokenClass) (cs : List Char) :
    cs ∈ k.language ↔ (k.meaning? cs).isSome = true := by
  cases k with
  | null =>
    have hnull : meaning? null cs = null? cs := rfl
    have hmem : cs ∈ null.language ↔ cs = ['n', 'u', 'l', 'l'] := Set.mem_singleton_iff
    rw [hmem, hnull, null?]
    split <;> simp_all
  | symbol => exact mem_symbol
  | var => exact mem_var
  | integer => exact mem_integer
  | float => exact mem_float
  | ratio => exact mem_ratio
  | accessor => exact mem_accessor
  | className => exact mem_className
  | instanceMember => exact mem_instanceMember
  | staticMember =>
    rw [language, mem_member, meaning?, staticMember?, Option.isSome_map]

end TokenClass
end LispForms
