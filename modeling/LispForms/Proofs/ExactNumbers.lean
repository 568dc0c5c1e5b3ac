import LispForms.Proofs.Number.Layout
import LispForms.Proofs.Overlap
import LispForms.Proofs.FaultKinds
import LispForms.Proofs.Spelling
import Mathlib.Data.Nat.Digits.Defs
import Mathlib.Data.Rat.Lemmas

/-! The values of whole numbers and ratios. Digits denote a number by their places; the quotient of
two numbers is a rational number, brought to lowest terms, and a form of it is equal to another one
just when the rational numbers are. -/

namespace LispForms

open Pattern Token

/-! ### Place values -/

namespace Number

variable {ds : List Char}

/-- The number that digits denote, each by its place. -/
def placeValue (ds : List Char) : ℕ :=
  Nat.ofDigits 10 (ds.reverse.map fun d => d.toNat - '0'.toNat)

theorem ofDigits_eq_placeValue (ds : List Char) : ofDigits ds = placeValue ds := by
  induction ds with
  | nil => rfl
  | cons c ds ih =>
    rw [ofDigits_cons, ih, placeValue, placeValue, List.reverse_cons, List.map_append,
      Nat.ofDigits_append, List.length_map, List.length_reverse, List.map_singleton,
      Nat.ofDigits_singleton]
    ring

theorem placeValue_zeros_append (n : ℕ) (ds : List Char) :
    placeValue (List.replicate n '0' ++ ds) = placeValue ds := by
  rw [← ofDigits_eq_placeValue, ← ofDigits_eq_placeValue, ofDigits_zeros_append]

/-- Zero is written with zeros and nothing else. -/
theorem placeValue_eq_zero_iff (hd : ∀ d ∈ ds, d.isDigit = true) :
    placeValue ds = 0 ↔ ∀ d ∈ ds, d = '0' := by
  rw [← ofDigits_eq_placeValue]
  induction ds with
  | nil => simp [ofDigits, Nat.ofDigitChars_nil]
  | cons c ds ih =>
    have hc : c.toNat - '0'.toNat = 0 ↔ c = '0' := by
      have h := hd c List.mem_cons_self
      simp only [Char.isDigit, Bool.and_eq_true, decide_eq_true_eq, UInt32.le_iff_toNat_le] at h
      have hlow : '0'.toNat ≤ c.toNat := h.1
      rw [← Char.toNat_inj]
      omega
    have hpower : 10 ^ ds.length ≠ 0 := by positivity
    rw [ofDigits_cons, Nat.add_eq_zero_iff, mul_eq_zero, or_iff_left hpower, hc,
      ih fun d h => hd d (List.mem_cons_of_mem c h), List.forall_mem_cons]

/-! ### Lowest terms -/

/-- A quotient in lowest terms is a rational number with its numerator and its denominator. -/
theorem lowestTerms_eq (n : ℤ) {d : ℕ} (hd : d ≠ 0) :
    lowestTerms n d = ((n / d : ℚ).num, (n / d : ℚ).den) := by
  have hpos : (d : ℤ).sign = 1 := Int.sign_eq_one_of_pos (by omega)
  have hq : (n / d : ℚ) = Rat.divInt n d := by
    rw [Rat.divInt_eq_div]
    norm_cast
  rw [hq, Rat.num_divInt, Rat.den_divInt, if_neg (by omega), hpos, one_mul, lowestTerms, hpos,
    mul_one, Int.gcd_comm]

end Number

namespace Form

/-- A rational number as a form. -/
def ofRat (q : ℚ) : Form := if q.den = 1 then integer q.num else ratio q.num q.den

/-- The rational number that a whole number or a ratio is. -/
def rational? : Form → Option ℚ
  | integer n => some n
  | ratio num den => some (num / den)
  | _ => none

variable {p q : ℚ}

theorem quotient_eq_ofRat (n : ℤ) {d : ℕ} (hd : d ≠ 0) : quotient n d = ofRat (n / d) := by
  rw [quotient, Number.lowestTerms_eq n hd]
  rfl

theorem rational?_ofRat (q : ℚ) : (ofRat q).rational? = some q := by
  unfold ofRat
  split
  next h => exact congrArg some ((Rat.den_eq_one_iff q).1 h)
  next => exact congrArg some q.num_div_den

theorem ofRat_inj : ofRat p = ofRat q ↔ p = q := by
  refine ⟨fun h => ?_, congrArg ofRat⟩
  have hr := congrArg rational? h
  rwa [rational?_ofRat, rational?_ofRat, Option.some_inj] at hr

theorem value?_ofRat (q : ℚ) : (ofRat q).value? = some (.quotient q.num q.den) := by
  unfold ofRat
  split
  next h => rw [h]; rfl
  next => rfl

theorem same_ofRat : (ofRat p).same (ofRat q) = true ↔ p = q := by
  have hsame : (ofRat p).same (ofRat q) = sameValue (.quotient p.num p.den) (ofRat q) := by
    unfold ofRat
    split
    next h => rw [h, same]
    next => rw [same]
  rw [hsame, sameValue, value?_ofRat, Rat.eq_iff_mul_eq_mul]
  exact beq_iff_eq

/-- The form of a quotient is whole just when the denominator divides the numerator. -/
theorem exists_integer_ofRat_iff (n : ℕ) {d : ℕ} (hd : d ≠ 0) :
    (∃ k, ofRat (n / d) = integer k) ↔ d ∣ n := by
  rw [← Rat.den_div_natCast_eq_one_iff n d hd, ofRat]
  by_cases h : (n / d : ℚ).den = 1 <;> simp [h]

/-- A ratio is in lowest terms and not whole. -/
theorem exists_ratio_ofRat (h : ¬ ∃ k, ofRat q = integer k) :
    ∃ num den, ofRat q = ratio num den ∧ 1 < den ∧ num.natAbs.Coprime den := by
  unfold ofRat at h ⊢
  split
  next he => exact absurd ⟨_, if_pos he⟩ h
  next hne => exact ⟨_, _, rfl, by have := q.den_pos; omega, q.reduced⟩

end Form

/-! ### Tokens -/

namespace Token

variable {cs ds point sg : List Char} {k : TokenClass}

open TokenClass

theorem meaning?_eq_none_of_admits (h : k.admits (outline cs) = false) : k.meaning? cs = none := by
  by_contra hne
  have hk := admits_of_mem ((mem_language_iff k cs).2 (Option.isSome_iff_ne_none.2 hne))
  rw [h] at hk
  cases hk

/-- Digits with a sign, a point or both are an integer unless they are a symbol. -/
theorem classify_signed (hs : sg ∈ sign) (hd : ds ∈ numeral)
    (hp : point ∈ Pattern.optional (literal '.'))
    (h : ∀ m, classify (sg ++ ds ++ point) ≠ some (.symbol, m)) :
    classify (sg ++ ds ++ point) = some (.integer, .integer (sg == ['-']) ds) := by
  obtain ⟨hne, hdigits⟩ := mem_numeral.1 hd
  have hout := @outline_number ds point sg hs hd
  have hpoint : point = [] ∨ point = ['.'] := (mem_optional.1 hp).imp_right mem_literal.1
  have hnull : null? (sg ++ ds ++ point) = none :=
    meaning?_eq_none_of_admits (k := .null) (by rw [hout]; simp only [admits]; split_ifs <;> rfl)
  have hvar : var? (sg ++ ds ++ point) = none :=
    meaning?_eq_none_of_admits (k := .var) (by
      rw [hout]
      rcases hpoint with rfl | rfl <;> simp [admits])
  have hinteger : integer? (sg ++ ds ++ point) = some (.integer (sg == ['-']) ds) := by
    have hunsign := unsign_append hs (Language.append_mem_mul hd hp)
    have hdigits := @digits_append point ds hdigits (by rcases hpoint with rfl | rfl <;> simp)
    rw [List.append_assoc, integer?, hunsign]
    dsimp only
    rw [hdigits]
    rcases hpoint with rfl | rfl <;> simp [hne]
  have hsymbol : symbol? (sg ++ ds ++ point) = none := by
    by_contra hsome
    refine h _ (classify_symbol ?_ (Option.isSome_iff_ne_none.2 hsome))
    intro he
    rw [he] at hnull
    cases hnull
  generalize sg ++ ds ++ point = cs at hnull hsymbol hvar hinteger
  simp [classify, order, List.findSome?, meaning?, hnull, hsymbol, hvar, hinteger]

end Token

/-- Digits that are not too many to be converted. -/
def Number.Convertible (ds : List Char) : Prop := ds ∈ numeral ∧ ds.length ≤ Number.maxDigits

namespace Services

variable {W : Type} {ds num den point sg : List Char}

open Number (placeValue maxDigits Convertible)

theorem convert_eq_placeValue (h : Convertible ds) : convert ds = .ok (placeValue ds) :=
  convert_eq_ok_iff.2 ⟨h.2, Number.ofDigits_eq_placeValue ds⟩

theorem interpret_signed_integer (sv : Services W) (locate : Problem → Fault) (w : W)
    (hs : sg ∈ sign) (hd : Convertible ds) (hp : point ∈ Pattern.optional (literal '.'))
    (h : ∀ m, classify (sg ++ ds ++ point) ≠ some (.symbol, m)) :
    (sv.interpret locate (sg ++ ds ++ point) w).1 =
      .ok (.integer (Number.signed (sg == ['-']) (placeValue ds))) := by
  obtain ⟨n, hi⟩ := interpret_eq (classify_signed hs hd.1 hp h) sv locate w
  rw [hi, value, convert_eq_placeValue hd]
  rfl

theorem interpret_ratio (sv : Services W) (locate : Problem → Fault) (w : W) (hn : num ∈ numeral)
    (hd : den ∈ numeral) : (sv.interpret locate (num ++ '/' :: den) w).1 =
      ratio locate (.ofList (num ++ '/' :: den)) false num den := by
  obtain ⟨hnum, hnum'⟩ := mem_numeral.1 hn
  obtain ⟨hden, hden'⟩ := mem_numeral.1 hd
  obtain ⟨n, hi⟩ := interpret_eq (classify_ratio hnum hnum' hden hden') sv locate w
  rw [hi, value]

section Ratio

variable {locate : Problem → Fault} {token : String}

theorem ratio_eq_ofRat (hnum : Convertible num) (hden : Convertible den)
    (hne : placeValue den ≠ 0) :
    ratio locate token false num den = .ok (.ofRat (placeValue num / placeValue den)) := by
  rw [ratio_eq_ok_iff]
  refine ⟨_, _, convert_eq_placeValue hnum, convert_eq_placeValue hden, hne, ?_⟩
  exact Form.quotient_eq_ofRat _ hne

theorem ratio_of_zero (hnum : Convertible num) (hden : Convertible den)
    (hzero : placeValue den = 0) : ratio locate token false num den =
      .error (locate (.zeroDenominator token (placeValue num))) := by
  rw [ratio, convert_eq_placeValue hnum, convert_eq_placeValue hden, hzero]
  rfl

/-- The numerator is converted first, and the denominator before it is compared to zero. -/
theorem ratio_of_tooManyDigits :
    (maxDigits < num.length →
      ratio locate token false num den = .error (.tooManyDigits num.length)) ∧
    (Convertible num → maxDigits < den.length →
      ratio locate token false num den = .error (.tooManyDigits den.length)) := by
  constructor
  · intro hlong
    rw [ratio, convert_eq_error_iff.2 ⟨hlong, rfl⟩]
    rfl
  · intro hnum hlong
    rw [ratio, convert_eq_placeValue hnum, convert_eq_error_iff.2 ⟨hlong, rfl⟩]
    rfl

end Ratio
end Services

/-- Two quotients are equal just when the products across are. -/
theorem Number.div_eq_div_iff_mul_eq_mul {a b c d : ℕ} (hb : b ≠ 0) (hd : d ≠ 0) :
    (a / b : ℚ) = c / d ↔ a * d = c * b := by
  rw [div_eq_div_iff (by exact_mod_cast hb) (by exact_mod_cast hd)]
  exact_mod_cast Iff.rfl

open Number (placeValue maxDigits Convertible)

/-- Whole numbers and ratios have their exact values. A ratio has none where one of its numbers has
too many digits, which is found out first of the numerator, or where its denominator is zero. -/
theorem Services.interpret_exact {W : Type} (sv : Services W) (locate : Problem → Fault) (w : W) :
    (∀ sg ∈ sign, ∀ ds, Convertible ds → ∀ point ∈ Pattern.optional (literal '.'),
      (∀ m, classify (sg ++ ds ++ point) ≠ some (.symbol, m)) →
      (sv.interpret locate (sg ++ ds ++ point) w).1 =
        .ok (.integer (Number.signed (sg == ['-']) (placeValue ds)))) ∧
    (∀ n ds, placeValue (List.replicate n '0' ++ ds) = placeValue ds) ∧
    (∀ num den, Convertible num → Convertible den → (∃ d ∈ den, d ≠ '0') →
      ∃ v, (sv.interpret locate (num ++ '/' :: den) w).1 = .ok v ∧
        v.rational? = some ((placeValue num : ℚ) / placeValue den) ∧
        ((∃ n, v = .integer n) ↔ placeValue den ∣ placeValue num) ∧
        (¬ placeValue den ∣ placeValue num →
          ∃ n d, v = .ratio n d ∧ 1 < d ∧ n.natAbs.Coprime d) ∧
        ∀ num' den', Convertible num' → Convertible den' → (∃ d ∈ den', d ≠ '0') →
          ∃ v', (sv.interpret locate (num' ++ '/' :: den') w).1 = .ok v' ∧
            (v.same v' = true ↔
              placeValue num * placeValue den' = placeValue num' * placeValue den) ∧
            (v = v' ↔
              placeValue num * placeValue den' = placeValue num' * placeValue den)) ∧
    (∀ num den, Convertible num → Convertible den → (∀ d ∈ den, d = '0') →
      ∃ p cause, (sv.interpret locate (num ++ '/' :: den) w).1 = .error (locate p) ∧
        p.kind = .invalidToken ∧ p.token? = some (.ofList (num ++ '/' :: den)) ∧
        p.cause? = some cause ∧ cause.kind = .zeroDivision) ∧
    (∀ num ∈ numeral, ∀ den ∈ numeral, maxDigits < num.length →
      (sv.interpret locate (num ++ '/' :: den) w).1 = .error (.tooManyDigits num.length)) ∧
    (∀ num den, Convertible num → den ∈ numeral → maxDigits < den.length →
      (sv.interpret locate (num ++ '/' :: den) w).1 = .error (.tooManyDigits den.length)) := by
  have hzero {den : List Char} (hd : Convertible den) : placeValue den = 0 ↔ ∀ d ∈ den, d = '0' :=
    Number.placeValue_eq_zero_iff (mem_numeral.1 hd.1).2
  have hratio {num den : List Char} (hnum : Convertible num) (hden : Convertible den)
      (hne : ∃ d ∈ den, d ≠ '0') : placeValue den ≠ 0 ∧
        (sv.interpret locate (num ++ '/' :: den) w).1 =
          .ok (.ofRat (placeValue num / placeValue den)) := by
    have hpos : placeValue den ≠ 0 := by
      rw [Ne, hzero hden]
      push Not
      exact hne
    exact ⟨hpos, (sv.interpret_ratio locate w hnum.1 hden.1).trans (ratio_eq_ofRat hnum hden hpos)⟩
  refine ⟨fun sg hs ds hd point hp => sv.interpret_signed_integer locate w hs hd hp,
    Number.placeValue_zeros_append, ?_, ?_, ?_, ?_⟩
  · intro num den hnum hden hne
    obtain ⟨hpos, hv⟩ := hratio hnum hden hne
    refine ⟨_, hv, Form.rational?_ofRat _, Form.exists_integer_ofRat_iff _ hpos, fun hdvd => ?_, ?_⟩
    · rw [← Form.exists_integer_ofRat_iff _ hpos] at hdvd
      exact Form.exists_ratio_ofRat hdvd
    · intro num' den' hnum' hden' hne'
      obtain ⟨hpos', hv'⟩ := hratio hnum' hden' hne'
      refine ⟨_, hv', ?_, ?_⟩
      · rw [Form.same_ofRat, Number.div_eq_div_iff_mul_eq_mul hpos hpos']
      · rw [Form.ofRat_inj, Number.div_eq_div_iff_mul_eq_mul hpos hpos']
  · intro num den hnum hden hall
    have herror := (sv.interpret_ratio locate w hnum.1 hden.1).trans
      (ratio_of_zero hnum hden ((hzero hden).2 hall))
    exact ⟨_, _, herror, rfl, rfl, rfl, rfl⟩
  · intro num hnum den hden hlong
    exact (sv.interpret_ratio locate w hnum hden).trans (ratio_of_tooManyDigits.1 hlong)
  · intro num den hnum hden hlong
    exact (sv.interpret_ratio locate w hnum.1 hden).trans (ratio_of_tooManyDigits.2 hnum hlong)

/-- Zeros in front and a point behind, equal ratios, a denominator of zeros, and a numerator that is
too long for it to matter. -/
theorem Services.interpret_exact_samples :
    let sv := standard .standard
    let value (cs : List Char) := (sv.interpret Problem.unplaced cs .empty).1
    let ones := List.replicate (maxDigits + 1) '1'
    value ['+', '0', '7', '.'] = .ok (.integer 7) ∧
      (∃ v, value ['6', '/', '4'] = .ok v ∧ value ['3', '/', '2'] = .ok v) ∧
      (∃ p : Problem, value ['1', '/', '0', '0'] = .error p.unplaced ∧ p.kind = .invalidToken) ∧
      value (ones ++ ['/', '0']) = .error (.tooManyDigits ones.length) := by
  intro sv value ones
  have hdigits {ds : List Char} (hne : ds ≠ []) (hd : ds.all Char.isDigit = true)
      (hlen : ds.length ≤ maxDigits) : Convertible ds := ⟨mem_numeral_of_all hne hd, hlen⟩
  have hshort (c : Char) (h : c.isDigit = true) : Convertible [c] :=
    hdigits (List.cons_ne_nil _ _) (by simpa using h) (Nat.le_add_left 1 4299)
  have hzeros : Convertible ['0', '0'] := hdigits (List.cons_ne_nil _ _) rfl (by decide)
  obtain ⟨hinteger, -, hratio, hzero, hlong, -⟩ := sv.interpret_exact Problem.unplaced .empty
  refine ⟨?_, ?_, ?_, ?_⟩
  · have hpoint : ['.'] ∈ Pattern.optional (literal '.') :=
      mem_optional.2 (.inr (mem_literal.2 rfl))
    refine hinteger ['+'] (mem_sign.2 (.inr (.inr rfl))) ['0', '7']
      (hdigits (List.cons_ne_nil _ _) rfl (by decide)) ['.'] hpoint fun m h => ?_
    have hclass : classify ['+', '0', '7', '.'] = some (.integer, .integer false ['0', '7']) := by
      decide
    cases hclass.symm.trans h
  · obtain ⟨v, hv, -, -, -, hsame⟩ := hratio ['6'] ['4'] (hshort '6' rfl) (hshort '4' rfl)
      ⟨'4', List.mem_cons_self, by decide⟩
    obtain ⟨v', hv', -, heq⟩ := hsame ['3'] ['2'] (hshort '3' rfl) (hshort '2' rfl)
      ⟨'2', List.mem_cons_self, by decide⟩
    obtain rfl := heq.2 rfl
    exact ⟨v, hv, hv'⟩
  · obtain ⟨p, cause, hp, hkind, -⟩ := hzero ['1'] ['0', '0'] (hshort '1' rfl) hzeros (by simp)
    exact ⟨p, hp, hkind⟩
  · refine hlong ones (mem_numeral_of_all (List.cons_ne_nil _ _) ?_) ['0'] (hshort '0' rfl).1 ?_
    · rw [List.all_replicate]
      decide
    · rw [List.length_replicate]
      exact Nat.lt_succ_self _

end LispForms
