import LispForms.Proofs.Classes
import LispForms.Proofs.Number.Nearest

/-! The text of a floating-point number as a numeral: whole digits, a fraction, an exponent. However
it is laid out, the numeral has the value of the decimal that is written. -/

namespace LispForms

namespace Number

/-! ### Digits -/

variable {ds : List Char}

theorem ofDigits_append (cs ds : List Char) :
    ofDigits (cs ++ ds) = ofDigits cs * 10 ^ ds.length + ofDigits ds := by
  rw [ofDigits, Nat.ofDigitChars_append, Nat.ofDigitChars_eq_ofDigitChars_zero, Nat.mul_comm]
  rfl

theorem ofDigits_zeros (n : ℕ) : ofDigits (List.replicate n '0') = 0 := by
  rw [ofDigits, Nat.ofDigitChars_replicate_zero, Nat.mul_zero]

theorem ofDigits_zeros_append (n : ℕ) (ds : List Char) :
    ofDigits (List.replicate n '0' ++ ds) = ofDigits ds := by
  rw [ofDigits_append, ofDigits_zeros, Nat.zero_mul, Nat.zero_add]

theorem ofDigits_append_zeros (ds : List Char) (n : ℕ) :
    ofDigits (ds ++ List.replicate n '0') = ofDigits ds * 10 ^ n := by
  rw [ofDigits_append, ofDigits_zeros, List.length_replicate, Nat.add_zero]

theorem ofDigits_cons (c : Char) (ds : List Char) :
    ofDigits (c :: ds) = (c.toNat - '0'.toNat) * 10 ^ ds.length + ofDigits ds := by
  have hone : ofDigits [c] = c.toNat - '0'.toNat := by
    simp [ofDigits, Nat.ofDigitChars_cons, Nat.ofDigitChars_nil]
  have happend : ofDigits (c :: ds) = ofDigits [c] * 10 ^ ds.length + ofDigits ds :=
    ofDigits_append [c] ds
  rw [happend, hone]

/-- A number is below the power of ten with as many zeros as it has digits. -/
theorem ofDigits_lt (hd : ∀ d ∈ ds, d.isDigit = true) : ofDigits ds < 10 ^ ds.length := by
  induction ds with
  | nil => exact Nat.one_pos
  | cons c ds ih =>
    have hc : c.toNat - '0'.toNat < 10 := by
      have h := hd c List.mem_cons_self
      simp only [Char.isDigit, Bool.and_eq_true, decide_eq_true_eq, UInt32.le_iff_toNat_le] at h
      have hhigh : c.toNat ≤ 57 := h.2
      have hzero : '0'.toNat = 48 := rfl
      omega
    have hds := ih fun d h => hd d (List.mem_cons_of_mem c h)
    rw [ofDigits_cons, List.length_cons, pow_succ]
    have hmul := Nat.mul_le_mul_right (10 ^ ds.length) (Nat.succ_le_of_lt hc)
    rw [Nat.succ_mul] at hmul
    omega

/-- Digits without the zeros at their end, and the number of these. -/
theorem exists_append_zeros (ds : List Char) :
    ∃ k, ds = (ds.reverse.dropWhile (· == '0')).reverse ++ List.replicate k '0' := by
  refine ⟨(ds.reverse.takeWhile (· == '0')).length, ?_⟩
  have hzeros : ds.reverse.takeWhile (· == '0') =
      List.replicate (ds.reverse.takeWhile (· == '0')).length '0' := by
    refine List.eq_replicate_iff.2 ⟨rfl, fun c hc => ?_⟩
    have hzero := List.mem_takeWhile_imp hc
    exact beq_iff_eq.1 hzero
  have hsplit := congrArg List.reverse
    (@List.takeWhile_append_dropWhile _ (· == '0') ds.reverse)
  rw [List.reverse_append, List.reverse_reverse] at hsplit
  rw [hzeros, List.reverse_replicate] at hsplit
  exact hsplit.symm

/-! ### Numerals -/

/-- The parts of a floating-point numeral. -/
structure Numeral where
  whole : List Char
  fraction : List Char
  /-- Whether the exponent is negative, and its digits. -/
  exponent : Option (Bool × List Char)

namespace Numeral

structure Valid (n : Numeral) : Prop where
  whole_ne : n.whole ≠ []
  whole : ∀ d ∈ n.whole, d.isDigit = true
  fraction : ∀ d ∈ n.fraction, d.isDigit = true
  exponent : ∀ e ∈ n.exponent, e.2 ≠ [] ∧ ∀ d ∈ e.2, d.isDigit = true

def point (n : Numeral) : List Char := if n.fraction = [] then [] else '.' :: n.fraction

def power (n : Numeral) : List Char :=
  match n.exponent with
  | none => []
  | some (negative, ds) => 'e' :: (if negative then '-' else '+') :: ds

def text (n : Numeral) : List Char := n.whole ++ (n.point ++ n.power)

/-- The exponent as a number, zero if there is none. -/
def order (n : Numeral) : ℤ :=
  match n.exponent with
  | none => 0
  | some (negative, ds) => signed negative (ofDigits ds)

def decimal (n : Numeral) : Decimal :=
  ⟨ofDigits (n.whole ++ n.fraction), n.order - n.fraction.length⟩

variable {n : Numeral}

theorem isDigit_head?_power (n : Numeral) : ∀ c ∈ n.power.head?, c.isDigit = false := by
  unfold power
  split
  · simp
  · rintro c ⟨⟩
    rfl

theorem isDigit_head?_point (n : Numeral) :
    ∀ c ∈ (n.point ++ n.power).head?, c.isDigit = false := by
  unfold point
  split
  · exact n.isDigit_head?_power
  · rintro c ⟨⟩
    rfl

theorem fraction?_point (h : n.Valid) :
    Token.fraction? (n.point ++ n.power) = some (n.fraction, n.power) := by
  unfold point
  split
  next hf =>
    rw [hf, List.nil_append]
    unfold power
    split <;> rfl
  next hf =>
    rw [List.cons_append, Token.fraction?, Token.digits_append h.fraction n.isDigit_head?_power]
    simp [hf]

theorem exponent?_power (h : n.Valid) : Token.exponent? n.power = some n.order := by
  have hexp := h.exponent
  unfold power order
  cases he : n.exponent with
  | none => rfl
  | some e =>
    obtain ⟨negative, ds⟩ := e
    obtain ⟨hne, hd⟩ := hexp _ he
    cases negative <;> simp [Token.exponent?, Token.unsign, Token.digits_eq_self hd, hne]

/-- A numeral behind its sign denotes its decimal. -/
theorem float?_text (h : n.Valid) (negative : Bool) :
    TokenClass.float? ((if negative then ['-'] else []) ++ n.text) =
      some (.float negative n.decimal) := by
  have hu : Token.unsign ((if negative then ['-'] else []) ++ n.text) = (negative, n.text) := by
    cases negative with
    | true => rfl
    | false =>
      obtain ⟨-, -, -, -, hu⟩ := @Token.isDigit_cons_of_digits n.whole (n.point ++ n.power)
        h.whole_ne h.whole
      exact hu
  have hds : Token.digits n.text = (n.whole, n.point ++ n.power) :=
    Token.digits_append h.whole n.isDigit_head?_point
  simp [TokenClass.float?, hu, hds, h.whole_ne, fraction?_point h, exponent?_power h, decimal]

theorem mem_text (h : n.Valid) {c : Char} (hc : c ∈ n.text) :
    c.isDigit = true ∨ c ∈ ['e', '-', '+'] ∨ c = '.' ∧ n.fraction ≠ [] := by
  rcases List.mem_append.1 hc with hc | hc
  · exact .inl (h.whole c hc)
  rcases List.mem_append.1 hc with hc | hc
  · unfold point at hc
    split at hc
    · cases hc
    next hf =>
      rcases List.mem_cons.1 hc with rfl | hc
      · exact .inr (.inr ⟨rfl, hf⟩)
      · exact .inl (h.fraction c hc)
  · have hexp := h.exponent
    unfold power at hc
    cases he : n.exponent with
    | none =>
      rw [he] at hc
      cases hc
    | some e =>
      rw [he] at hc
      simp only [List.mem_cons] at hc
      rcases hc with rfl | rfl | hc
      · exact .inr (.inl (by decide))
      · cases e.1 <;> exact .inr (.inl (by decide))
      · exact .inl ((hexp e he).2 c hc)

theorem isOrdinary_of_mem_text (h : n.Valid) {c : Char} (hc : c ∈ n.text) :
    isOrdinary c = true ∧ c ≠ ':' := by
  rcases mem_text h hc with hc | hc | ⟨rfl, -⟩
  · refine ⟨Token.isOrdinary_of_isDigit hc, ?_⟩
    rintro rfl
    exact absurd hc (by decide)
  · simp only [List.mem_cons, List.not_mem_nil, or_false] at hc
    rcases hc with rfl | rfl | rfl <;> decide
  · decide

theorem point_mem_text (h : n.fraction ≠ []) : '.' ∈ n.text := by
  simp [text, point, h]

theorem point_mem_text_iff (h : n.Valid) : '.' ∈ n.text ↔ n.fraction ≠ [] := by
  refine ⟨fun hc => ?_, point_mem_text⟩
  rcases mem_text h hc with hc | hc | ⟨-, hf⟩
  · exact absurd hc (by decide)
  · exact absurd hc (by decide)
  · exact hf

/-- A numeral with a point or an exponent is a floating-point token, unless it has a minus sign and
no point, as then it is a name. -/
theorem classify_text (h : n.Valid) (hpart : n.fraction ≠ [] ∨ n.exponent ≠ none) {negative : Bool}
    (hname : n.fraction ≠ [] ∨ negative = false) :
    Token.classify ((if negative then ['-'] else []) ++ n.text) =
      some (.float, .float negative n.decimal) := by
  have hfloat := float?_text h negative
  obtain ⟨c, cs, hwhole, hc, hu⟩ := @Token.isDigit_cons_of_digits n.whole (n.point ++ n.power)
    h.whole_ne h.whole
  have hunsign :
      Token.unsign ((if negative then ['-'] else []) ++ n.text) = (negative, n.text) := by
    cases negative with
    | true => rfl
    | false => exact hu
  have hcolon : ':' ∉ (if negative then ['-'] else []) ++ n.text := by
    have htext : ':' ∉ n.text := fun hmem => (isOrdinary_of_mem_text h hmem).2 rfl
    cases negative <;> simp [htext]
  have hsymbol : TokenClass.symbol? ((if negative then ['-'] else []) ++ n.text) = none := by
    rcases hname with hf | rfl
    · exact Token.symbol?_eq_none_of_point (List.mem_append_right _ (point_mem_text hf))
    · have htext : n.text = c :: (cs ++ (n.point ++ n.power)) := by
        rw [text, hwhole, List.cons_append]
      simpa [htext] using Token.symbol?_eq_none_of_isDigit hc
  have hnull : (if negative then ['-'] else []) ++ n.text ≠ ['n', 'u', 'l', 'l'] := by
    intro he
    rw [he] at hunsign
    have htext : n.text = ['n', 'u', 'l', 'l'] := (Prod.mk.inj hunsign).2.symm
    rw [text, hwhole, List.cons_append] at htext
    rw [(List.cons.inj htext).1] at hc
    exact absurd hc (by decide)
  have hinteger : TokenClass.integer? ((if negative then ['-'] else []) ++ n.text) = none := by
    have hds : Token.digits n.text = (n.whole, n.point ++ n.power) :=
      Token.digits_append h.whole n.isDigit_head?_point
    have hrest : n.point ++ n.power ≠ [] ∧ n.point ++ n.power ≠ ['.'] := by
      by_cases hf : n.fraction = []
      · have hexp := hpart.resolve_left (fun hne => hne hf)
        obtain ⟨e, he⟩ := Option.ne_none_iff_exists'.1 hexp
        simp [point, power, hf, he]
      · simp [point, hf]
    simp [TokenClass.integer?, hunsign, hds, hrest]
  simp [Token.classify, TokenClass.order, List.findSome?, TokenClass.meaning?,
    Token.null?_eq_none hnull, hsymbol, Token.var?_eq_none_of_colon hcolon, hinteger, hfloat]

end Numeral

/-! ### Layouts -/

open Numeral

theorem value_eq_of_order {d : Decimal} {m : ℕ} {e : ℤ} (k : ℕ) (hd : d.digits = m * 10 ^ k)
    (he : d.exponent + k = e) : d.value = m * 10 ^ e := by
  rw [Decimal.value, hd, ← he]
  push_cast
  rw [mul_assoc, ← zpow_natCast, ← zpow_add₀ (by norm_num)]
  congr 2
  ring

theorem exists_numeral_positional (hne : ds ≠ []) (hd : ∀ d ∈ ds, d.isDigit = true) (point : ℤ) :
    ∃ n : Numeral, n.Valid ∧ Layout.positional ds point = n.text ∧ n.fraction ≠ [] ∧
      n.decimal.value = ofDigits ds * 10 ^ (point - ds.length) := by
  have hzero : ∀ k, ∀ d ∈ List.replicate k '0', d.isDigit = true := by
    intro k d h
    rw [List.eq_of_mem_replicate h]
    rfl
  unfold Layout.positional
  by_cases hpoint : point ≤ 0
  · rw [if_pos hpoint]
    let zeros := List.replicate (-point).toNat '0'
    refine ⟨⟨['0'], zeros ++ ds, none⟩, ⟨by simp, hzero 1, fun d h => ?_, by simp⟩, ?_,
      by simp [hne], value_eq_of_order 0 ?_ ?_⟩
    · rcases List.mem_append.1 h with h | h
      · exact hzero _ d h
      · exact hd d h
    · simp [text, Numeral.point, power, hne, zeros]
    · have hone : ['0'] = List.replicate 1 '0' := rfl
      simp only [decimal, hone, ofDigits_zeros_append, zeros, pow_zero, mul_one]
    · have hlen : zeros.length = (-point).toNat := List.length_replicate
      simp only [decimal, order, List.length_append, hlen]
      omega
  · rw [if_neg hpoint]
    by_cases hlen : ds.length ≤ point.toNat
    · rw [if_pos hlen]
      let zeros := List.replicate (point.toNat - ds.length) '0'
      refine ⟨⟨ds ++ zeros, ['0'], none⟩, ⟨by simp [hne], fun d h => ?_, hzero 1, by simp⟩, ?_,
        by simp, value_eq_of_order (point.toNat - ds.length + 1) ?_ ?_⟩
      · rcases List.mem_append.1 h with h | h
        · exact hd d h
        · exact hzero _ d h
      · simp [text, Numeral.point, power, zeros]
      · have hone : ['0'] = List.replicate 1 '0' := rfl
        simp only [decimal, hone, ofDigits_append_zeros, zeros]
        rw [mul_assoc, ← pow_add]
      · simp only [decimal, order, List.length_singleton]
        push_cast
        omega
    · rw [if_neg hlen]
      have hdrop : ds.drop point.toNat ≠ [] := by
        rw [Ne, List.drop_eq_nil_iff]
        exact hlen
      refine ⟨⟨ds.take point.toNat, ds.drop point.toNat, none⟩, ⟨?_, fun d h => ?_, fun d h => ?_,
        by simp⟩, ?_, hdrop, value_eq_of_order 0 ?_ ?_⟩
      · rw [Ne, List.take_eq_nil_iff]
        simp only [hne, or_false]
        omega
      · exact hd d (List.mem_of_mem_take h)
      · exact hd d (List.mem_of_mem_drop h)
      · simp [text, Numeral.point, power, hdrop]
      · simp [decimal]
      · simp only [decimal, order, List.length_drop]
        omega

theorem exists_numeral_scientific (hne : ds ≠ []) (hd : ∀ d ∈ ds, d.isDigit = true) (width : ℕ)
    (e : ℤ) : ∃ n : Numeral, n.Valid ∧ Layout.scientific width ds e = n.text ∧ n.exponent ≠ none ∧
      n.decimal.value = ofDigits ds * 10 ^ (e + 1 - ds.length) := by
  obtain ⟨c, cs, rfl⟩ := List.exists_cons_of_ne_nil hne
  let digits := Nat.toDigits 10 e.natAbs
  let zeros := List.replicate (width - digits.length) '0'
  have hdigits : ∀ d ∈ zeros ++ digits, d.isDigit = true := by
    intro d h
    rcases List.mem_append.1 h with h | h
    · rw [List.eq_of_mem_replicate h]
      rfl
    · exact Nat.isDigit_of_mem_toDigits (by decide) (by decide) h
  have hdigits_ne : zeros ++ digits ≠ [] :=
    List.append_ne_nil_of_right_ne_nil _ Nat.toDigits_ne_nil
  have hsigned : signed (e < 0) (ofDigits (zeros ++ digits)) = e := by
    rw [ofDigits_zeros_append, ofDigits_toDigits]
    by_cases hneg : e < 0
    · simp only [signed, hneg, decide_true, if_true]
      omega
    · simp only [signed, hneg, decide_false, Bool.false_eq_true, if_false]
      omega
  refine ⟨⟨[c], cs, some (e < 0, zeros ++ digits)⟩, ⟨by simp, fun d h => ?_, fun d h => ?_, ?_⟩, ?_,
    by simp, value_eq_of_order 0 ?_ ?_⟩
  · exact hd d (List.mem_of_mem_head? (by simpa [eq_comm] using h))
  · exact hd d (List.mem_cons_of_mem c h)
  · rintro _ ⟨⟩
    exact ⟨hdigits_ne, hdigits⟩
  · cases cs <;> simp [Layout.scientific, text, Numeral.point, power, digits, zeros]
  · simp [decimal]
  · simp only [decimal, order, hsigned, List.length_cons]
    push_cast
    ring

/-- The text of a decimal is a numeral of the same value, with a point or an exponent. -/
theorem exists_numeral_decimal (l : Layout) {d : Decimal} (hd : d.digits ≠ 0) :
    ∃ n : Numeral, n.Valid ∧ l.decimal d = n.text ∧ (n.fraction ≠ [] ∨ n.exponent ≠ none) ∧
      n.decimal.value = d.value := by
  let all := Nat.toDigits 10 d.digits
  let ds := (all.reverse.dropWhile (· == '0')).reverse
  obtain ⟨k, hk⟩ : ∃ k, all = ds ++ List.replicate k '0' := exists_append_zeros all
  have hvalue : d.digits = ofDigits ds * 10 ^ k := by
    rw [← ofDigits_append_zeros, ← hk]
    exact (ofDigits_toDigits d.digits).symm
  have hne : ds ≠ [] := by
    intro he
    rw [he] at hvalue
    exact hd (hvalue.trans (Nat.zero_mul _))
  have hdigits : ∀ c ∈ ds, c.isDigit = true := by
    intro c hc
    have hmem : c ∈ all := hk ▸ List.mem_append_left _ hc
    exact Nat.isDigit_of_mem_toDigits (by decide) (by decide) hmem
  have hlen : all.length = ds.length + k := by
    rw [hk, List.length_append, List.length_replicate]
  let point : ℤ := all.length + d.exponent
  have hdvalue : d.value = ofDigits ds * 10 ^ (point - ds.length) := by
    refine value_eq_of_order k hvalue ?_
    simp only [point, hlen]
    push_cast
    ring
  have hdecimal : l.decimal d = if l.plainFrom ≤ point - 1 ∧ point - 1 < l.plainBelow then
      Layout.positional ds point else Layout.scientific l.exponentWidth ds (point - 1) := if_neg hne
  rw [hdecimal, hdvalue]
  split
  · obtain ⟨n, hn, htext, hfraction, hv⟩ := exists_numeral_positional hne hdigits point
    exact ⟨n, hn, htext, .inl hfraction, hv⟩
  · obtain ⟨n, hn, htext, hexp, hv⟩ :=
      exists_numeral_scientific hne hdigits l.exponentWidth (point - 1)
    rw [sub_add_cancel] at hv
    exact ⟨n, hn, htext, .inr hexp, hv⟩

end Number
end LispForms
