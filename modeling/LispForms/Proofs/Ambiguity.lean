import LispForms.Proofs.FaultKinds
import LispForms.Proofs.Overlap

/-! Where the order of the classes matters. Null, unsigned digits, and numbers with a sign in front
that hold no point are of more than one class; every other token is read alike in whatever order the
classes are tried. -/

namespace LispForms

open Pattern Token

variable {cs ds : List Char} {s : Char} {k k' : TokenClass} {ks : List TokenClass}

namespace Token

/-- The tokens of more than one class, and their classes. -/
inductive Ambiguous : List Char → List TokenClass → Prop
  | null : Ambiguous ['n', 'u', 'l', 'l'] [.null, .symbol]
  | digits {ds : List Char} (hd : ds ∈ numeral) : Ambiguous ds [.integer, .float]
  | signedInteger {s : Char} {ds : List Char} (hs : [s] ∈ sign) (hd : ds ∈ numeral) :
    Ambiguous (s :: ds) [.symbol, .integer, .float]
  | signedPower {s : Char} {cs : List Char} (hs : [s] ∈ sign) (h : cs ∈ numeral * power) :
    Ambiguous (s :: cs) [.symbol, .float]
  | signedRatio {s : Char} {cs : List Char} (hs : [s] ∈ sign)
    (h : cs ∈ numeral * literal '/' * numeral) : Ambiguous (s :: cs) [.symbol, .ratio]

/-- The first of some classes that a token is of, with what the token denotes in it. -/
def classifyBy (ks : List TokenClass) (cs : List Char) : Option (TokenClass × Meaning) :=
  ks.findSome? fun k => (k.meaning? cs).map (k, ·)

theorem classifyBy_order : classifyBy TokenClass.order = classify := rfl

end Token

namespace TokenClass

theorem mem_order (k : TokenClass) : k ∈ order := by cases k <;> decide

/-! ### The classes of an ambiguous token -/

theorem mem_symbol_signed (hs : [s] ∈ sign) (hcolon : ':' ∉ cs) (hpoint : '.' ∉ cs) :
    s :: cs ∈ symbol.language := by
  have hname : s :: cs ∈ Pattern.name := by
    rw [mem_name]
    have hcs : ∀ c ∈ cs, c ≠ ':' ∧ c ≠ '.' := fun c hc =>
      ⟨fun e => hcolon (e ▸ hc), fun e => hpoint (e ▸ hc)⟩
    rcases mem_sign.1 hs with h | h | h <;> cases h <;> simpa [isName] using hcs
  rw [language, Pattern.optional, add_mul, one_mul, Language.mem_add]
  exact .inl hname

theorem mem_integer_of_digits {sg : List Char} (hs : sg ∈ sign) (hd : ds ∈ numeral) :
    sg ++ ds ∈ integer.language :=
  mem_signed.2 ⟨sg, hs, ds, hd, [], mem_optional.2 (.inl rfl), List.append_nil _⟩

theorem mem_float_of_power {sg pw : List Char} (hs : sg ∈ sign) (hd : ds ∈ numeral)
    (hp : pw ∈ Pattern.optional power) : sg ++ ds ++ pw ∈ float.language := by
  rw [language, mul_assoc, mem_signed]
  refine ⟨sg, hs, ds, hd, pw, ?_, rfl⟩
  exact Language.mem_mul.2 ⟨[], mem_optional.2 (.inl rfl), pw, hp, rfl⟩

theorem mem_float_of_digits {sg : List Char} (hs : sg ∈ sign) (hd : ds ∈ numeral) :
    sg ++ ds ∈ float.language := by
  simpa using mem_float_of_power hs hd (mem_optional.2 (.inl rfl))

theorem marks_of_mem_power (h : cs ∈ power) :
    ':' ∉ cs ∧ '.' ∉ cs ∧ '/' ∉ cs ∧ ('e' ∈ cs ∨ 'E' ∈ cs) := by
  have hmarks := of_mem_power (mem_optional.2 (.inr h))
  refine ⟨?_, ?_, ?_, ?_⟩
  · exact fun h => absurd (hmarks _ h) (by decide)
  · exact fun h => absurd (hmarks _ h) (by decide)
  · exact fun h => absurd (hmarks _ h) (by decide)
  · rw [power, mul_assoc, mem_one_mul] at h
    obtain ⟨e, rest, rfl, he, -⟩ := h
    obtain rfl | rfl : e = 'e' ∨ e = 'E' := by simpa using he
    · exact .inl List.mem_cons_self
    · exact .inr List.mem_cons_self

end TokenClass

open TokenClass

theorem Token.Ambiguous.mem (h : Ambiguous cs ks) (hk : k ∈ ks) : cs ∈ k.language := by
  cases h with
  | null =>
    rw [mem_language_iff]
    revert k
    decide
  | digits hd =>
    have hs : [] ∈ sign := mem_sign.2 (.inl rfl)
    obtain rfl | rfl : k = .integer ∨ k = .float := by simpa using hk
    · exact mem_integer_of_digits hs hd
    · exact mem_float_of_digits hs hd
  | signedInteger hs hd =>
    have hdigits := (mem_numeral.1 hd).2
    obtain rfl | rfl | rfl : k = .symbol ∨ k = .integer ∨ k = .float := by simpa using hk
    · exact mem_symbol_signed hs (not_mem_of_digits hdigits rfl) (not_mem_of_digits hdigits rfl)
    · exact mem_integer_of_digits hs hd
    · exact mem_float_of_digits hs hd
  | signedPower hs h =>
    obtain ⟨ds, hd, pw, hp, rfl⟩ := Language.mem_mul.1 h
    have hdigits := (mem_numeral.1 hd).2
    obtain ⟨hcolon, hpoint, -, -⟩ := marks_of_mem_power hp
    obtain rfl | rfl : k = .symbol ∨ k = .float := by simpa using hk
    · refine mem_symbol_signed hs ?_ ?_
      · simp [hcolon, not_mem_of_digits hdigits]
      · simp [hpoint, not_mem_of_digits hdigits]
    · exact mem_float_of_power hs hd (mem_optional.2 (.inr hp))
  | signedRatio hs h =>
    obtain ⟨num, hn, _, hrest, rfl⟩ := Language.mem_mul.1 (mul_assoc numeral _ _ ▸ h)
    obtain ⟨den, rfl, hd⟩ := mem_literal_mul.1 hrest
    have hnum := (mem_numeral.1 hn).2
    have hden := (mem_numeral.1 hd).2
    obtain rfl | rfl : k = .symbol ∨ k = .ratio := by simpa using hk
    · refine mem_symbol_signed hs ?_ ?_
      · simp [not_mem_of_digits hnum, not_mem_of_digits hden]
      · simp [not_mem_of_digits hnum, not_mem_of_digits hden]
    · rw [language, mul_assoc, mem_signed]
      exact ⟨_, hs, num, hn, _, hrest, rfl⟩

/-- An ambiguous token is of no other classes. -/
theorem Token.Ambiguous.of_admits (h : Ambiguous cs ks) (hk : k.admits (outline cs) = true) :
    k ∈ ks := by
  have signed {s : Char} {ds : List Char} (rest : List Char) (hs : [s] ∈ sign)
      (hd : ds ∈ numeral) :=
    @outline_number ds rest [s] hs hd
  cases h with
  | null =>
    revert hk
    cases k <;> decide
  | digits hd =>
    have hout := @outline_number cs [] [] (mem_sign.2 (.inl rfl)) hd
    rw [List.nil_append, List.append_nil] at hout
    rw [hout] at hk
    cases k <;> simp_all [admits]
  | signedInteger hs hd =>
    have hout := signed [] hs hd
    rw [List.append_nil, List.singleton_append] at hout
    rw [hout] at hk
    cases k <;> simp_all [admits]
  | signedPower hs h =>
    obtain ⟨ds, hd, pw, hp, rfl⟩ := Language.mem_mul.1 h
    have hmarks := marks_of_mem_power hp
    rw [← List.singleton_append, ← List.append_assoc, signed _ hs hd] at hk
    cases k <;> simp_all [admits, Opening.isNumeric]
  | signedRatio hs h =>
    obtain ⟨num, hn, _, hrest, rfl⟩ := Language.mem_mul.1 (mul_assoc numeral _ _ ▸ h)
    obtain ⟨den, rfl, hd⟩ := mem_literal_mul.1 hrest
    have hcolon : ':' ∉ den := not_mem_of_digits (mem_numeral.1 hd).2 rfl
    rw [← List.singleton_append, ← List.append_assoc, signed _ hs hn] at hk
    cases k <;> simp_all [admits]

theorem Token.Ambiguous.mem_language_iff (h : Ambiguous cs ks) (k : TokenClass) :
    cs ∈ k.language ↔ k ∈ ks :=
  ⟨fun hk => h.of_admits (admits_of_mem hk), h.mem⟩

/-! ### Tokens of two classes -/

/-- A number that is a symbol has a sign and no point. -/
theorem TokenClass.of_mem_symbol_number {sg rest : List Char} (hsg : sg ∈ sign) (hd : ds ∈ numeral)
    (h : sg ++ ds ++ rest ∈ symbol.language) : (∃ s, sg = [s]) ∧ '.' ∉ rest := by
  have hadmits := admits_of_mem h
  rw [outline_number hsg hd] at hadmits
  rcases mem_sign.1 hsg with rfl | rfl | rfl <;> simp_all [admits]

/-- An integer that is a floating-point number or a symbol has no point. -/
theorem TokenClass.of_mem_integer_of_point (h : cs ∈ integer.language)
    (hpoint : cs.getLast? ≠ some '.') : ∃ sg ∈ sign, ∃ ds ∈ numeral, cs = sg ++ ds := by
  obtain ⟨sg, hsg, ds, hd, rest, hrest, rfl⟩ := mem_signed.1 h
  rcases mem_optional.1 hrest with rfl | hrest
  · exact ⟨sg, hsg, ds, hd, List.append_nil _⟩
  · obtain rfl := mem_literal.1 hrest
    exact absurd (List.getLast?_concat) hpoint

theorem Token.ambiguous_of_overlapping (hk : cs ∈ k.language) (hk' : cs ∈ k'.language)
    (h : (k, k') ∈ overlapping) : ∃ ks, Ambiguous cs ks := by
  simp only [overlapping, List.mem_cons, Prod.mk.injEq, List.not_mem_nil, or_false] at h
  obtain ⟨rfl, rfl⟩ | ⟨rfl, rfl⟩ | ⟨rfl, rfl⟩ | ⟨rfl, rfl⟩ | ⟨rfl, rfl⟩ := h
  · obtain rfl : cs = ['n', 'u', 'l', 'l'] := hk
    exact ⟨_, .null⟩
  · obtain ⟨sg, hsg, ds, hd, rest, hrest, rfl⟩ := mem_signed.1 hk'
    obtain ⟨⟨s, rfl⟩, hpoint⟩ := of_mem_symbol_number hsg hd hk
    rcases mem_optional.1 hrest with rfl | hrest
    · rw [List.append_nil]
      exact ⟨_, .signedInteger hsg hd⟩
    · obtain rfl := mem_literal.1 hrest
      exact absurd List.mem_cons_self hpoint
  · rw [language, mul_assoc, mem_signed] at hk'
    obtain ⟨sg, hsg, ds, hd, rest, hrest, rfl⟩ := hk'
    obtain ⟨⟨s, rfl⟩, hpoint⟩ := of_mem_symbol_number hsg hd hk
    obtain ⟨fr, hfr, pw, hpw, rfl⟩ := Language.mem_mul.1 hrest
    rcases mem_optional.1 hfr with rfl | hfr
    · rcases mem_optional.1 hpw with rfl | hpw
      · rw [List.append_nil, List.append_nil]
        exact ⟨_, .signedInteger hsg hd⟩
      · exact ⟨_, .signedPower hsg (Language.append_mem_mul hd hpw)⟩
    · obtain ⟨ds', rfl, -⟩ := mem_literal_mul.1 hfr
      exact absurd List.mem_cons_self hpoint
  · rw [language, mul_assoc, mem_signed] at hk'
    obtain ⟨sg, hsg, ds, hd, rest, hrest, rfl⟩ := hk'
    obtain ⟨⟨s, rfl⟩, -⟩ := of_mem_symbol_number hsg hd hk
    exact ⟨_, .signedRatio hsg (mul_assoc numeral _ _ ▸ Language.append_mem_mul hd hrest)⟩
  · have hpointed : cs.getLast? ≠ some '.' := by
      have hadmits := admits_of_mem hk'
      simp only [admits, outline, Bool.and_eq_true, Bool.not_eq_true',
        beq_eq_false_iff_ne] at hadmits
      exact hadmits.2
    obtain ⟨sg, hsg, ds, hd, rfl⟩ := of_mem_integer_of_point hk hpointed
    rcases mem_sign.1 hsg with rfl | rfl | rfl
    · exact ⟨_, .digits hd⟩
    · exact ⟨_, .signedInteger hsg hd⟩
    · exact ⟨_, .signedInteger hsg hd⟩

/-- A token of two different classes is ambiguous. -/
theorem Token.ambiguous_of_ne (hk : cs ∈ k.language) (hk' : cs ∈ k'.language) (hne : k ≠ k') :
    ∃ ks, Ambiguous cs ks := by
  rcases overlapping_of_admits (outline cs) k k' (admits_of_mem hk) (admits_of_mem hk') with
    rfl | h | h
  · exact absurd rfl hne
  · exact ambiguous_of_overlapping hk hk' h
  · exact ambiguous_of_overlapping hk' hk h

theorem Token.Ambiguous.exists_ne (h : Ambiguous cs ks) :
    ∃ k k' : TokenClass, k ≠ k' ∧ cs ∈ k.language ∧ cs ∈ k'.language := by
  have two {k k' : TokenClass} {ks : List TokenClass} (h : Ambiguous cs (k :: k' :: ks))
      (hne : k ≠ k') : ∃ k k' : TokenClass, k ≠ k' ∧ cs ∈ k.language ∧ cs ∈ k'.language :=
    ⟨k, k', hne, h.mem List.mem_cons_self, h.mem (List.mem_cons_of_mem _ List.mem_cons_self)⟩
  cases h with
  | null => exact two .null (by decide)
  | digits hd => exact two (.digits hd) (by decide)
  | signedInteger hs hd => exact two (.signedInteger hs hd) (by decide)
  | signedPower hs h => exact two (.signedPower hs h) (by decide)
  | signedRatio hs h => exact two (.signedRatio hs h) (by decide)

/-! ### Other orders -/

namespace Token

theorem of_classifyBy {m : Meaning} (h : classifyBy ks cs = some (k, m)) :
    k ∈ ks ∧ k.meaning? cs = some m := by
  obtain ⟨k', hk, h⟩ := List.exists_of_findSome?_eq_some h
  obtain ⟨m', hm, he⟩ := Option.map_eq_some_iff.1 h
  obtain ⟨rfl, rfl⟩ := Prod.mk.inj he
  exact ⟨hk, hm⟩

theorem classifyBy_eq_none_iff : classifyBy ks cs = none ↔ ∀ k ∈ ks, k.meaning? cs = none := by
  simp [classifyBy]

theorem classifyBy_cons {m : Meaning} (hm : k.meaning? cs = some m) :
    classifyBy (k :: ks) cs = some (k, m) := by
  simp [classifyBy, hm]

/-- A token of one class has the same meaning in whatever order that class is tried. -/
theorem classifyBy_perm {ks' : List TokenClass} (hperm : ks.Perm ks')
    (hone : ∀ k k' : TokenClass, cs ∈ k.language → cs ∈ k'.language → k = k') :
    classifyBy ks cs = classifyBy ks' cs := by
  have hlang {k : TokenClass} {m : Meaning} (hm : k.meaning? cs = some m) : cs ∈ k.language :=
    (mem_language_iff k cs).2 (hm ▸ rfl)
  cases h' : classifyBy ks' cs with
  | none =>
    rw [classifyBy_eq_none_iff] at h' ⊢
    exact fun k hk => h' k (hperm.mem_iff.1 hk)
  | some p =>
    obtain ⟨k, m⟩ := p
    obtain ⟨hk, hm⟩ := of_classifyBy h'
    cases h : classifyBy ks cs with
    | none =>
      have hnone := classifyBy_eq_none_iff.1 h k (hperm.mem_iff.2 hk)
      rw [hm] at hnone
      cases hnone
    | some q =>
      obtain ⟨k', m'⟩ := q
      obtain ⟨-, hm'⟩ := of_classifyBy h
      obtain rfl := hone k k' (hlang hm) (hlang hm')
      rw [hm] at hm'
      rw [Option.some.inj hm']

/-- The order matters for the ambiguous tokens and for no others. -/
theorem exists_classifyBy_ne_iff : (∃ ks, ks.Perm order ∧ classifyBy ks cs ≠ classify cs) ↔
    ∃ ks, Ambiguous cs ks := by
  constructor
  · rintro ⟨ks, hperm, hne⟩
    by_contra hnot
    refine hne ((classifyBy_perm hperm fun k k' hk hk' => ?_).trans (by rw [classifyBy_order]))
    by_contra hkk
    exact hnot (ambiguous_of_ne hk hk' hkk)
  · rintro ⟨ks, h⟩
    obtain ⟨k, k', hne, hk, hk'⟩ := h.exists_ne
    obtain ⟨m, hm⟩ := Option.isSome_iff_exists.1 ((mem_language_iff k cs).1 hk)
    obtain ⟨m', hm'⟩ := Option.isSome_iff_exists.1 ((mem_language_iff k' cs).1 hk')
    by_contra hall
    push Not at hall
    have hfront (k : TokenClass) : (k :: order.erase k).Perm order :=
      (List.perm_cons_erase (mem_order k)).symm
    have hsame := (classifyBy_cons hm).symm.trans
      ((hall _ (hfront k)).trans ((hall _ (hfront k')).symm.trans (classifyBy_cons hm')))
    exact hne (congrArg Prod.fst (Option.some.inj hsame))

end Token

/-! ### Values -/

namespace Services

variable {W : Type} {sv : Services W} {locate : Problem → Fault} {w : W}

/-- The value of a token, where its class is the first one of those given. -/
def interpretBy (sv : Services W) (ks : List TokenClass) (locate : Problem → Fault)
    (token : List Char) (w : W) : Except Fault Form × W :=
  let text := String.ofList token
  match classifyBy ks token with
  | none => (.error (locate (.token text)), w)
  | some (k, m) =>
    let w := sv.note ⟨Level.trace, logger, s!"Token '{text}' matched {k.pattern}"⟩ w
    sv.value locate text m w

theorem interpretBy_order (sv : Services W) : sv.interpretBy order = sv.interpret := rfl

theorem interpretBy_congr {ks' : List TokenClass} (h : classifyBy ks cs = classifyBy ks' cs) :
    sv.interpretBy ks locate cs w = sv.interpretBy ks' locate cs w := by
  rw [interpretBy, interpretBy, h]

theorem interpret_null (sv : Services W) (locate : Problem → Fault) (w : W) :
    (sv.interpret locate ['n', 'u', 'l', 'l'] w).1 = .ok .nil := by
  obtain ⟨n, h⟩ := interpret_eq classify_null sv locate w
  rw [h]
  rfl

/-- Digits alone are converted, whatever their number. -/
theorem interpret_digits (sv : Services W) (locate : Problem → Fault) (w : W) (hd : ds ∈ numeral) :
    (sv.interpret locate ds w).1 =
      (convert ds).map fun n => .integer n := by
  obtain ⟨hne, hdigits⟩ := mem_numeral.1 hd
  obtain ⟨n, h⟩ := interpret_eq (classify_integer hne hdigits) sv locate w
  rw [h]
  rfl

theorem interpret_signed (h : Ambiguous cs (.symbol :: ks)) (sv : Services W)
    (locate : Problem → Fault) (w : W) : ∃ n, sv.interpret locate cs w =
      (.ok (sv.symbol (.ofList cs) (sv.note n w)).1, (sv.symbol (.ofList cs) (sv.note n w)).2) := by
  have hnull : cs ≠ ['n', 'u', 'l', 'l'] := by
    intro he
    have hmem : TokenClass.null ∈ .symbol :: ks := (h.mem_language_iff .null).1 he
    cases h <;> exact absurd hmem (by decide)
  have hsymbol := (mem_language_iff .symbol cs).1 (h.mem List.mem_cons_self)
  obtain ⟨n, hi⟩ := interpret_eq (classify_symbol hnull hsymbol) sv locate w
  exact ⟨n, hi⟩

theorem interpret_signed_standard (h : Ambiguous cs (.symbol :: ks)) (env : Host.Environment)
    (locate : Problem → Fault) (s : Store) :
    ((standard env).interpret locate cs s).1 = .ok (.symbol (s.symbol ⟨.ofList cs, none⟩).1) := by
  have hnote (n : Note) (q : QName) :
      (Store.symbol q { s with journal := n :: s.journal }).1 = (s.symbol q).1 := by
    unfold Store.symbol
    dsimp only
    split <;> rfl
  obtain ⟨n, hi⟩ := interpret_signed h (standard env) locate s
  rw [hi]
  exact congrArg (Except.ok ∘ Form.symbol) (hnote n _)

end Services

/-- The classes are regular languages, and the tokens of more than one class are the ambiguous ones,
whose classes and values are known. Every other token is read alike in whatever order the classes
are tried. -/
theorem Token.overlaps (cs : List Char) :
    (∀ k : TokenClass, cs ∈ k.language ↔ (k.meaning? cs).isSome = true) ∧
    (∀ ks, Ambiguous cs ks → ∀ k : TokenClass, cs ∈ k.language ↔ k ∈ ks) ∧
    ((¬ ∃ ks, Ambiguous cs ks) →
      ∀ k k' : TokenClass, cs ∈ k.language → cs ∈ k'.language → k = k') ∧
    ((∃ ks, ks.Perm order ∧ classifyBy ks cs ≠ classify cs) ↔ ∃ ks, Ambiguous cs ks) ∧
    ∀ {W : Type} (sv : Services W) (locate : Problem → Fault) (w : W),
      (Ambiguous cs [.null, .symbol] → (sv.interpret locate cs w).1 = .ok .nil) ∧
      (Ambiguous cs [.integer, .float] → (sv.interpret locate cs w).1 =
        if cs.length ≤ Number.maxDigits then .ok (.integer (Number.ofDigits cs))
        else .error (.tooManyDigits cs.length)) ∧
      (∀ ks, Ambiguous cs (.symbol :: ks) →
        (∃ n, sv.interpret locate cs w = (.ok (sv.symbol (.ofList cs) (sv.note n w)).1,
          (sv.symbol (.ofList cs) (sv.note n w)).2)) ∧
        ∀ env s, ((Services.standard env).interpret locate cs s).1 =
          .ok (.symbol (Store.symbol ⟨.ofList cs, none⟩ s).1)) ∧
      ((¬ ∃ ks, Ambiguous cs ks) → ∀ ks, ks.Perm order →
        sv.interpretBy ks locate cs w = sv.interpret locate cs w) := by
  have hone (h : ¬ ∃ ks, Ambiguous cs ks) (k k' : TokenClass) (hk : cs ∈ k.language)
      (hk' : cs ∈ k'.language) : k = k' := by
    by_contra hne
    exact h (ambiguous_of_ne hk hk' hne)
  refine ⟨fun k => mem_language_iff k cs, fun ks h => h.mem_language_iff, hone,
    exists_classifyBy_ne_iff, fun sv locate w => ⟨?_, ?_, ?_, ?_⟩⟩
  · intro h
    obtain rfl : cs = ['n', 'u', 'l', 'l'] := by
      cases h
      rfl
    exact sv.interpret_null locate w
  · intro h
    have hd : cs ∈ numeral := by
      cases h
      assumption
    rw [sv.interpret_digits locate w hd, Services.convert]
    split_ifs with hlong hshort hshort
    · omega
    · rfl
    · rfl
    · omega
  · exact fun ks h => ⟨Services.interpret_signed h sv locate w,
      fun env s => Services.interpret_signed_standard h env locate s⟩
  · intro h ks hperm
    rw [← sv.interpretBy_order]
    exact Services.interpretBy_congr (classifyBy_perm hperm (hone h))

/-- A signed ratio is a symbol, and a static member is read alike in the reverse order. -/
theorem Token.overlaps_ratio_member :
    let sv := Services.standard .standard
    (∃ x, (sv.interpret Problem.unplaced "-1/2".toList .empty).1 = .ok (.symbol x)) ∧
      sv.interpretBy order.reverse Problem.unplaced "int.real".toList .empty =
        sv.interpret Problem.unplaced "int.real".toList .empty := by
  intro sv
  have hratio : Ambiguous "-1/2".toList [.symbol, .ratio] := by
    have hone : ['1'] ∈ numeral := mem_numeral_of_all (List.cons_ne_nil _ _) rfl
    have htwo : ['2'] ∈ numeral := mem_numeral_of_all (List.cons_ne_nil _ _) rfl
    have hstroke : ['/'] ∈ literal '/' := mem_literal.2 rfl
    exact .signedRatio (mem_sign.2 (.inr (.inl rfl)))
      (Language.append_mem_mul (Language.append_mem_mul hone hstroke) htwo)
  have hmember : ¬ ∃ ks, Ambiguous "int.real".toList ks := by
    rintro ⟨ks, h⟩
    obtain ⟨k, k', hne, hk, hk'⟩ := h.exists_ne
    have hone : ∀ k ∈ order, (meaning? k "int.real".toList).isSome = true → k = .staticMember := by
      decide
    rw [mem_language_iff] at hk hk'
    exact hne ((hone k (mem_order k) hk).trans (hone k' (mem_order k') hk').symm)
  obtain ⟨-, -, hsymbol, -⟩ := (overlaps "-1/2".toList).2.2.2.2 sv Problem.unplaced .empty
  obtain ⟨-, -, -, hsame⟩ := (overlaps "int.real".toList).2.2.2.2 sv Problem.unplaced .empty
  exact ⟨⟨_, (hsymbol _ hratio).2 .standard .empty⟩, hsame hmember _ (List.reverse_perm order)⟩

/-- Digits that are too many to be converted are of the same two classes, but no number. -/
theorem Token.interpret_ones :
    let ones := List.replicate (Number.maxDigits + 1) '1'
    Ambiguous ones [.integer, .float] ∧
      ∀ n, ((Services.standard .standard).interpret Problem.unplaced ones .empty).1 ≠
        .ok (.integer n) := by
  intro ones
  have hd : ones ∈ numeral := by
    refine mem_numeral.2 ⟨List.cons_ne_nil _ _, fun d hd => ?_⟩
    rw [List.eq_of_mem_replicate hd]
    rfl
  have hlong : Number.maxDigits < ones.length := by
    rw [List.length_replicate]
    exact Nat.lt_succ_self _
  refine ⟨.digits hd, fun n h => ?_⟩
  rw [Services.interpret_digits _ _ _ hd, Services.convert, if_pos hlong] at h
  cases h

end LispForms
