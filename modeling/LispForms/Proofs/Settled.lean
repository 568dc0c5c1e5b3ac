import LispForms.Proofs.Number.Layout
import LispForms.Proofs.Readable

/-! Forms whose printed text keeps its print: it is read as one form, perhaps of another kind, that
is printed as it is written. Every value that a token can have is such a form. A negative number
that is printed without a point comes back as the symbol of that name, like an infinity. -/

namespace LispForms

open Token

/-- In every store the printed text is read as a form that prints the same. -/
def Form.Settled (env : Host.Environment) (v : Form) : Prop :=
  ∀ s : Store, s.Running → ∃ v' s', Spells (.standard env) (v.print .standard).toList s v' s' ∧
    v'.print .standard = v.print .standard ∧ s'.Running

variable {env : Host.Environment} {v : Form} {cs : List Char} {k : TokenClass} {m : Meaning}

/-- In every store the characters are read as one form, and it has the property. -/
def ReadAs (env : Host.Environment) (cs : List Char) (Q : Form → Prop) : Prop :=
  ∀ s : Store, s.Running → ∃ v s', Spells (.standard env) cs s v s' ∧ Q v ∧ s'.Running

theorem ReadAs.imp {Q R : Form → Prop} (h : ReadAs env cs Q) (himp : ∀ v, Q v → R v) :
    ReadAs env cs R := by
  intro s hs
  obtain ⟨v, s', hspells, hQ, hs'⟩ := h s hs
  exact ⟨v, s', hspells, himp v hQ, hs'⟩

/-- A token is read as its value, which has the property in every store. -/
theorem ReadAs.of_token {Q : Form → Prop} (hcs : IsTokenText cs) (hm : classify cs = some (k, m))
    (hv : ∀ s : Store, s.Running → ∃ v,
      ((Services.standard env).value Problem.unplaced (.ofList cs) m s).1 = .ok v ∧ Q v) :
    ReadAs env cs Q :=
  Spells.exists_of_value (Store.keeps_running env) hcs hm hv

/-- A list is read as the list of what its items are read as. -/
theorem ReadAs.list {Q : Form → Form → Prop} {items : List Form}
    (h : ∀ x ∈ items, ReadAs env (x.print .standard).toList (Q x)) (span : Option Span) :
    ReadAs env ((Form.list items span).print .standard).toList fun v =>
      ∃ vs, v = .list vs none ∧ List.Forall₂ Q items vs := by
  intro s hs
  obtain ⟨vs, s', hall, hQ, hs'⟩ := @SpellsAll.of_forall _ (.standard env) Store.Running Q
    (fun x => (x.print .standard).toList) items h s hs
  refine ⟨.list vs none, s', ?_, ⟨vs, rfl, hQ⟩, hs'⟩
  rw [Form.toList_print_list]
  exact hall.list

theorem settled_of_readAs (hprint : (v.print .standard).toList = cs)
    (h : ReadAs env cs fun v' => (v'.print .standard).toList = cs) : v.Settled env := by
  subst hprint
  exact h.imp fun _ => String.toList_inj.1

/-- What is read back from every store is settled. -/
theorem settled_of_readable (h : ∀ s, v.Readable env s) : v.Settled env := by
  intro s hs
  obtain ⟨s', hspells, -, hs'⟩ := (h s).spells s ⟨.refl s, hs⟩
  exact ⟨v.bare, s', hspells, Form.print_bare _ v, hs'⟩

/-! ### Names -/

/-- The form is the symbol of a name. -/
def Form.IsName (name : String) (v : Form) : Prop :=
  ∃ x : Symbol, v = symbol x ∧ x.toQName = ⟨name, none⟩

theorem Form.IsName.toList_print {name : String} (h : v.IsName name) :
    (v.print .standard).toList = name.toList := by
  obtain ⟨x, rfl, hx⟩ := h
  exact toList_print_symbol .standard hx

theorem readAs_symbol (hcs : IsTokenText cs) (hnull : cs ≠ ['n', 'u', 'l', 'l'])
    (hname : (TokenClass.symbol? cs).isSome = true) : ReadAs env cs (Form.IsName (.ofList cs)) := by
  refine .of_token hcs (classify_symbol hnull hname) fun s hs => ?_
  obtain ⟨ns, hs⟩ := hs
  exact ⟨_, rfl, _, rfl, hs.sound.toQName_symbol ⟨.ofList cs, none⟩⟩

/-- What has a dash before it is a name, if no colon and no point follow. -/
theorem readAs_dash (hcs : ∀ c ∈ cs, isOrdinary c = true ∧ c ≠ ':' ∧ c ≠ '.') :
    ReadAs env ('-' :: cs) (Form.IsName (.ofList ('-' :: cs))) := by
  have hname : isName ('-' :: cs) = true := by
    simp only [isName, Bool.and_eq_true, List.all_eq_true, bne_iff_ne]
    refine ⟨rfl, fun c hc => ?_⟩
    rcases List.mem_cons.1 hc with rfl | hc
    · decide
    · exact (hcs c hc).2
  refine readAs_symbol ⟨List.cons_ne_nil _ _, fun c hc => ?_⟩ (fun he => ?_) ?_
  · rcases List.mem_cons.1 hc with rfl | hc
    · decide
    · exact (hcs c hc).1
  · cases he
  · simp [TokenClass.symbol?, hname]

/-- A form that is printed as a name comes back as the symbol of that name. -/
theorem settled_of_name (hprint : (v.print .standard).toList = cs)
    (h : ReadAs env cs (Form.IsName (.ofList cs))) : v.Settled env :=
  settled_of_readAs hprint (h.imp fun _ hv => hv.toList_print.trans String.toList_ofList)

theorem settled_of_var {v : Var} {ns name : List Char} (hns : isName ns = true)
    (hname : isName name = true) (hcs : IsTokenText (ns ++ ':' :: name))
    (hhome : v.home.symbol.toQName = ⟨.ofList ns, none⟩)
    (hsymbol : v.symbol.toQName = ⟨.ofList name, none⟩) : (Form.var v).Settled env := by
  have hprint {v : Var} (hhome : v.home.symbol.toQName = ⟨.ofList ns, none⟩)
      (hsymbol : v.symbol.toQName = ⟨.ofList name, none⟩) :
      ((Form.var v).print .standard).toList = ns ++ ':' :: name := by
    rw [toList_print_var _ hhome hsymbol, String.toList_ofList, String.toList_ofList]
  refine settled_of_readAs (hprint hhome hsymbol)
    (.of_token hcs (classify_var hns hname) fun s hs => ?_)
  obtain ⟨created, hs⟩ := hs
  obtain ⟨hhome', hsymbol'⟩ := hs.sound.internVar_names (.ofList ns) (.ofList name)
  exact ⟨_, rfl, hprint hhome' hsymbol'⟩

/-! ### Numbers -/

theorem ne_of_mem_toDigits {n : ℕ} {c : Char} (h : c ∈ Nat.toDigits 10 n) :
    isOrdinary c = true ∧ c ≠ ':' ∧ c ≠ '.' := by
  have hc := isDigit_of_mem_toDigits h
  refine ⟨isOrdinary_of_isDigit hc, ?_, ?_⟩
  all_goals
    rintro rfl
    exact absurd hc (by decide)

theorem toList_repr_negative {z : ℤ} (h : z < 0) :
    z.repr.toList = '-' :: Nat.toDigits 10 z.natAbs := by
  cases z with
  | ofNat n => exact absurd h (by simp)
  | negSucc n =>
    have hrepr : (Int.negSucc n).repr = "-" ++ (n + 1).repr := rfl
    rw [hrepr, String.toList_append, Nat.toList_repr]
    rfl

theorem settled_integer {z : ℤ} (h : z < 10 ^ Number.maxDigits) : (Form.integer z).Settled env := by
  rcases lt_or_ge z 0 with hz | hz
  · exact settled_of_name (toList_repr_negative hz) (readAs_dash fun _ => ne_of_mem_toDigits)
  · obtain ⟨n, rfl⟩ := Int.eq_ofNat_of_zero_le hz
    refine settled_of_readable fun _ => .integer ?_
    exact_mod_cast h

/-- A ratio in lowest terms. -/
theorem settled_ratio {num : ℤ} {den : ℕ} (hne : num ≠ 0) (hden : 1 < den)
    (hlowest : num.natAbs.Coprime den) (hnum : num < 10 ^ Number.maxDigits)
    (hdigits : den < 10 ^ Number.maxDigits) : (Form.ratio num den).Settled env := by
  rcases lt_or_ge num 0 with hz | hz
  · have hslash : "/".toList = ['/'] := rfl
    refine @settled_of_name _ _ ('-' :: (Nat.toDigits 10 num.natAbs ++ '/' :: Nat.toDigits 10 den))
      ?_ (readAs_dash fun c hc => ?_)
    · rw [Form.print, String.toList_append, String.toList_append, toList_repr_negative hz,
        Nat.toList_repr, hslash]
      simp
    · rcases List.mem_append.1 hc with hc | hc
      · exact ne_of_mem_toDigits hc
      · rcases List.mem_cons.1 hc with rfl | hc
        · decide
        · exact ne_of_mem_toDigits hc
  · obtain ⟨n, rfl⟩ := Int.eq_ofNat_of_zero_le hz
    have hpos : 0 < n := by
      have : n ≠ 0 := by exact_mod_cast hne
      omega
    exact settled_of_readable fun _ => .ratio hpos hden hlowest (by exact_mod_cast hnum) hdigits

/-- The quotient of two numbers that are not too long. -/
theorem settled_quotient {z : ℤ} {d : ℕ} (hd : 0 < d) (hz : z.natAbs < 10 ^ Number.maxDigits)
    (hdigits : d < 10 ^ Number.maxDigits) : (Form.quotient z d).Settled env := by
  let g := Int.gcd z d
  have hg : 0 < g := Int.gcd_pos_of_ne_zero_right z (by exact_mod_cast hd.ne')
  have hsign : (d : ℤ).sign = 1 := Int.sign_eq_one_of_pos (by exact_mod_cast hd)
  have hterms : Number.lowestTerms z d = (z / g, d / g) := by
    simp [Number.lowestTerms, hsign, g]
  have hdvd : (g : ℤ) ∣ z := Int.gcd_dvd_left z d
  have habs : (z / g).natAbs = z.natAbs / g := Int.natAbs_ediv_of_dvd hdvd
  have hle : (z / g).natAbs < 10 ^ Number.maxDigits := by
    rw [habs]
    exact lt_of_le_of_lt (Nat.div_le_self _ _) hz
  have hlt : z / g < (10 : ℤ) ^ Number.maxDigits := by
    have hcast : ((z / g).natAbs : ℤ) < (10 : ℤ) ^ Number.maxDigits := by exact_mod_cast hle
    exact lt_of_le_of_lt Int.le_natAbs hcast
  unfold Form.quotient
  rw [hterms]
  by_cases hone : d / g = 1
  · simp only [hone, if_true]
    exact settled_integer hlt
  · simp only [hone, if_false]
    have hgd : g ∣ d := by exact_mod_cast Int.gcd_dvd_right z d
    have hdpos : 0 < d / g := Nat.div_pos (Nat.le_of_dvd hd hgd) hg
    refine settled_ratio ?_ (by omega) ?_ hlt (lt_of_le_of_lt (Nat.div_le_self _ _) hdigits)
    · rintro hzero
      have hz0 : z = 0 := by
        rw [← Int.ediv_mul_cancel hdvd, hzero, zero_mul]
      refine hone ?_
      have hgd' : g = d := by simp [g, hz0]
      rw [hgd', Nat.div_self hd]
    · rw [habs]
      exact Nat.coprime_div_gcd_div_gcd hg

/-! ### Floating-point numbers -/

open Number Number.Binary64

/-- Whether a number is read back: it is finite, and has a point if it has a minus sign. -/
def Form.readsBack (x : Binary64) : Bool :=
  x.isFinite && (!x.negative || (floats.render x).toList.contains '.')

/-- What the print of a number is read as: the number, or else the symbol of that name. -/
def Form.FloatAgain (x : Binary64) (v : Form) : Prop :=
  if readsBack x then v = float x else v.IsName (floats.render x)

theorem Form.FloatAgain.print {x : Binary64} (h : v.FloatAgain x) :
    v.print .standard = floats.render x := by
  unfold FloatAgain at h
  split at h
  · rw [h]
    rfl
  · exact String.toList_inj.1 h.toList_print

section Numeral

variable {negative : Bool} {b : ℕ} {n : Numeral}

theorem isTokenText_numeral (hn : n.Valid) (negative : Bool) :
    IsTokenText ((if negative then ['-'] else []) ++ n.text) := by
  refine ⟨?_, fun c hc => ?_⟩
  · simp [Numeral.text, hn.whole_ne]
  · rcases List.mem_append.1 hc with hc | hc
    · cases negative
      · cases hc
      · rw [List.mem_singleton.1 hc]
        decide
    · exact (Numeral.isOrdinary_of_mem_text hn hc).1

theorem readsBack_iff (hn : n.Valid) (hb : b < infinity)
    (hprint : (Form.floats.render ⟨negative, b⟩).toList =
      (if negative then ['-'] else []) ++ n.text) :
    Form.readsBack ⟨negative, b⟩ = true ↔ n.fraction ≠ [] ∨ negative = false := by
  have hfinite : isFinite ⟨negative, b⟩ = true := decide_eq_true hb
  cases negative with
  | false => simp [Form.readsBack, hfinite]
  | true => simp [Form.readsBack, hfinite, hprint, Numeral.point_mem_text_iff hn]

/-- A finite number that is printed as a numeral of its own magnitude comes back as itself, or as a
name if it has a minus sign and no point. -/
theorem readAs_numeral (hn : n.Valid) (hpart : n.fraction ≠ [] ∨ n.exponent ≠ none)
    (hb : b < infinity) (hnearest : nearest n.decimal = b)
    (hprint : (Form.floats.render ⟨negative, b⟩).toList =
      (if negative then ['-'] else []) ++ n.text) :
    ReadAs env (Form.floats.render ⟨negative, b⟩).toList (Form.FloatAgain ⟨negative, b⟩) := by
  have hback := readsBack_iff hn hb hprint
  by_cases hname : n.fraction ≠ [] ∨ negative = false
  · rw [hprint]
    refine .of_token (isTokenText_numeral hn negative) (Numeral.classify_text hn hpart hname)
      fun s _ => ⟨_, rfl, ?_⟩
    simp only [Form.FloatAgain, hback.2 hname, if_true, hnearest]
  · -- the sign is no longer one of a number, but the first character of a name
    have hname' : ReadAs env (Form.floats.render ⟨negative, b⟩).toList
        (Form.IsName (Form.floats.render ⟨negative, b⟩)) := by
      obtain ⟨hf, hneg⟩ := not_or.1 hname
      obtain rfl : negative = true := by simpa using hneg
      rw [← @String.ofList_toList (Form.floats.render _), hprint, String.toList_ofList]
      refine readAs_dash fun c hc => ?_
      obtain ⟨hordinary, hcolon⟩ := Numeral.isOrdinary_of_mem_text hn hc
      refine ⟨hordinary, hcolon, ?_⟩
      rintro rfl
      exact hf ((Numeral.point_mem_text_iff hn).1 hc)
    refine hname'.imp fun v hv => ?_
    rwa [Form.FloatAgain, if_neg fun h => hname (hback.1 h)]

end Numeral

/-- A finite number is printed as a numeral of its own magnitude. -/
theorem exists_numeral_render (negative : Bool) {b : ℕ} (hb : b < infinity) : ∃ n : Numeral,
    n.Valid ∧ (n.fraction ≠ [] ∨ n.exponent ≠ none) ∧ nearest n.decimal = b ∧
      (Form.floats.render ⟨negative, b⟩).toList = (if negative then ['-'] else []) ++ n.text := by
  rcases Nat.eq_zero_or_pos b with rfl | hpos
  · refine ⟨⟨['0'], ['0'], none⟩, ⟨by simp, by simp, by simp, by simp⟩, .inl (by decide),
      by decide, ?_⟩
    cases negative <;> rfl
  · have hdigits : (shortest b).digits ≠ 0 := by
      intro hzero
      have hnearest := nearest_shortest hb hpos
      rw [nearest, if_pos hzero] at hnearest
      omega
    obtain ⟨n, hn, htext, hpart, hvalue⟩ := exists_numeral_decimal Form.floats hdigits
    refine ⟨n, hn, hpart, ?_, ?_⟩
    · rw [nearest_congr hvalue, nearest_shortest hb hpos]
    · have hfinite : Binary64.isFinite ⟨negative, b⟩ = true := decide_eq_true hb
      rw [Layout.render, if_neg hpos.ne', if_pos hfinite, String.toList_ofList, htext]

theorem readAs_float (negative : Bool) {b : ℕ} (hb : b ≤ infinity) :
    ReadAs env (Form.floats.render ⟨negative, b⟩).toList (Form.FloatAgain ⟨negative, b⟩) := by
  rcases Nat.lt_or_eq_of_le hb with hlt | rfl
  · obtain ⟨n, hn, hpart, hnearest, hprint⟩ := exists_numeral_render negative hlt
    exact readAs_numeral hn hpart hlt hnearest hprint
  · cases negative
    · exact @readAs_symbol _ "Infinity".toList (by decide) (by decide) (by decide)
    · exact @readAs_symbol _ "-Infinity".toList (by decide) (by decide) (by decide)

theorem settled_float (negative : Bool) {b : ℕ} (hb : b ≤ infinity) :
    (Form.float ⟨negative, b⟩).Settled env :=
  (readAs_float negative hb).imp fun _ => Form.FloatAgain.print

/-! ### Values of tokens -/

theorem lt_of_convert {ds : List Char} {n : ℕ} (hd : ∀ d ∈ ds, d.isDigit = true)
    (h : Services.convert ds = .ok n) : n < 10 ^ Number.maxDigits := by
  obtain ⟨hlen, rfl⟩ := Services.convert_eq_ok_iff.1 h
  exact lt_of_lt_of_le (ofDigits_lt hd) (Nat.pow_le_pow_right (by decide) hlen)

theorem signed_lt (negative : Bool) {n : ℕ} (h : n < 10 ^ Number.maxDigits) :
    signed negative n < 10 ^ Number.maxDigits := by
  have hcast : (n : ℤ) < 10 ^ Number.maxDigits := by exact_mod_cast h
  cases negative
  · exact hcast
  · exact lt_of_le_of_lt (by simp only [signed, if_true]; omega) hcast

theorem exists_of_resolve {path : String} {f : Host.Ref → Form} {s : Store}
    (h : (Services.resolve (.standard env) Problem.unplaced path s).1.map f = .ok v) :
    ∃ o, (env.resolve path).result = .ok o ∧ v = f (.ofId o.id) := by
  cases hr : (env.resolve path).result with
  | ok o =>
    rw [value_host hr] at h
    exact ⟨o, rfl, (Except.ok.inj h).symm⟩
  | error f =>
    exfalso
    simp only [Services.resolve, Services.standard, Store.resolve, hr] at h
    cases f <;> cases h

/-- The value of a token is settled, whatever the store in which it has it. -/
theorem settled_value (hcs : IsTokenText cs) (hm : classify cs = some (k, m)) {s : Store}
    (hs : s.Running)
    (hv : ((Services.standard env).value Problem.unplaced (.ofList cs) m s).1 = .ok v) :
    v.Settled env := by
  have hmeaning := meaning?_of_classify hm
  obtain ⟨created, hs⟩ := hs
  cases k with
  | null =>
    obtain rfl := of_null? hmeaning
    cases hv
    exact settled_of_readable fun _ => .nil
  | symbol =>
    have hname : (TokenClass.symbol? cs).isSome = true := Option.isSome_of_mem hmeaning
    obtain rfl := of_symbol? hmeaning
    cases hv
    have hnull : cs ≠ ['n', 'u', 'l', 'l'] := by
      rintro rfl
      cases hm
    refine settled_of_name ?_ (readAs_symbol hcs hnull hname)
    exact (toList_print_symbol .standard (hs.sound.toQName_symbol ⟨.ofList cs, none⟩)).trans
      String.toList_ofList
  | var =>
    obtain ⟨ns, name, hns, hname, rfl, rfl⟩ := of_var? hmeaning
    cases hv
    obtain ⟨hhome, hsymbol⟩ := hs.sound.internVar_names (.ofList ns) (.ofList name)
    exact settled_of_var hns hname hcs hhome hsymbol
  | integer =>
    obtain ⟨negative, ds, hds, rfl⟩ := of_integer? hmeaning
    simp only [Services.value] at hv
    cases hn : Services.convert ds with
    | error f =>
      rw [hn] at hv
      cases hv
    | ok n =>
      rw [hn] at hv
      cases hv
      exact settled_integer (signed_lt negative (lt_of_convert hds hn))
  | float =>
    obtain ⟨negative, d, rfl⟩ := of_float? hmeaning
    cases hv
    exact settled_float negative (nearest_le d)
  | ratio =>
    obtain ⟨negative, num, den, hnum, hden, rfl⟩ := of_ratio? hmeaning
    obtain ⟨n, d, hn, hd, hzero, rfl⟩ := Services.ratio_eq_ok_iff.1 hv
    refine settled_quotient (Nat.pos_of_ne_zero hzero) ?_ (lt_of_convert hden hd)
    have habs : (signed negative n).natAbs = n := by
      cases negative <;> simp [signed]
    rw [habs]
    exact lt_of_convert hnum hn
  | accessor =>
    obtain ⟨member, hmember, rfl⟩ := of_accessor? hmeaning
    cases hv
    exact settled_of_readable fun _ => .accessor hmember
  | className =>
    obtain ⟨path, hpath, rfl⟩ := of_className? hmeaning
    obtain ⟨o, ho, rfl⟩ := exists_of_resolve hv
    exact settled_of_readable fun _ => .className hpath ho
  | instanceMember =>
    obtain ⟨path, member, hpath, hmember, rfl⟩ := of_instanceMember? hmeaning
    obtain ⟨o, ho, rfl⟩ := exists_of_resolve hv
    exact settled_of_readable fun _ => .instanceMember hpath hmember ho
  | staticMember =>
    obtain ⟨path, member, hpath, hmember, rfl⟩ := of_staticMember? hmeaning
    obtain ⟨o, ho, rfl⟩ := exists_of_resolve hv
    exact settled_of_readable fun _ => .staticMember hpath hmember ho

theorem settled_of_interpret (hcs : IsTokenText cs) {s : Store} (hs : s.Running)
    (hv : ((Services.standard env).interpret Problem.unplaced cs s).1 = .ok v) :
    v.Settled env := by
  cases hm : classify cs with
  | none => simp [Services.interpret, hm] at hv
  | some km =>
    obtain ⟨n, hi⟩ := Services.interpret_eq hm (.standard env) Problem.unplaced s
    rw [hi] at hv
    exact settled_value hcs hm ((Store.keeps_running env).note n hs) hv

end LispForms
