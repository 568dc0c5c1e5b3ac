import LispForms.Proofs.Classes
import LispForms.Proofs.Spelling
import LispForms.Proofs.Store.Reachable
import Mathlib.Algebra.Group.Nat.Defs

/-! Forms that their printed text is read back as. What has to be shown of each kind is that no
earlier class takes its text; whatever is looked up meanwhile is found as it was left. -/

namespace LispForms

open Token

/-- The forms that are read back, by what the store and the host know of them. -/
inductive Form.Readable (env : Host.Environment) (s : Store) : Form → Prop
  | nil : Readable env s .nil
  | integer {n : Nat} (hn : n < 10 ^ Number.maxDigits) : Readable env s (.integer n)
  | ratio {num den : Nat} (hpos : 0 < num) (hden : 1 < den) (hlowest : num.Coprime den)
    (hnum : num < 10 ^ Number.maxDigits) (hdigits : den < 10 ^ Number.maxDigits) :
    Readable env s (.ratio num den)
  | text (content : String) : Readable env s (.text content)
  | symbol {name : String} {x : Symbol} (hname : (TokenClass.symbol? name.toList).isSome = true)
    (hnull : name ≠ "null") (hchars : ∀ c ∈ name.toList, isOrdinary c = true)
    (hx : s.symbols.lookup ⟨name, none⟩ = some x) : Readable env s (.symbol x)
  /-- The namespace is registered, and the var is the one that it has under the name. -/
  | var {space name : String} {n : Namespace} {v : Var} (hspace : isName space.toList = true)
    (hname : isName name.toList = true)
    (hchars : ∀ c ∈ space.toList ++ name.toList, isOrdinary c = true)
    (hn : s.namespaces.lookup ⟨space, none⟩ = some n)
    (hv : s.vars.lookup (n.id, ⟨name, none⟩) = some v) : Readable env s (.var v)
  | accessor {member : String} (hm : isIdentifier member.toList = true) :
    Readable env s (.accessor member)
  | className {path : String} {o : Host.Object} (hp : isPath path.toList = true)
    (ho : (env.resolve path).result = .ok o) : Readable env s (.className (.ofId o.id) path)
  | instanceMember {path member : String} {o : Host.Object} (hp : isPath path.toList = true)
    (hm : isIdentifier member.toList = true) (ho : (env.resolve path).result = .ok o) :
    Readable env s (.instanceMember (.ofId o.id) member path)
  | staticMember {path member : String} {o : Host.Object} (hp : isPath path.toList = true)
    (hm : isIdentifier member.toList = true) (ho : (env.resolve path).result = .ok o) :
    Readable env s (.staticMember (.ofId o.id) member path)
  | list {items : List Form} {span : Option Span} (h : ∀ x ∈ items, Readable env s x) :
    Readable env s (.list items span)

/-! ### Printed numbers and names -/

section Numbers

variable {n : Nat}

theorem isDigit_of_mem_toDigits {c : Char} (h : c ∈ Nat.toDigits 10 n) : c.isDigit = true :=
  Nat.isDigit_of_mem_toDigits (by decide) (by decide) h

theorem isTokenText_toDigits (n : Nat) : IsTokenText (Nat.toDigits 10 n) :=
  ⟨Nat.toDigits_ne_nil, fun _ hc => isOrdinary_of_isDigit (isDigit_of_mem_toDigits hc)⟩

/-- A number that is not too long is converted from its digits. -/
theorem convert_toDigits (h : n < 10 ^ Number.maxDigits) :
    Services.convert (Nat.toDigits 10 n) = .ok n :=
  Services.convert_eq_ok_iff.2 ⟨(Nat.length_toDigits_le_iff (by decide) (by decide)).2 h,
    Number.ofDigits_toDigits n⟩

theorem toList_print_integer (style : Style) (n : Nat) :
    ((Form.integer n).print style).toList = Nat.toDigits 10 n := Nat.toList_repr

theorem toList_print_ratio (style : Style) (num den : Nat) :
    ((Form.ratio num den).print style).toList =
      Nat.toDigits 10 num ++ '/' :: Nat.toDigits 10 den := by
  have hslash : "/".toList = ['/'] := rfl
  have hnum : (num : Int).repr.toList = Nat.toDigits 10 num := Nat.toList_repr
  rw [Form.print, String.toList_append, String.toList_append, hslash, hnum, Nat.toList_repr,
    List.append_assoc]
  rfl

theorem quotient_of_coprime {num den : Nat} (h : num.Coprime den) (hd : 1 < den) :
    Form.quotient num den = .ratio num den := by
  have hg : Int.gcd num den = 1 := h
  have hsign : (den : Int).sign = 1 := Int.sign_eq_one_of_pos (by omega)
  have hne : den ≠ 1 := by omega
  simp [Form.quotient, Number.lowestTerms, hg, hsign, hne]

end Numbers

theorem toList_print_text (content : String) :
    ((Form.text content).print .standard).toList =
      '"' :: Form.escaped content.toList ++ ['"'] := String.toList_ofList

section Names

variable (style : Style) (type : Host.Ref) {path member : String}

theorem named_eq_self (h : isPath path.toList = true) : Form.named type path = path := by
  have hne : path ≠ "" := by
    rintro rfl
    exact absurd h (by decide)
  rw [Form.named, if_neg hne]

theorem toList_print_symbol {x : Symbol} {name : String} (h : x.toQName = ⟨name, none⟩) :
    ((Form.symbol x).print style).toList = name.toList := by
  rw [Form.print, QName.print, h]

theorem toList_print_accessor (member : String) :
    ((Form.accessor member).print style).toList = '.' :: member.toList := by
  rw [Form.print, String.toList_append]
  rfl

theorem toList_print_className (h : isPath path.toList = true) :
    ((Form.className type path).print style).toList = path.toList ++ ['.'] := by
  rw [Form.print, String.toList_append, named_eq_self type h]
  rfl

theorem toList_print_staticMember (h : isPath path.toList = true) (member : String) :
    ((Form.staticMember type member path).print style).toList =
      path.toList ++ '.' :: member.toList := by
  rw [Form.print, String.toList_append, String.toList_append, named_eq_self type h,
    List.append_assoc]
  rfl

theorem toList_print_instanceMember (h : isPath path.toList = true) (member : String) :
    ((Form.instanceMember type member path).print style).toList =
      '.' :: path.toList ++ '.' :: member.toList := by
  have hdot : ".".toList = ['.'] := rfl
  rw [Form.print, String.toList_append, String.toList_append, String.toList_append,
    named_eq_self type h, hdot, List.append_assoc]
  rfl

theorem toList_print_var {v : Var} {space name : String}
    (hhome : v.home.symbol.toQName = ⟨space, none⟩) (hname : v.symbol.toQName = ⟨name, none⟩) :
    ((Form.var v).print style).toList = space.toList ++ ':' :: name.toList := by
  have hcolon : ":".toList = [':'] := rfl
  rw [Form.print, Var.print, Namespace.name, hhome, hname, String.toList_append,
    String.toList_append, hcolon, List.append_assoc]
  rfl

end Names

/-! ### Tokens in a store that goes on -/

/-- The stores that reading may leave behind a first one. -/
def Store.Later (s t : Store) : Prop := s.Extends t ∧ t.Running

theorem keeps_later (env : Host.Environment) (s : Store) :
    (Services.standard env).Keeps s.Later :=
  (Store.keeps_extends env s).and (Store.keeps_running env)

variable {env : Host.Environment} {s : Store}

/-- A token whose meaning has one value in all later stores spells this value. -/
theorem spells_token {cs : List Char} {k : TokenClass} {m : Meaning} {v : Form}
    (hcs : IsTokenText cs) (hm : classify cs = some (k, m))
    (hv : ∀ t, s.Later t → ((Services.standard env).value Problem.unplaced (.ofList cs) m t).1 =
      .ok v) {t : Store} (ht : s.Later t) :
    ∃ t', Spells (.standard env) cs t v t' ∧ s.Later t' := by
  obtain ⟨v', t', hspells, rfl, ht'⟩ := Spells.exists_of_value (Q := (· = v)) (keeps_later env s)
    hcs hm (fun u hu => ⟨v, hv u hu, rfl⟩) t ht
  exact ⟨t', hspells, ht'⟩

theorem value_host {o : Host.Object} {path : String} (ho : (env.resolve path).result = .ok o)
    (t : Store) : (Services.resolve (.standard env) Problem.unplaced path t).1 =
      .ok (.ofId o.id) := by
  simp only [Services.resolve, Services.standard, Store.resolve, ho]
  rfl

/-- The printed text of a readable form spells the form. -/
theorem Form.Readable.spells {v : Form} (hv : v.Readable env s) : ∀ t, s.Later t →
    ∃ t', Spells (.standard env) (v.print .standard).toList t v.bare t' ∧ s.Later t' := by
  induction hv with
  | nil => exact fun t => spells_token (by decide) classify_null fun _ _ => rfl
  | @integer n hn =>
    intro t
    rw [toList_print_integer]
    refine spells_token (isTokenText_toDigits n)
      (classify_integer Nat.toDigits_ne_nil fun _ => isDigit_of_mem_toDigits) fun _ _ => ?_
    simp only [Services.value, convert_toDigits hn]
    rfl
  | @ratio num den hpos hden hlowest hnum hdigits =>
    intro t
    rw [toList_print_ratio]
    have hslash : ∀ c ∈ '/' :: Nat.toDigits 10 den, isOrdinary c = true := by
      intro c hc
      rcases List.mem_cons.1 hc with rfl | hc
      · decide
      · exact (isTokenText_toDigits den).2 c hc
    refine spells_token (isTokenText_append (isTokenText_toDigits num) hslash)
      (classify_ratio Nat.toDigits_ne_nil (fun _ => isDigit_of_mem_toDigits) Nat.toDigits_ne_nil
        fun _ => isDigit_of_mem_toDigits) fun _ _ => ?_
    exact Services.ratio_eq_ok_iff.2 ⟨num, den, convert_toDigits hnum, convert_toDigits hdigits,
      by omega, quotient_of_coprime hlowest hden⟩
  | text content =>
    intro t ht
    refine ⟨t, ?_, ht⟩
    rw [toList_print_text]
    exact .text _ content t
  | @symbol name x hname hnull hchars hx =>
    intro t ht
    obtain ⟨hext, ns, hreach⟩ := ht
    have hq : x.toQName = ⟨name, none⟩ :=
      hreach.sound.symbols (Store.mem_of_lookup (hext.symbols hx))
    have hne : name.toList ≠ ['n', 'u', 'l', 'l'] := fun he => hnull (String.toList_inj.1 he)
    have hcs : IsTokenText name.toList := by
      refine ⟨fun he => ?_, hchars⟩
      rw [he] at hname
      exact absurd hname (by decide)
    rw [toList_print_symbol _ hq]
    refine spells_token hcs (classify_symbol hne hname) (fun u hu => ?_) ⟨hext, ns, hreach⟩
    simp only [Services.value, Services.standard, Store.symbol, String.ofList_toList,
      hu.1.symbols hx]
    rfl
  | @var space name n v hspace hname hchars hn hv =>
    intro t ht
    obtain ⟨hext, ns, hreach⟩ := ht
    obtain ⟨hmemhome, hid, hq⟩ := hreach.sound.vars (Store.mem_of_lookup (hext.vars hv))
    obtain ⟨hqn, hmem⟩ := hreach.sound.namespaces (Store.mem_of_lookup (hext.namespaces hn))
    have hhome : v.home.symbol.toQName = ⟨space, none⟩ := by
      rw [hreach.sound.distinct hmemhome hmem hid, hqn]
    have hcs : IsTokenText (space.toList ++ ':' :: name.toList) := by
      refine ⟨by simp, fun c hc => ?_⟩
      rw [List.mem_append, List.mem_cons] at hc
      rcases hc with hc | rfl | hc
      · exact hchars c (List.mem_append_left _ hc)
      · decide
      · exact hchars c (List.mem_append_right _ hc)
    rw [toList_print_var _ hhome hq]
    refine spells_token hcs (classify_var hspace hname) (fun u hu => ?_) ⟨hext, ns, hreach⟩
    obtain ⟨hext', ns', hreach'⟩ := hu
    simp only [Services.value, Services.standard, String.ofList_toList,
      hreach'.sound.internVar_eq (hext'.namespaces hn) (hext'.vars hv)]
    rfl
  | @accessor member hm =>
    intro t
    rw [toList_print_accessor]
    refine spells_token (isTokenText_member hm) (classify_accessor hm) fun _ _ => ?_
    rw [String.ofList_toList]
    rfl
  | @className path o hp ho =>
    intro t
    rw [toList_print_className _ _ hp]
    have hcs : IsTokenText (path.toList ++ ['.']) :=
      isTokenText_append (isTokenText_of_isPath hp) (by simp [isOrdinary_point])
    refine spells_token hcs (classify_className hp) fun u _ => ?_
    simp only [Services.value, String.ofList_toList, value_host ho]
    rfl
  | @instanceMember path member o hp hm ho =>
    intro t
    rw [toList_print_instanceMember _ _ hp]
    have hcs : IsTokenText ('.' :: path.toList ++ '.' :: member.toList) :=
      isTokenText_append (isTokenText_point_append (isTokenText_of_isPath hp))
        (isTokenText_member hm).2
    refine spells_token hcs (classify_instanceMember hp hm) fun u _ => ?_
    simp only [Services.value, String.ofList_toList, value_host ho]
    rfl
  | @staticMember path member o hp hm ho =>
    intro t
    rw [toList_print_staticMember _ _ hp]
    have hcs : IsTokenText (path.toList ++ '.' :: member.toList) :=
      isTokenText_append (isTokenText_of_isPath hp) (isTokenText_member hm).2
    refine spells_token hcs (classify_staticMember hp hm) fun u _ => ?_
    simp only [Services.value, String.ofList_toList, value_host ho]
    rfl
  | @list items span h ih =>
    intro t ht
    obtain ⟨vs, t', hall, hbare, ht'⟩ := @SpellsAll.of_forall _ (.standard env) s.Later
      (fun x v => x.bare = v) (fun x => (x.print .standard).toList) items
      (fun x hx u hu => by
        obtain ⟨u', hs, hu'⟩ := ih x hx u hu
        exact ⟨x.bare, u', hs, rfl, hu'⟩) t ht
    have hvs : items.map Form.bare = vs := by
      rw [← List.forall₂_map_left_iff, List.forall₂_eq_eq_eq] at hbare
      exact hbare
    refine ⟨t', ?_, ht'⟩
    rw [Form.toList_print_list, Form.bare_list, hvs]
    exact hall.list

/-! ### Equality with what was printed -/

/-- Forms that differ only in the places of their lists. -/
theorem Form.bare_eq_bare {x y : Form} (h : x.bare = y.bare) :
    x = y ∨ ∃ xs ys s t, x = list xs s ∧ y = list ys t ∧ xs.map bare = ys.map bare := by
  cases x <;> cases y <;> first
    | exact .inl h
    | cases h
    | skip
  rename_i xs s ys t
  rw [bare_list, bare_list] at h
  exact .inr ⟨xs, ys, s, t, rfl, rfl, (list.inj h).1⟩

theorem Form.sameItems_of_forall {xs ys : List Form} (hmap : xs.map bare = ys.map bare)
    (h : ∀ y ∈ ys, ∀ x : Form, x.bare = y.bare → x.same y = true) :
    sameItems xs ys = true := by
  induction ys generalizing xs with
  | nil =>
    obtain rfl : xs = [] := by simpa using hmap
    rfl
  | cons y ys ih =>
    cases xs with
    | nil => cases hmap
    | cons x xs =>
      obtain ⟨hx, hxs⟩ := List.cons.inj hmap
      rw [sameItems, h y List.mem_cons_self x hx,
        ih hxs fun z hz => h z (List.mem_cons_of_mem y hz)]
      rfl

/-- A readable form equals every form that differs from it only in the places of lists. -/
theorem Form.Readable.same {v : Form} (hv : v.Readable env s) :
    ∀ x : Form, x.bare = v.bare → x.same v = true := by
  induction hv with
  | @list items span _ ih =>
    intro x hx
    rcases Form.bare_eq_bare hx with rfl | ⟨xs, ys, a, b, rfl, he, hmap⟩
    · exact sameItems_of_forall rfl ih
    · obtain ⟨rfl, rfl⟩ := Form.list.inj he
      exact sameItems_of_forall hmap ih
  | nil | integer | ratio | text | symbol | var | accessor | className | instanceMember
  | staticMember =>
    intro x hx
    rcases Form.bare_eq_bare hx with rfl | ⟨xs, ys, a, b, -, he, -⟩
    · simp [Form.same, sameValue, value?, Value.same]
    · cases he

/-- A readable form is read back from its printed text: one form, without an error, the same but for
the places of its lists, so that its symbols and vars are the very same objects. -/
theorem read_print (env : Host.Environment) {ns : List Namespace} {s : Store}
    (hs : Store.Reachable ns s) {v : Form} (hv : v.Readable env s) (line col : Option Int) :
    let r := read (.standard env) ⟨false, false, line, col⟩ (.ofString (v.print .standard)) s
    r.fault = none ∧ ∃ v', r.forms = [v'] ∧ v'.bare = v.bare ∧ v'.same v = true := by
  intro r
  obtain ⟨t, hspells, -⟩ := hv.spells _
    ((keeps_later env s).note (Source.ofString (v.print .standard)).opening ⟨.refl s, ns, hs⟩)
  obtain ⟨hfault, -, v', hforms, hbare⟩ := hspells.read rfl (Services.plain_standard env) line col
  exact ⟨hfault, v', hforms, hbare, hv.same v' hbare⟩

/-- A list of a number, a string, a symbol and a list of a var and a class, in a store where the
symbol and the var have been interned. -/
theorem read_print_nested :
    let s := ((Store.empty.internVar "n" "v").2.symbol ⟨"a", none⟩).2
    let v := Form.list [.integer 7, .text "x\"\n", .symbol ⟨⟨"a", none⟩, 4⟩,
      .list [.var ⟨3, ⟨1, ⟨⟨"n", none⟩, 0⟩⟩, ⟨⟨"v", none⟩, 2⟩⟩,
        .className (.ofId "builtins.str") "str"] none] none
    let r := read (.standard .standard) .standard (.ofString (v.print .standard)) s
    r.fault = none ∧ ∃ v', r.forms = [v'] ∧ v'.bare = v.bare ∧ v'.same v = true := by
  intro s v
  have hs : ∃ ns, Store.Reachable ns s := by
    obtain ⟨n, hn⟩ := Store.Reachable.empty.internVar "n" "v"
    exact ⟨_, hn.symbol _⟩
  obtain ⟨ns, hs⟩ := hs
  have hvar : Form.Readable .standard s
      (.var ⟨3, ⟨1, ⟨⟨"n", none⟩, 0⟩⟩, ⟨⟨"v", none⟩, 2⟩⟩) :=
    @Form.Readable.var _ _ "n" "v" ⟨1, ⟨⟨"n", none⟩, 0⟩⟩ _ (by decide) (by decide)
      (List.all_eq_true.1 (by decide)) rfl rfl
  have hclass : Form.Readable .standard s (.className (.ofId "builtins.str") "str") :=
    @Form.Readable.className _ _ "str" (.mk "builtins.str" [("join", .mk "builtins.str.join" [])])
      (by decide) rfl
  have hsymbol : Form.Readable .standard s (.symbol ⟨⟨"a", none⟩, 4⟩) :=
    @Form.Readable.symbol _ _ "a" _ (by decide) (by decide) (List.all_eq_true.1 (by decide)) rfl
  have hinteger : Form.Readable .standard s (.integer 7) :=
    @Form.Readable.integer _ _ 7 (Nat.lt_of_lt_of_le (by decide : 7 < 10 ^ 1)
      (Nat.pow_le_pow_right (by decide) (by decide)))
  have hinner : Form.Readable .standard s (.list [.var ⟨3, ⟨1, ⟨⟨"n", none⟩, 0⟩⟩, ⟨⟨"v", none⟩, 2⟩⟩,
      .className (.ofId "builtins.str") "str"] none) := by
    refine .list fun x hx => ?_
    simp only [List.mem_cons, List.not_mem_nil, or_false] at hx
    rcases hx with rfl | rfl
    · exact hvar
    · exact hclass
  refine read_print .standard hs (.list fun x hx => ?_) none none
  simp only [List.mem_cons, List.not_mem_nil, or_false] at hx
  rcases hx with rfl | rfl | rfl | rfl
  · exact hinteger
  · exact .text _
  · exact hsymbol
  · exact hinner

end LispForms
