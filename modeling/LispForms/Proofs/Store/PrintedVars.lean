import LispForms.Proofs.Store.Registry

/-! What the text of a var says about it. Namespaces and vars are kept under symbols, which may be
in namespaces of their own, while the text of a var has the names of the two symbols alone. It tells
apart the vars whose symbols are in the same namespaces, and refers to those whose symbols are in
none. -/

namespace LispForms

/-! ### Texts of vars -/

theorem append_colon_inj {as bs cs ds : List Char} (ha : ':' ∉ as) (hc : ':' ∉ cs)
    (h : as ++ ':' :: bs = cs ++ ':' :: ds) : as = cs ∧ bs = ds := by
  induction as generalizing cs with
  | nil =>
    cases cs with
    | nil => exact ⟨rfl, (List.cons.inj h).2⟩
    | cons c cs => exact absurd (List.cons.inj h).1 (List.ne_of_not_mem_cons hc)
  | cons a as ih =>
    cases cs with
    | nil => exact absurd (List.cons.inj h).1.symm (List.ne_of_not_mem_cons ha)
    | cons c cs =>
      obtain ⟨rfl, htail⟩ := List.cons.inj h
      obtain ⟨rfl, rfl⟩ :=
        ih (List.not_mem_of_not_mem_cons ha) (List.not_mem_of_not_mem_cons hc) htail
      exact ⟨rfl, rfl⟩

namespace Var

variable {v v' : Var}

theorem toList_print (v : Var) :
    v.print.toList = v.home.name.toList ++ ':' :: v.symbol.name.toList := by
  have hcolon : ":".toList = [':'] := rfl
  rw [print, String.toList_append, String.toList_append, hcolon, List.append_assoc]
  rfl

/-- Where one name is the same, so is the other. -/
theorem symbol_name_eq (h : v.print = v'.print) (hhome : v.home.name = v'.home.name) :
    v.symbol.name = v'.symbol.name := by
  have htext := congrArg String.toList h
  rw [toList_print, toList_print, hhome] at htext
  exact String.toList_inj.1 (List.cons.inj (List.append_cancel_left htext)).2

theorem home_name_eq (h : v.print = v'.print) (hv : ':' ∉ v.home.name.toList)
    (hv' : ':' ∉ v'.home.name.toList) : v.home.name = v'.home.name := by
  have htext := congrArg String.toList h
  rw [toList_print, toList_print] at htext
  exact String.toList_inj.1 (append_colon_inj hv hv' htext).1

end Var

/-- The text is one token, which is a reference to a var. -/
def IsVarToken (text : String) : Prop :=
  IsTokenText text.toList ∧ ∃ m, Token.classify text.toList = some (.var, m)

/-- Read as a token, the text of a var refers to the names that it was made from. -/
theorem IsVarToken.classify_print {v : Var} (h : IsVarToken v.print) :
    Token.classify v.print.toList = some (.var, .var v.home.name v.symbol.name) := by
  obtain ⟨-, m, hm⟩ := h
  obtain ⟨ns, name, hns, hname, htext, rfl⟩ := Token.of_var? (Token.meaning?_of_classify hm)
  rw [v.toList_print] at htext
  have hcolon : ':' ∉ ns ∧ ':' ∉ name :=
    ⟨(Token.not_mem_of_isName hns).1, (Token.not_mem_of_isName hname).1⟩
  obtain ⟨hhome, -, hsymbol⟩ :=
    (List.append_cons_inj_of_notMem hcolon.1 hcolon.2).1 htext.symm
  rw [hm, hhome, hsymbol, String.ofList_toList, String.ofList_toList]

namespace Store

variable {h : List Operation} {s : Store} {ns : List Namespace} {v v' : Var}

/-! ### Vars of registered namespaces -/

/-- The var is among those of a namespace that is registered. -/
def Registered (s : Store) (v : Var) : Prop :=
  ∃ q n q', (q, n) ∈ s.namespaces ∧ ((n.id, q'), v) ∈ s.vars

theorem Registered.current (hv : s.Registered v) (hs : Sound ns s) (ht : s.Tables) :
    s.Current v := by
  obtain ⟨q, n, q', hspace, hvar⟩ := hv
  obtain ⟨rfl, hn⟩ := hs.namespaces hspace
  obtain ⟨hhome, hid, rfl⟩ := hs.vars hvar
  obtain rfl : v.home = n := hs.distinct hhome hn hid
  exact ⟨ht.namespaces.lookup hspace, ht.vars.lookup hvar⟩

/-- Vars that are current are told apart by their texts and the namespaces of their symbols. -/
theorem Current.eq_iff_of_print (hv : s.Current v) (hv' : s.Current v')
    (hprint : v.print = v'.print) :
    v = v' ↔ v.home.name = v'.home.name ∧
      v.home.symbol.ns = v'.home.symbol.ns ∧ v.symbol.ns = v'.symbol.ns := by
  constructor
  · rintro rfl
    exact ⟨rfl, rfl, rfl⟩
  · rintro ⟨hname, hspace, hsymbol⟩
    have hhome : v.home.symbol.toQName = v'.home.symbol.toQName :=
      congrArg₂ QName.mk hname hspace
    exact hv.unique hv' hhome
      (congrArg₂ QName.mk (Var.symbol_name_eq hprint hname) hsymbol)

/-- Reading takes nothing away. -/
theorem extends_read (s : Store) (env : Host.Environment) (line col : Option Int) (text : String) :
    s.Extends (read (.standard env) ⟨false, false, line, col⟩ (.ofString text) s).world :=
  ((keeps_extends env s).yields.read _ _ (.refl s)).1

/-! ### Namesakes -/

/-- Two vars of one name in two namespaces of one name, whose symbols differ. -/
def namesakes : List Operation :=
  let a : Symbol := ⟨⟨"a", none⟩, 0⟩
  let b : Symbol := ⟨⟨"a", some "b"⟩, 1⟩
  let x : Symbol := ⟨⟨"x", none⟩, 2⟩
  [.var ⟨4, b⟩ x, .var ⟨3, a⟩ x, .openNamespace b, .openNamespace a,
    .symbol x.toQName, .symbol b.toQName, .symbol a.toQName]

theorem legal_namesakes : Legal namesakes := by
  refine Throughout.cons (.cons (.cons (.cons (.cons (.cons (.cons .nil nofun) nofun) nofun)
    nofun) nofun) ?_) ?_
  · rintro n ⟨⟩
    exact ⟨_, ⟨"a", none⟩, List.suffix_rfl, .tail _ List.mem_cons_self⟩
  · rintro n ⟨⟩
    exact ⟨_, ⟨"a", some "b"⟩, List.suffix_rfl, List.mem_cons_self⟩

theorem argumentsInterned_namesakes : ArgumentsInterned namesakes := by
  refine Throughout.cons (.cons (.cons (.cons (.cons (.cons (.cons .nil nofun) nofun) nofun)
    ?_) ?_) ?_) ?_ <;>
  · rintro y ⟨⟩
    rfl

/-- The var of the namespace whose symbol is in none. -/
def plainNamesake : Var := ⟨5, ⟨3, ⟨⟨"a", none⟩, 0⟩⟩, ⟨⟨"x", none⟩, 2⟩⟩

def otherNamesake : Var := ⟨6, ⟨4, ⟨⟨"a", some "b"⟩, 1⟩⟩, ⟨⟨"x", none⟩, 2⟩⟩

theorem registered_namesakes :
    (after namesakes).Registered plainNamesake ∧ (after namesakes).Registered otherNamesake :=
  ⟨⟨_, _, _, .tail _ List.mem_cons_self, .tail _ List.mem_cons_self⟩,
    ⟨_, _, _, List.mem_cons_self, List.mem_cons_self⟩⟩

theorem isVarToken_namesakes : IsVarToken plainNamesake.print ∧ IsVarToken otherNamesake.print := by
  have htext : IsTokenText "a:x".toList := by decide
  exact ⟨⟨htext, _, rfl⟩, ⟨htext, _, rfl⟩⟩

/-! ### Vars by their texts -/

/-- Two vars of registered namespaces with one text are the same var if the names of the namespaces
are the same, as they are where neither has a colon, and if the symbols are in the same namespaces.
If the text of such a var is a token that refers to a var, then it is read as a var with that text,
which is the same var if and only if its symbol and that of its namespace are in no namespace. -/
theorem vars_of_print (hl : Legal h) :
    let s := after h
    (∀ v v', s.Registered v → s.Registered v' → v.print = v'.print →
      (v = v' ↔ v.home.name = v'.home.name ∧
        v.home.symbol.ns = v'.home.symbol.ns ∧ v.symbol.ns = v'.symbol.ns) ∧
      (':' ∉ v.home.name.toList → ':' ∉ v'.home.name.toList → v.home.name = v'.home.name)) ∧
    ∀ v, s.Registered v → IsVarToken v.print → ∀ env line col, ∃ u,
      let r := read (.standard env) ⟨false, false, line, col⟩ (.ofString v.print) s
      r.forms = [.var u] ∧ r.fault = none ∧ u.print = v.print ∧
        (u = v ↔ v.home.symbol.ns = none ∧ v.symbol.ns = none) := by
  intro s
  obtain ⟨ns, hs, -⟩ := hl.reachable
  have hcurrent {v : Var} (hv : s.Registered v) : s.Current v :=
    hv.current hs.sound (tables_after h)
  constructor
  · intro v v' hv hv' hprint
    exact ⟨(hcurrent hv).eq_iff_of_print (hcurrent hv') hprint, Var.home_name_eq hprint⟩
  · intro v hv htoken env line col
    obtain ⟨u, hread⟩ := read_reference htoken.1 htoken.classify_print ⟨ns, hs⟩ env line col
    rw [String.ofList_toList] at hread
    obtain ⟨hforms, hfault, hu, hhome, hsymbol⟩ := hread
    have hname : u.home.name = v.home.name := by rw [Namespace.name, hhome]
    have hprint : u.print = v.print := by rw [Var.print, hname, hsymbol, Var.print]
    refine ⟨u, hforms, hfault, hprint, ?_⟩
    have hlater := (hcurrent hv).extends (s.extends_read env line col v.print)
    rw [hu.eq_iff_of_print hlater hprint, and_iff_right hname, hhome, hsymbol]
    exact and_congr eq_comm eq_comm

/-- The text of two namesakes is read as the one whose namespace has a symbol in none. -/
theorem vars_of_print_namesakes : Legal namesakes ∧ ∀ env line col,
    (read (.standard env) ⟨false, false, line, col⟩ (.ofString plainNamesake.print)
      (after namesakes)).forms = [.var plainNamesake] := by
  refine ⟨legal_namesakes, fun env line col => ?_⟩
  obtain ⟨u, hforms, -, -, hu⟩ := (vars_of_print legal_namesakes).2 plainNamesake
    registered_namesakes.1 isVarToken_namesakes.1 env line col
  rw [hforms, hu.2 ⟨rfl, rfl⟩]

/-- Namesakes have one text without being one var, and reading it gives one of them only. Where the
name of a namespace or a var has a colon, vars of one text need not even be namesakes. -/
theorem print_namesakes :
    (Legal namesakes ∧ ArgumentsInterned namesakes ∧
      (after namesakes).Registered plainNamesake ∧ (after namesakes).Registered otherNamesake ∧
      plainNamesake.print = otherNamesake.print ∧ plainNamesake ≠ otherNamesake ∧
      IsVarToken otherNamesake.print ∧
      (read (.standard .standard) .standard (.ofString otherNamesake.print)
        (after namesakes)).forms = [.var plainNamesake]) ∧
    let s := after [.internVar "a:b" "c", .internVar "a" "b:c"]
    ∃ v v', s.Registered v ∧ s.Registered v' ∧ v.print = v'.print ∧ v.home.name ≠ v'.home.name := by
  refine ⟨⟨legal_namesakes, argumentsInterned_namesakes, registered_namesakes.1,
    registered_namesakes.2, by decide, by decide, isVarToken_namesakes.2, rfl⟩, ?_⟩
  exact ⟨⟨3, ⟨1, ⟨⟨"a", none⟩, 0⟩⟩, ⟨⟨"b:c", none⟩, 2⟩⟩,
    ⟨7, ⟨5, ⟨⟨"a:b", none⟩, 4⟩⟩, ⟨⟨"c", none⟩, 6⟩⟩,
    ⟨_, _, _, .tail _ List.mem_cons_self, .tail _ List.mem_cons_self⟩,
    ⟨_, _, _, List.mem_cons_self, List.mem_cons_self⟩, by decide, by decide⟩

end Store
end LispForms
