import LispForms.Proofs.Store.History

/-! The symbols and the vars in the forms that operations answer with, in lists and outside. A
symbol is the one in the table, unless it was asked for as one that is not; a var stands in its own
namespace under its own name, and behind a reference its namespace is registered as well. -/

namespace LispForms

variable {W : Type}

/-! ### Names in forms -/

namespace Form

variable {u v : Form} {vs : List Form}

theorem Within.exists_mem (h : u.Within vs) : ∃ v ∈ vs, u.Within [v] := by
  rcases h with h | ⟨h, hu⟩
  · exact ⟨u, h, .here (List.mem_singleton_self u)⟩
  · exact ⟨_, h, .inside (List.mem_singleton_self _) hu⟩

theorem Within.eq (h : u.Within [v]) (hv : v.isList = false) : u = v := by
  rcases within_singleton h with rfl | ⟨_, _, rfl, -⟩
  · rfl
  · cases hv

/-- Where there are no lists there is nothing in lists. -/
theorem Within.mem (h : u.Within vs) (hvs : ∀ v ∈ vs, v.isList = false) : u ∈ vs := by
  obtain ⟨v, hv, hu⟩ := h.exists_mem
  exact hu.eq (hvs v hv) ▸ hv

theorem isList_of_isConstant (hv : v.isConstant = true) : v.isList = false := by
  cases v with
  | list => cases hv
  | _ => rfl

end Form

/-- What holds of the names of a kind when they are given, and later, holds of all such names in
the forms that are read. -/
theorem Services.yields_within {α : Type} {kind : α → Form} {sv : Services W} {P : W → Prop}
    {A : W → α → Prop} (hkind : ∀ a, (kind a).isConstant = false ∧ (kind a).isList = false)
    (hk : sv.Keeps P) (later : ∀ a, sv.Keeps fun w => P w ∧ A w a)
    (symbol : ∀ {w} name, P w → ∀ a, (kind a).Within [(sv.symbol name w).1] →
      A (sv.symbol name w).2 a)
    (var : ∀ {w} ns name, P w → ∀ a, (kind a).Within [(sv.var ns name w).1] →
      A (sv.var ns name w).2 a) :
    sv.Yields P fun w v => ∀ a, (kind a).Within [v] → A w a where
  keeps := hk
  later v :=
    { symbol := fun name h =>
        ⟨hk.symbol name h.1, fun a ha => ((later a).symbol name ⟨h.1, h.2 a ha⟩).2⟩
      var := fun ns name h =>
        ⟨hk.var ns name h.1, fun a ha => ((later a).var ns name ⟨h.1, h.2 a ha⟩).2⟩
      host := fun path h =>
        ⟨hk.host path h.1, fun a ha => ((later a).host path ⟨h.1, h.2 a ha⟩).2⟩
      note := fun n h => ⟨hk.note n h.1, fun a ha => ((later a).note n ⟨h.1, h.2 a ha⟩).2⟩ }
  symbol := symbol
  var := var
  constant hv a ha := by
    have hconst := (hkind a).1
    rw [ha.eq (Form.isList_of_isConstant hv.isConstant), hv.isConstant] at hconst
    cases hconst
  list span hitems a ha := by
    rcases Form.within_singleton ha with he | ⟨items, _, he, ha⟩
    · have hlist := (hkind a).2
      rw [he] at hlist
      cases hlist
    · cases he
      obtain ⟨v, hv, ha⟩ := ha.exists_mem
      exact hitems v hv a ha

namespace Store

variable {s t : Store} {ns : List Namespace} {op : Operation} {x y : Symbol} {v : Var}

/-! ### Symbols -/

/-- The symbol is the one in the table. -/
def Interned (s : Store) (x : Symbol) : Prop := s.symbols.lookup x.toQName = some x

theorem Interned.mono (h : s.Interned x) (hs : s.Tables) (hb : s.Becomes t) : t.Interned x :=
  (hb.tables hs).symbols.lookup (hb.symbols_suffix.mem (mem_of_lookup h))

/-- Symbols that are interned are told apart by their names. -/
theorem Tables.id_eq_iff (hs : s.Tables) (hx : s.Interned x) (hy : s.Interned y) :
    x.id = y.id ↔ x.toQName = y.toQName := by
  refine ⟨fun h => (hs.symbols.eq_of_number (mem_of_lookup hx) (mem_of_lookup hy) h).1, fun h => ?_⟩
  have hx : s.symbols.lookup y.toQName = some x := h ▸ hx
  rw [Option.some.inj (hx.symm.trans hy)]

theorem Tables.toQName_symbol (hs : s.Tables) (q : QName) : (s.symbol q).1.toQName = q :=
  ((s.becomes_symbol q).tables hs).names _ (mem_of_lookup (s.lookup_symbol q))

theorem Tables.interned_symbol (hs : s.Tables) (q : QName) :
    (s.symbol q).2.Interned (s.symbol q).1 := by
  unfold Interned
  rw [hs.toQName_symbol q]
  exact s.lookup_symbol q

theorem yields_interned (env : Host.Environment) :
    (Services.standard env).Yields Tables fun s v => ∀ x, (Form.symbol x).Within [v] →
      s.Interned x := by
  have hk := keeps_of_becomes (P := Tables) (fun hb h => hb.tables h) env
  refine Services.yields_within (fun _ => ⟨rfl, rfl⟩) hk (fun x => ?_) (fun name h x hx => ?_)
    fun ns name h x hx => nomatch hx.eq rfl
  · exact keeps_of_becomes (P := fun s => s.Tables ∧ s.Interned x)
      (fun hb h => ⟨hb.tables h.1, h.2.mono h.1 hb⟩) env
  · obtain rfl := Form.symbol.inj (hx.eq rfl)
    exact h.interned_symbol _

/-- A symbol in an answer is interned, unless it was asked for as one that is not. -/
theorem Operation.interned (hs : s.Tables) (hop : ∀ q, op ≠ .rawSymbol q)
    (hx : (Form.symbol x).Within (op.run s).1) : (op.run s).2.Interned x := by
  cases hr : op.isReading with
  | true =>
    obtain ⟨v, hv, hx⟩ := hx.exists_mem
    exact op.forms_of_yields hr yields_interned hs v hv x hx
  | false =>
    have hx := hx.mem (isList_of_mem_run hr)
    cases op with
    | symbol q =>
      obtain rfl := Form.symbol.inj (List.mem_singleton.1 hx)
      exact hs.interned_symbol q
    | copy y =>
      obtain rfl := Form.symbol.inj (List.mem_singleton.1 hx)
      exact hs.interned_symbol y.toQName
    | rawSymbol q => exact absurd rfl (hop q)
    | read | next => cases hr
    | getNamespace | removeNamespace | findVar =>
      obtain ⟨_, -, he⟩ := List.mem_map.1 hx
      cases he
    | openNamespace | var | internVar => cases List.mem_singleton.1 hx

/-! ### Vars -/

/-- What the var is called refers to it. -/
structure Current (s : Store) (v : Var) : Prop where
  registered : s.namespace? v.home.symbol = some v.home
  stored : s.var? v.home v.symbol = some v

theorem Current.extends (h : s.Current v) (hext : s.Extends t) : t.Current v :=
  ⟨hext.namespaces h.registered, hext.vars h.stored⟩

/-- Two vars that are called the same are not both current. -/
theorem Current.unique {v' : Var} (h : s.Current v) (h' : s.Current v')
    (hhome : v.home.symbol.toQName = v'.home.symbol.toQName)
    (hname : v.symbol.toQName = v'.symbol.toQName) : v = v' := by
  have hreg : s.namespaces.lookup v'.home.symbol.toQName = some v.home := hhome ▸ h.registered
  have hsame : v.home = v'.home := Option.some.inj (hreg.symm.trans h'.registered)
  have hstored : s.vars.lookup (v'.home.id, v'.symbol.toQName) = some v :=
    hsame ▸ hname ▸ h.stored
  exact Option.some.inj (hstored.symm.trans h'.stored)

/-- A var stands where it belongs, by whatever names it is found. -/
theorem Sound.var?_home (h : Sound ns s) {k : ℕ × QName} (hv : s.vars.lookup k = some v) :
    s.var? v.home v.symbol = some v := by
  obtain ⟨i, q⟩ := k
  obtain ⟨-, rfl, rfl⟩ := h.vars (mem_of_lookup hv)
  exact hv

theorem Sound.current_var (h : Sound ns s) {n : Namespace} (hn : n ∈ ns)
    (hreg : s.namespace? n.symbol = some n) (x : Symbol) : (s.var n x).2.Current (s.var n x).1 := by
  refine ⟨?_, (h.var hn x).var?_home (s.lookup_var n x)⟩
  rw [(h.var_home hn x).1]
  exact (s.extends_var n x).namespaces hreg

theorem Sound.current_internVar (h : Sound ns s) (space name : String) :
    (s.internVar space name).2.Current (s.internVar space name).1 := by
  have hhome := h.symbol ⟨space, none⟩
  have hopen := hhome.openNamespace (s.symbol ⟨space, none⟩).1
  refine (hopen.symbol ⟨name, none⟩).current_var List.mem_cons_self ?_ _
  refine (extends_symbol _ _).namespaces ?_
  rw [hhome.toQName_openNamespace]
  exact lookup_openNamespace _ _

theorem yields_current (env : Host.Environment) :
    (Services.standard env).Yields Running fun s v => ∀ u, (Form.var u).Within [v] →
      s.Current u := by
  have hk := keeps_running env
  refine Services.yields_within (fun _ => ⟨rfl, rfl⟩) hk (fun u => ?_)
    (fun name h u hu => nomatch hu.eq rfl) fun space name ⟨ns, h⟩ u hu => ?_
  · exact hk.and (keeps_of_extends (P := fun s => s.Current u) (fun hext h => h.extends hext) env)
  · obtain rfl := Form.var.inj (hu.eq rfl)
    exact h.sound.current_internVar space name

/-- A var in an answer stands in its own namespace under its own name. -/
theorem Operation.stored (hs : Reachable ns s) (hop : ∀ n, op.space? = some n → n ∈ ns)
    (hv : (Form.var v).Within (op.run s).1) : (op.run s).2.var? v.home v.symbol = some v := by
  cases hr : op.isReading with
  | true =>
    obtain ⟨u, hu, hv⟩ := hv.exists_mem
    exact (op.forms_of_yields hr yields_current ⟨ns, hs⟩ u hu v hv).stored
  | false =>
    have hv := hv.mem (isList_of_mem_run hr)
    cases op with
    | var n x =>
      obtain rfl := Form.var.inj (List.mem_singleton.1 hv)
      exact (hs.sound.var (hop n rfl) x).var?_home (s.lookup_var n x)
    | findVar n x =>
      obtain ⟨u, hu, he⟩ := List.mem_map.1 hv
      obtain rfl := Form.var.inj he
      exact hs.sound.var?_home (Option.mem_toList.1 hu)
    | internVar space name =>
      obtain rfl := Form.var.inj (List.mem_singleton.1 hv)
      exact (hs.sound.current_internVar space name).stored
    | read | next => cases hr
    | getNamespace | removeNamespace =>
      obtain ⟨_, -, he⟩ := List.mem_map.1 hv
      cases he
    | symbol | rawSymbol | copy | openNamespace => cases List.mem_singleton.1 hv

end Store
end LispForms
