import LispForms.Proofs.Store.Extension

/-! The stores that a program comes to. Whatever it interns, registers and removes, and whatever it
reads in between, every entry of a table stands under its own name, and no two namespaces that were
ever created share an identity. -/

namespace LispForms

namespace Store

/-- The stores of a program, each with the namespaces created so far. A namespace that was removed
from the register may still be given vars. -/
inductive Reachable : List Namespace → Store → Prop
  | empty : Reachable [] .empty
  | note {ns : List Namespace} {s : Store} (n : Note) : Reachable ns s →
    Reachable ns { s with journal := n :: s.journal }
  | rawSymbol {ns : List Namespace} {s : Store} (q : QName) : Reachable ns s →
    Reachable ns (s.rawSymbol q).2
  | symbol {ns : List Namespace} {s : Store} (q : QName) : Reachable ns s →
    Reachable ns (s.symbol q).2
  | openNamespace {ns : List Namespace} {s : Store} (x : Symbol) : Reachable ns s →
    Reachable ((s.openNamespace x).1 :: ns) (s.openNamespace x).2
  | removeNamespace {ns : List Namespace} {s : Store} (x : Symbol) : Reachable ns s →
    Reachable ns (s.removeNamespace x).2
  | var {ns : List Namespace} {s : Store} {n : Namespace} (hn : n ∈ ns) (x : Symbol) :
    Reachable ns s → Reachable ns (s.var n x).2

/-- The tables and the namespaces created so far fit together. -/
structure Sound (ns : List Namespace) (s : Store) : Prop where
  symbols : ∀ {q x}, (q, x) ∈ s.symbols → x.toQName = q
  namespaces : ∀ {q n}, (q, n) ∈ s.namespaces → n.symbol.toQName = q ∧ n ∈ ns
  vars : ∀ {i q v}, ((i, q), v) ∈ s.vars → v.home ∈ ns ∧ v.home.id = i ∧ v.symbol.toQName = q
  created : ∀ {n}, n ∈ ns → n.id < s.nextId
  distinct : ∀ {m n}, m ∈ ns → n ∈ ns → m.id = n.id → m = n

variable {ns : List Namespace} {s : Store}

theorem mem_of_lookup {K V : Type} [BEq K] [LawfulBEq K] {l : List (K × V)} {k : K} {v : V}
    (h : l.lookup k = some v) : (k, v) ∈ l := by
  obtain ⟨l₁, l₂, rfl, -⟩ := List.lookup_eq_some_iff.1 h
  simp

namespace Sound

theorem empty : Sound [] .empty :=
  ⟨fun h => (List.not_mem_nil h).elim, fun h => (List.not_mem_nil h).elim,
    fun h => (List.not_mem_nil h).elim, fun h => (List.not_mem_nil h).elim,
    fun h => (List.not_mem_nil h).elim⟩

theorem note (h : Sound ns s) (n : Note) : Sound ns { s with journal := n :: s.journal } :=
  ⟨h.symbols, h.namespaces, h.vars, h.created, h.distinct⟩

theorem rawSymbol (h : Sound ns s) (q : QName) : Sound ns (s.rawSymbol q).2 :=
  ⟨h.symbols, h.namespaces, h.vars, fun hn => Nat.lt_succ_of_lt (h.created hn), h.distinct⟩

/-- A symbol has the name it is asked for by. -/
theorem toQName_symbol (h : Sound ns s) (q : QName) : (s.symbol q).1.toQName = q := by
  unfold Store.symbol
  cases hx : s.symbols.lookup q with
  | some x => exact h.symbols (mem_of_lookup hx)
  | none => rfl

theorem symbol (h : Sound ns s) (q : QName) : Sound ns (s.symbol q).2 := by
  unfold Store.symbol
  cases hx : s.symbols.lookup q with
  | some x => exact h
  | none =>
    have hraw := h.rawSymbol q
    refine ⟨fun hmem => ?_, hraw.namespaces, hraw.vars, hraw.created, hraw.distinct⟩
    rcases List.mem_cons.1 hmem with he | hmem
    · obtain ⟨rfl, rfl⟩ := Prod.mk.inj he
      rfl
    · exact h.symbols hmem

theorem openNamespace (h : Sound ns s) (x : Symbol) :
    Sound ((s.openNamespace x).1 :: ns) (s.openNamespace x).2 := by
  unfold Store.openNamespace
  cases hn : s.namespace? x with
  | some n =>
    have hmem : n ∈ ns := (h.namespaces (mem_of_lookup hn)).2
    have hns {m : Namespace} (hm : m ∈ n :: ns) : m ∈ ns := by
      rcases List.mem_cons.1 hm with rfl | hm
      · exact hmem
      · exact hm
    exact ⟨h.symbols, fun hq => (h.namespaces hq).imp_right (List.mem_cons_of_mem n),
      fun hv => (h.vars hv).imp_left (List.mem_cons_of_mem n), fun hm => h.created (hns hm),
      fun hm hm' => h.distinct (hns hm) (hns hm')⟩
  | none =>
    -- the identity of the new namespace is above those of all others
    let n : Namespace := ⟨s.nextId, x⟩
    have hid {m : Namespace} (hm : m ∈ ns) : m.id ≠ n.id := Nat.ne_of_lt (h.created hm)
    refine ⟨h.symbols, fun hq => ?_, fun hv => (h.vars hv).imp_left (List.mem_cons_of_mem n),
      fun hm => ?_, fun hm hm' he => ?_⟩
    · rcases List.mem_cons.1 hq with he | hq
      · obtain ⟨rfl, rfl⟩ := Prod.mk.inj he
        exact ⟨rfl, List.mem_cons_self⟩
      · exact (h.namespaces hq).imp_right (List.mem_cons_of_mem n)
    · rcases List.mem_cons.1 hm with rfl | hm
      · exact Nat.lt_succ_self s.nextId
      · exact Nat.lt_succ_of_lt (h.created hm)
    · rcases List.mem_cons.1 hm with rfl | hm <;> rcases List.mem_cons.1 hm' with rfl | hm'
      · rfl
      · exact absurd he.symm (hid hm')
      · exact absurd he (hid hm)
      · exact h.distinct hm hm' he

theorem toQName_openNamespace (h : Sound ns s) (x : Symbol) :
    (s.openNamespace x).1.symbol.toQName = x.toQName := by
  unfold Store.openNamespace
  cases hn : s.namespace? x with
  | some n => exact (h.namespaces (mem_of_lookup hn)).1
  | none => rfl

theorem removeNamespace (h : Sound ns s) (x : Symbol) : Sound ns (s.removeNamespace x).2 := by
  unfold Store.removeNamespace
  cases s.namespace? x with
  | some n =>
    exact ⟨h.symbols, fun hq => h.namespaces (List.mem_filter.1 hq).1, h.vars, h.created,
      h.distinct⟩
  | none => exact h

theorem var (h : Sound ns s) {n : Namespace} (hn : n ∈ ns) (x : Symbol) :
    Sound ns (s.var n x).2 := by
  unfold Store.var
  cases s.var? n x with
  | some v => exact h
  | none =>
    refine ⟨h.symbols, h.namespaces, fun hv => ?_, fun hm => Nat.lt_succ_of_lt (h.created hm),
      h.distinct⟩
    rcases List.mem_cons.1 hv with he | hv
    · obtain ⟨hkey, rfl⟩ := Prod.mk.inj he
      obtain ⟨hi, hq⟩ := Prod.mk.inj hkey
      exact ⟨hn, hi.symm, hq.symm⟩
    · exact h.vars hv

/-- A var is in the namespace that is asked for it, under the name it is asked for by. -/
theorem var_home (h : Sound ns s) {n : Namespace} (hn : n ∈ ns) (x : Symbol) :
    (s.var n x).1.home = n ∧ (s.var n x).1.symbol.toQName = x.toQName := by
  unfold Store.var
  cases hv : s.var? n x with
  | some v =>
    obtain ⟨hhome, hid, hname⟩ := h.vars (mem_of_lookup hv)
    exact ⟨h.distinct hhome hn hid, hname⟩
  | none => exact ⟨rfl, rfl⟩

end Sound

/-- The invariant holds in every store of a program. -/
theorem Reachable.sound (h : Reachable ns s) : Sound ns s := by
  induction h with
  | empty => exact .empty
  | note n _ ih => exact ih.note n
  | rawSymbol q _ ih => exact ih.rawSymbol q
  | symbol q _ ih => exact ih.symbol q
  | openNamespace x _ ih => exact ih.openNamespace x
  | removeNamespace x _ ih => exact ih.removeNamespace x
  | var hn x _ ih => exact ih.var hn x

/-! ### References -/

theorem Reachable.internVar (h : Reachable ns s) (space name : String) :
    ∃ n, Reachable (n :: ns) (s.internVar space name).2 :=
  ⟨_, .var List.mem_cons_self _ (.symbol _ (.openNamespace _ (.symbol _ h)))⟩

/-- A var reference names the namespace and the symbol of its var. -/
theorem Sound.internVar_names (h : Sound ns s) (space name : String) :
    (s.internVar space name).1.home.symbol.toQName = ⟨space, none⟩ ∧
      (s.internVar space name).1.symbol.toQName = ⟨name, none⟩ := by
  have hhome := h.symbol ⟨space, none⟩
  have hopen := hhome.openNamespace (s.symbol ⟨space, none⟩).1
  have hname := hopen.symbol ⟨name, none⟩
  obtain ⟨hn, hx⟩ := hname.var_home List.mem_cons_self
    (Store.symbol ⟨name, none⟩ _).1
  refine ⟨?_, hx.trans (hopen.toQName_symbol _)⟩
  exact (congrArg (·.symbol.toQName) hn).trans
    ((hhome.toQName_openNamespace _).trans (h.toQName_symbol _))

/-- A var reference is found where its namespace is registered and has a var of that name. -/
theorem Sound.internVar_eq (h : Sound ns s) {space name : String} {n : Namespace} {v : Var}
    (hn : s.namespaces.lookup ⟨space, none⟩ = some n)
    (hv : s.vars.lookup (n.id, ⟨name, none⟩) = some v) : (s.internVar space name).1 = v := by
  have hhome := h.symbol ⟨space, none⟩
  have hname : (s.symbol ⟨space, none⟩).1.toQName = ⟨space, none⟩ := h.toQName_symbol _
  have hext := s.extends_symbol ⟨space, none⟩
  have hopen : (s.symbol ⟨space, none⟩).2.openNamespace (s.symbol ⟨space, none⟩).1 =
      (n, (s.symbol ⟨space, none⟩).2) := by
    rw [Store.openNamespace, namespace?, hname, hext.namespaces hn]
  simp only [Store.internVar, hopen]
  have hext' := hext.trans (extends_symbol _ ⟨name, none⟩)
  rw [Store.var, var?, hhome.toQName_symbol, hext'.vars hv]

/-! ### Reading -/

/-- The stores that a program comes to, whatever it has created. -/
def Running (s : Store) : Prop := ∃ ns, Reachable ns s

theorem keeps_running (env : Host.Environment) : (Services.standard env).Keeps Running where
  symbol name h := h.imp fun _ h => h.symbol _
  var space name h := by
    obtain ⟨ns, h⟩ := h
    obtain ⟨n, h⟩ := h.internVar space name
    exact ⟨_, h⟩
  host path h := resolve_keeps (fun _ n h => h.imp fun _ h => h.note n) env path h
  note n h := h.imp fun _ h => h.note n

/-- What was created stays created. -/
theorem keeps_reachable (env : Host.Environment) (ns : List Namespace) :
    (Services.standard env).Keeps fun s => ∃ ms, ns ⊆ ms ∧ Reachable ms s where
  symbol name h := h.imp fun _ ⟨hms, h⟩ => ⟨hms, h.symbol _⟩
  var space name h := by
    obtain ⟨ms, hms, h⟩ := h
    obtain ⟨n, h⟩ := h.internVar space name
    exact ⟨n :: ms, List.subset_cons_of_subset n hms, h⟩
  host path h :=
    resolve_keeps (P := fun s => ∃ ms, ns ⊆ ms ∧ Reachable ms s)
      (fun _ n h => h.imp fun _ ⟨hms, h⟩ => ⟨hms, h.note n⟩) env path h
  note n h := h.imp fun _ ⟨hms, h⟩ => ⟨hms, h.note n⟩

/-- A program that has read a text, successfully or not, is in a store that it can come to. -/
theorem Running.read {s : Store} (h : s.Running) (env : Host.Environment) (opts : Options)
    (source : Source) : (read (.standard env) opts source s).world.Running :=
  @Services.Keeps.run _ _ (opts.settings (.standard env) source) (keeps_running env)
    source.text.chars (.initial _ _) ((keeps_running env).note source.opening h)

end Store
end LispForms
