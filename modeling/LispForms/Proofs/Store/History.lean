import LispForms.Proofs.Spans
import LispForms.Proofs.Store.Change
import LispForms.Proofs.Store.Reachable

/-! Histories: the operations that a program has asked for, newest first, with the store that they
lead to and the forms that each of them answers with. A namespace that was created once may be given
vars for ever, whether or not it is still registered. -/

namespace LispForms

namespace Store

/-- What a program can ask for. -/
inductive Operation where
  | symbol (q : QName)
  | rawSymbol (q : QName)
  /-- A symbol is taken apart and put together again from its name. -/
  | copy (x : Symbol)
  | openNamespace (x : Symbol)
  | getNamespace (x : Symbol)
  | removeNamespace (x : Symbol)
  | var (n : Namespace) (x : Symbol)
  | findVar (n : Namespace) (x : Symbol)
  | internVar (ns name : String)
  | read (env : Host.Environment) (opts : Options) (source : Source)
  /-- One form is read from wherever a text stands. -/
  | next (env : Host.Environment) (endIsError : Bool) (cursor : Cursor) (suppressions : List Bool)

namespace Operation

/-- The forms that the operation answers with, and the store that it leaves. -/
def run (op : Operation) (s : Store) : List Form × Store :=
  match op with
  | symbol q =>
    let (x, s) := s.symbol q
    ([.symbol x], s)
  | rawSymbol q =>
    let (x, s) := s.rawSymbol q
    ([.symbol x], s)
  | copy x =>
    let (y, s) := s.symbol x.toQName
    ([.symbol y], s)
  | openNamespace x =>
    let (n, s) := s.openNamespace x
    ([.space n], s)
  | getNamespace x => ((s.namespace? x).toList.map .space, s)
  | removeNamespace x =>
    let (n, s) := s.removeNamespace x
    (n.toList.map .space, s)
  | var n x =>
    let (v, s) := s.var n x
    ([.var v], s)
  | findVar n x => ((s.var? n x).toList.map .var, s)
  | internVar ns name =>
    let (v, s) := s.internVar ns name
    ([.var v], s)
  | read env opts source =>
    let r := LispForms.read (.standard env) opts source s
    (r.forms, r.world)
  | next env endIsError cursor suppressions =>
    let (r, c) := (Context.mk cursor suppressions s).next (.standard env) endIsError
    let forms := match r with
      | .ok (some v) => [v]
      | _ => []
    (forms, c.world)

/-- The symbol by which the operation names a namespace or a var, if it names one. -/
def argument? : Operation → Option Symbol
  | openNamespace x | getNamespace x | removeNamespace x | var _ x | findVar _ x => some x
  | _ => none

/-- The namespace that the operation is given, if it is given one. -/
def space? : Operation → Option Namespace
  | var n _ | findVar n _ => some n
  | _ => none

/-- Whether the operation reads a text. -/
def isReading : Operation → Bool
  | read .. | next .. => true
  | _ => false

/-- What every part of the operation keeps. -/
structure Keeps (op : Operation) (P : Store → Prop) : Prop where
  services : ∀ env, (Services.standard env).Keeps P
  symbol : ∀ {s} q, P s → P (s.symbol q).2
  rawSymbol : ∀ {s} q, P s → P (s.rawSymbol q).2
  openNamespace : ∀ {s x}, op = .openNamespace x → P s → P (s.openNamespace x).2
  removeNamespace : ∀ {s x}, op = .removeNamespace x → P s → P (s.removeNamespace x).2
  var : ∀ {s n x}, op = .var n x → P s → P (s.var n x).2

variable {P : Store → Prop} {op : Operation} {s : Store}

theorem Keeps.run (hk : op.Keeps P) (h : P s) : P (op.run s).2 := by
  cases op with
  | symbol q => exact hk.symbol q h
  | rawSymbol q => exact hk.rawSymbol q h
  | copy x => exact hk.symbol x.toQName h
  | openNamespace x => exact hk.openNamespace rfl h
  | getNamespace | findVar => exact h
  | removeNamespace x => exact hk.removeNamespace rfl h
  | var n x => exact hk.var rfl h
  | internVar ns name => exact (hk.services .standard).var ns name h
  | read env opts source => exact ((hk.services env).yields.read opts source h).1
  | next env endIsError cursor suppressions =>
    exact ((hk.services env).yields.next endIsError ⟨cursor, suppressions, s⟩ h).1

/-- What the services see to holds of the forms that are read. -/
theorem forms_of_yields {Q : Store → Form → Prop} (hop : op.isReading = true)
    (hy : ∀ env, (Services.standard env).Yields P Q) (h : P s) :
    ∀ v ∈ (op.run s).1, Q (op.run s).2 v := by
  cases op with
  | read env opts source => exact ((hy env).read opts source h).2
  | next env endIsError cursor suppressions =>
    have hnext := ((hy env).next endIsError ⟨cursor, suppressions, s⟩ h).2
    intro v hv
    simp only [run] at hv
    split at hv
    next hr =>
      obtain rfl := List.mem_singleton.1 hv
      exact hnext v hr
    next => cases hv
  | _ => cases hop

/-- No other operation answers with a list. -/
theorem isList_of_mem_run (hop : op.isReading = false) : ∀ v ∈ (op.run s).1, v.isList = false := by
  cases op with
  | read | next => cases hop
  | getNamespace | removeNamespace | findVar =>
    intro v hv
    obtain ⟨_, -, rfl⟩ := List.mem_map.1 hv
    rfl
  | _ =>
    intro v hv
    obtain rfl := List.mem_singleton.1 hv
    rfl

/-- An operation is nothing but changes. -/
theorem becomes (op : Operation) (s : Store) : s.Becomes (op.run s).2 :=
  Keeps.run
    { services := keeps_of_becomes fun hb h => h.trans hb
      symbol := fun q h => h.trans (becomes_symbol _ q)
      rawSymbol := fun q h => h.trans (becomes_rawSymbol _ q)
      openNamespace := fun _ h => h.trans (becomes_openNamespace _ _)
      removeNamespace := fun _ h => h.trans (becomes_removeNamespace _ _)
      var := fun _ h => h.trans (becomes_var _ _ _) }
    (.refl s)

/-- Whatever holds as long as nothing is taken away is kept but by removals. -/
theorem keeps_of_extends (hP : ∀ {s t : Store}, s.Extends t → P s → P t)
    (hremove : ∀ {s x}, op = .removeNamespace x → P s → P (s.removeNamespace x).2) :
    op.Keeps P where
  services env := Store.keeps_of_extends hP env
  symbol q h := hP (extends_symbol _ q) h
  rawSymbol q h := hP (extends_rawSymbol _ q) h
  openNamespace _ h := hP (extends_openNamespace _ _) h
  removeNamespace := hremove
  var _ h := hP (extends_var _ _ _) h

end Operation

/-! ### Histories -/

/-- The store after a history. -/
def after : List Operation → Store
  | [] => .empty
  | op :: past => (op.run (after past)).2

/-- The namespace was registered at some moment. -/
def Created (h : List Operation) (n : Namespace) : Prop :=
  ∃ past q, past <:+ h ∧ (q, n) ∈ (after past).namespaces

/-- It holds of every operation and what came before it. -/
def Throughout (C : Operation → List Operation → Prop) (h : List Operation) : Prop :=
  ∀ op past, op :: past <:+ h → C op past

/-- A program can only name a namespace that was created. -/
def Legal : List Operation → Prop :=
  Throughout fun op past => ∀ n, op.space? = some n → Created past n

variable {h past : List Operation} {op : Operation} {n : Namespace} {s : Store}
  {ns : List Namespace}

theorem Created.mono (hn : Created past n) (hpast : past <:+ h) : Created h n := by
  obtain ⟨early, q, hearly, hmem⟩ := hn
  exact ⟨early, q, hearly.trans hpast, hmem⟩

namespace Throughout

variable {C : Operation → List Operation → Prop}

theorem nil : Throughout C [] := fun _ _ hop => nomatch List.suffix_nil.1 hop

theorem cons (hh : Throughout C past) (hop : C op past) : Throughout C (op :: past) := by
  intro op' early hearly
  rcases List.suffix_cons_iff.1 hearly with he | hearly
  · obtain ⟨rfl, rfl⟩ := List.cons.inj he
    exact hop
  · exact hh op' early hearly

theorem of_suffix (hh : Throughout C h) (hpast : past <:+ h) : Throughout C past :=
  fun op early hearly => hh op early (hearly.trans hpast)

end Throughout

theorem Legal.of_suffix (hl : Legal h) (hpast : past <:+ h) : Legal past :=
  Throughout.of_suffix hl hpast

theorem becomes_after (later h : List Operation) : (after h).Becomes (after (later ++ h)) := by
  induction later with
  | nil => exact .refl _
  | cons op later ih => exact ih.trans (op.becomes _)

theorem becomes_of_suffix (hpast : past <:+ h) : (after past).Becomes (after h) := by
  obtain ⟨later, rfl⟩ := hpast
  exact becomes_after later past

theorem tables_after (h : List Operation) : (after h).Tables := by
  have hbecomes := becomes_after h []
  rw [List.append_nil] at hbecomes
  exact hbecomes.tables .empty

/-! ### Legal histories -/

/-- An operation on namespaces that were created leads on to a store of a program. -/
theorem Operation.reaches (hs : Reachable ns s) (hop : ∀ n, op.space? = some n → n ∈ ns) :
    ∃ ms, ns ⊆ ms ∧ Reachable ms (op.run s).2 := by
  refine Keeps.run (P := fun s => ∃ ms, ns ⊆ ms ∧ Reachable ms s) ?_ ⟨ns, List.Subset.refl ns, hs⟩
  exact
    { services := fun env => keeps_reachable env ns
      symbol := fun q ⟨ms, hms, hs⟩ => ⟨ms, hms, hs.symbol q⟩
      rawSymbol := fun q ⟨ms, hms, hs⟩ => ⟨ms, hms, hs.rawSymbol q⟩
      openNamespace := fun _ ⟨ms, hms, hs⟩ =>
        ⟨_, List.subset_cons_of_subset _ hms, hs.openNamespace _⟩
      removeNamespace := fun _ ⟨ms, hms, hs⟩ => ⟨ms, hms, hs.removeNamespace _⟩
      var := fun he ⟨ms, hms, hs⟩ => ⟨ms, hms, hs.var (hms (hop _ (he ▸ rfl))) _⟩ }

/-- A legal history leads to a store of a program that has created the same namespaces. -/
theorem Legal.reachable (hl : Legal h) :
    ∃ ns, Reachable ns (after h) ∧ ∀ n, Created h n → n ∈ ns := by
  induction h with
  | nil =>
    refine ⟨[], .empty, fun n ⟨past, q, hpast, hmem⟩ => ?_⟩
    rw [List.suffix_nil.1 hpast] at hmem
    exact (List.not_mem_nil hmem).elim
  | cons op past ih =>
    obtain ⟨ns, hs, hcreated⟩ := ih (hl.of_suffix (List.suffix_cons op past))
    obtain ⟨ms, hms, hreach⟩ := op.reaches hs fun n hn =>
      hcreated n (hl op past List.suffix_rfl n hn)
    refine ⟨ms, hreach, fun n ⟨early, q, hearly, hmem⟩ => ?_⟩
    rcases List.suffix_cons_iff.1 hearly with rfl | hearly
    · exact (hreach.sound.namespaces hmem).2
    · exact hms (hcreated n ⟨early, q, hearly, hmem⟩)

end Store
end LispForms
