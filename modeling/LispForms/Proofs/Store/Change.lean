import LispForms.Proofs.Store.Extension
import Mathlib.Data.List.Nodup
import Mathlib.Logic.Relation

/-! The changes of a store, one entry at a time. The tables of symbols and of vars only grow, no
table has a key twice, and a number once used is never used again, so that an object that is not in
a table will never be in it. -/

namespace LispForms

namespace Store

/-! ### Tables -/

section Tables

variable {K V : Type} {number : V → ℕ} {bound i : ℕ} {l : List (K × V)} {k : K} {v : V}

/-- A table with no key twice, whose values are told apart by numbers below a bound. -/
structure Numbered (number : V → ℕ) (bound : ℕ) (l : List (K × V)) : Prop where
  keys : (l.map Prod.fst).Nodup
  numbers : (l.map fun e => number e.2).Nodup
  below : ∀ e ∈ l, number e.2 < bound

/-- A number that was given away, to none of the values in a table. -/
structure Spent (number : V → ℕ) (i bound : ℕ) (l : List (K × V)) : Prop where
  below : i < bound
  absent : ∀ e ∈ l, number e.2 ≠ i

theorem Numbered.nil : Numbered number bound ([] : List (K × V)) :=
  ⟨List.nodup_nil, List.nodup_nil, fun _ h => (List.not_mem_nil h).elim⟩

theorem Numbered.mono (h : Numbered number bound l) : Numbered number (bound + 1) l :=
  ⟨h.keys, h.numbers, fun e he => Nat.lt_succ_of_lt (h.below e he)⟩

theorem Numbered.sublist {l' : List (K × V)} (h : Numbered number bound l) (hl : l'.Sublist l) :
    Numbered number bound l' :=
  ⟨h.keys.sublist (hl.map _), h.numbers.sublist (hl.map _), fun e he => h.below e (hl.mem he)⟩

theorem Numbered.cons [BEq K] [LawfulBEq K] (h : Numbered number bound l)
    (hk : l.lookup k = none) (hv : number v = bound) :
    Numbered number (bound + 1) ((k, v) :: l) := by
  have hkey : k ∉ l.map Prod.fst := by
    intro hmem
    obtain ⟨e, he, rfl⟩ := List.mem_map.1 hmem
    simpa using List.lookup_eq_none_iff.1 hk e he
  have hnumber : number v ∉ l.map fun e => number e.2 := by
    intro hmem
    obtain ⟨e, he, heq⟩ := List.mem_map.1 hmem
    exact Nat.ne_of_lt (h.below e he) (heq.trans hv)
  refine ⟨List.nodup_cons.2 ⟨hkey, h.keys⟩, List.nodup_cons.2 ⟨hnumber, h.numbers⟩, ?_⟩
  exact List.forall_mem_cons.2 ⟨hv ▸ Nat.lt_succ_self _, h.mono.below⟩

/-- In such a table whatever is there is found. -/
theorem Numbered.lookup [BEq K] [LawfulBEq K] (h : Numbered number bound l) (hmem : (k, v) ∈ l) :
    l.lookup k = some v := by
  obtain ⟨l₁, l₂, rfl⟩ := List.append_of_mem hmem
  refine List.lookup_eq_some_iff.2 ⟨l₁, l₂, rfl, fun e he => bne_iff_ne.2 ?_⟩
  have hkeys := h.keys
  rw [List.map_append, List.nodup_append] at hkeys
  exact (hkeys.2.2 e.1 (List.mem_map_of_mem he) k List.mem_cons_self).symm

theorem Numbered.eq_of_number (h : Numbered number bound l) {k' : K} {v' : V} (hmem : (k, v) ∈ l)
    (hmem' : (k', v') ∈ l) (heq : number v = number v') : k = k' ∧ v = v' :=
  Prod.mk.inj (List.inj_on_of_nodup_map h.numbers hmem hmem' heq)

theorem Spent.mono (h : Spent number i bound l) : Spent number i (bound + 1) l :=
  ⟨Nat.lt_succ_of_lt h.below, h.absent⟩

theorem Spent.sublist {l' : List (K × V)} (h : Spent number i bound l) (hl : l'.Sublist l) :
    Spent number i bound l' :=
  ⟨h.below, fun e he => h.absent e (hl.mem he)⟩

theorem Spent.cons (h : Spent number i bound l) (hv : number v = bound) :
    Spent number i (bound + 1) ((k, v) :: l) := by
  refine ⟨h.mono.below, List.forall_mem_cons.2 ⟨?_, h.absent⟩⟩
  exact (hv ▸ Nat.ne_of_lt h.below).symm

end Tables

/-! ### Changes -/

/-- One change of a store. Only namespaces are ever taken out of their table. -/
inductive Change : Store → Store → Prop
  | note {s : Store} (n : Note) : Change s { s with journal := n :: s.journal }
  /-- An object that goes into no table. -/
  | object {s : Store} : Change s { s with nextId := s.nextId + 1 }
  | symbol {s : Store} {q : QName} (h : s.symbols.lookup q = none) : Change s
    { s with nextId := s.nextId + 1, symbols := (q, ⟨q, s.nextId⟩) :: s.symbols }
  | space {s : Store} {x : Symbol} (h : s.namespaces.lookup x.toQName = none) : Change s
    { s with nextId := s.nextId + 1, namespaces := (x.toQName, ⟨s.nextId, x⟩) :: s.namespaces }
  | var {s : Store} {n : Namespace} {x : Symbol} (h : s.vars.lookup (n.id, x.toQName) = none) :
    Change s
      { s with nextId := s.nextId + 1, vars := ((n.id, x.toQName), ⟨s.nextId, n, x⟩) :: s.vars }
  | removal {s : Store} (q : QName) :
    Change s { s with namespaces := s.namespaces.filter (·.1 != q) }

/-- The tables of a store are in order, and the symbols stand under their names. -/
structure Tables (s : Store) : Prop where
  symbols : Numbered Symbol.id s.nextId s.symbols
  names : ∀ e ∈ s.symbols, e.2.toQName = e.1
  namespaces : Numbered Namespace.id s.nextId s.namespaces
  vars : Numbered Var.id s.nextId s.vars

variable {s t u : Store} {i : ℕ}

theorem Tables.empty : Tables .empty :=
  ⟨.nil, fun _ h => (List.not_mem_nil h).elim, .nil, .nil⟩

namespace Change

theorem tables (h : Change s t) (hs : s.Tables) : t.Tables := by
  cases h with
  | note n => exact ⟨hs.symbols, hs.names, hs.namespaces, hs.vars⟩
  | object => exact ⟨hs.symbols.mono, hs.names, hs.namespaces.mono, hs.vars.mono⟩
  | symbol h =>
    exact ⟨hs.symbols.cons h rfl, List.forall_mem_cons.2 ⟨rfl, hs.names⟩, hs.namespaces.mono,
      hs.vars.mono⟩
  | space h => exact ⟨hs.symbols.mono, hs.names, hs.namespaces.cons h rfl, hs.vars.mono⟩
  | var h => exact ⟨hs.symbols.mono, hs.names, hs.namespaces.mono, hs.vars.cons h rfl⟩
  | removal q =>
    exact ⟨hs.symbols, hs.names, hs.namespaces.sublist List.filter_sublist, hs.vars⟩

theorem symbols_suffix (h : Change s t) : s.symbols <:+ t.symbols := by
  cases h with
  | symbol h => exact List.suffix_cons _ _
  | _ => exact List.suffix_rfl

theorem vars_suffix (h : Change s t) : s.vars <:+ t.vars := by
  cases h with
  | var h => exact List.suffix_cons _ _
  | _ => exact List.suffix_rfl

/-- No symbol that was left out of the table is put into it. -/
theorem spent_symbol (h : Change s t) (hs : Spent Symbol.id i s.nextId s.symbols) :
    Spent Symbol.id i t.nextId t.symbols := by
  cases h with
  | note | removal => exact hs
  | object | space | var => exact hs.mono
  | symbol h => exact hs.cons rfl

/-- No namespace that was taken out of the table is put back. -/
theorem spent_namespace (h : Change s t) (hs : Spent Namespace.id i s.nextId s.namespaces) :
    Spent Namespace.id i t.nextId t.namespaces := by
  cases h with
  | note => exact hs
  | object | symbol | var => exact hs.mono
  | space h => exact hs.cons rfl
  | removal q => exact hs.sublist List.filter_sublist

end Change

/-- The second store comes of the first by changes. -/
def Becomes : Store → Store → Prop := Relation.ReflTransGen Change

namespace Becomes

theorem refl (s : Store) : s.Becomes s := Relation.ReflTransGen.refl

theorem trans (h : s.Becomes t) (h' : t.Becomes u) : s.Becomes u := Relation.ReflTransGen.trans h h'

theorem of_change (h : Change s t) : s.Becomes t := Relation.ReflTransGen.single h

/-- What every change keeps is kept. -/
theorem keeps {P : Store → Prop} (hP : ∀ {s t}, Change s t → P s → P t) (h : s.Becomes t)
    (hs : P s) : P t := by
  induction h with
  | refl => exact hs
  | tail _ hchange ih => exact hP hchange ih

theorem tables (h : s.Becomes t) (hs : s.Tables) : t.Tables := h.keeps Change.tables hs

theorem symbols_suffix (h : s.Becomes t) : s.symbols <:+ t.symbols :=
  h.keeps (P := fun t => s.symbols <:+ t.symbols) (fun hc hs => hs.trans hc.symbols_suffix)
    List.suffix_rfl

theorem vars_suffix (h : s.Becomes t) : s.vars <:+ t.vars :=
  h.keeps (P := fun t => s.vars <:+ t.vars) (fun hc hs => hs.trans hc.vars_suffix) List.suffix_rfl

theorem spent_symbol (h : s.Becomes t) (hs : Spent Symbol.id i s.nextId s.symbols) :
    Spent Symbol.id i t.nextId t.symbols :=
  h.keeps (P := fun t => Spent Symbol.id i t.nextId t.symbols) Change.spent_symbol hs

theorem spent_namespace (h : s.Becomes t) (hs : Spent Namespace.id i s.nextId s.namespaces) :
    Spent Namespace.id i t.nextId t.namespaces :=
  h.keeps (P := fun t => Spent Namespace.id i t.nextId t.namespaces) Change.spent_namespace hs

end Becomes

/-! ### The changes of the operations -/

theorem becomes_rawSymbol (s : Store) (q : QName) : s.Becomes (s.rawSymbol q).2 :=
  .of_change .object

theorem becomes_symbol (s : Store) (q : QName) : s.Becomes (s.symbol q).2 := by
  unfold Store.symbol
  cases hx : s.symbols.lookup q with
  | some x => exact .refl s
  | none => exact .of_change (.symbol hx)

theorem becomes_openNamespace (s : Store) (x : Symbol) : s.Becomes (s.openNamespace x).2 := by
  unfold openNamespace
  cases hn : s.namespace? x with
  | some n => exact .refl s
  | none => exact (Becomes.of_change (.note _)).trans (.of_change (.space hn))

theorem becomes_removeNamespace (s : Store) (x : Symbol) : s.Becomes (s.removeNamespace x).2 := by
  unfold removeNamespace
  cases s.namespace? x with
  | some n => exact .of_change (.removal _)
  | none => exact .refl s

theorem becomes_var (s : Store) (n : Namespace) (x : Symbol) : s.Becomes (s.var n x).2 := by
  unfold Store.var
  cases hv : s.var? n x with
  | some v => exact .refl s
  | none => exact .of_change (.var hv)

theorem becomes_internVar (s : Store) (ns name : String) : s.Becomes (s.internVar ns name).2 :=
  (((s.becomes_symbol _).trans (becomes_openNamespace _ _)).trans (becomes_symbol _ _)).trans
    (becomes_var _ _ _)

/-- What every change keeps, a reading keeps. -/
theorem keeps_of_becomes {P : Store → Prop} (hP : ∀ {s t}, Becomes s t → P s → P t)
    (env : Host.Environment) : (Services.standard env).Keeps P where
  symbol _ h := hP (becomes_symbol _ _) h
  var _ _ h := hP (becomes_internVar _ _ _) h
  host _ h := resolve_keeps (fun _ n h => hP (.of_change (.note n)) h) env _ h
  note n h := hP (.of_change (.note n)) h

end Store
end LispForms
