import LispForms.Proofs.Calls
import LispForms.Proofs.Store.Reachable

/-! What a reading does to the store. It does what its calls do, one after the other: every table
keeps the entries that it has and grows by those that the calls name and that it does not have yet,
whether or not the reading comes to the end of its text. -/

namespace LispForms

/-! ### Tables that grow -/

section Grows

variable {K V : Type} {l l' l'' : List (K × V)} {k : K} {v : V} {P Q : K → Prop}

/-- The first table is part of the second, which has the keys of the first and those that are
named. -/
structure Grows (l l' : List (K × V)) (named : K → Prop) : Prop where
  kept : l <:+ l'
  keys : ∀ k, k ∈ l'.map Prod.fst ↔ k ∈ l.map Prod.fst ∨ named k

namespace Grows

theorem refl (l : List (K × V)) : Grows l l fun _ => False :=
  ⟨List.suffix_rfl, fun _ => (or_false _).symm ▸ .rfl⟩

theorem cons (l : List (K × V)) (k : K) (v : V) : Grows l ((k, v) :: l) (· = k) := by
  refine ⟨List.suffix_cons _ _, fun i => ?_⟩
  rw [List.map_cons, List.mem_cons]
  exact or_comm

theorem of_lookup [BEq K] [LawfulBEq K] (h : l.lookup k = some v) : Grows l l (· = k) := by
  have hk : k ∈ l.map Prod.fst := List.mem_map_of_mem (Store.mem_of_lookup h)
  refine ⟨List.suffix_rfl, fun i => ⟨.inl, ?_⟩⟩
  rintro (hi | rfl)
  · exact hi
  · exact hk

theorem trans (h : Grows l l' P) (h' : Grows l' l'' Q) : Grows l l'' fun k => P k ∨ Q k := by
  refine ⟨h.kept.trans h'.kept, fun k => ?_⟩
  rw [h'.keys, h.keys, or_assoc]

theorem congr (h : Grows l l' P) (hpq : ∀ k, P k ↔ Q k) : Grows l l' Q :=
  ⟨h.kept, fun k => (h.keys k).trans (or_congr_right (hpq k))⟩

end Grows

theorem exists_lookup_of_mem [BEq K] [LawfulBEq K] (h : k ∈ l.map Prod.fst) :
    ∃ v, l.lookup k = some v := by
  rw [← Option.isSome_iff_exists, ← Option.ne_none_iff_isSome]
  intro hnone
  obtain ⟨e, he, rfl⟩ := List.mem_map.1 h
  simpa using List.lookup_eq_none_iff.1 hnone e he

end Grows

namespace Store

variable {ns : List Namespace} {s t u : Store}

/-! ### The effect of one operation -/

theorem grows_symbol (s : Store) (q : QName) : Grows s.symbols (s.symbol q).2.symbols (· = q) := by
  unfold Store.symbol
  cases hx : s.symbols.lookup q with
  | some x => exact .of_lookup hx
  | none => exact .cons _ _ _

theorem grows_openNamespace (s : Store) (x : Symbol) :
    Grows s.namespaces (s.openNamespace x).2.namespaces (· = x.toQName) := by
  unfold openNamespace
  cases hn : s.namespace? x with
  | some n => exact .of_lookup hn
  | none => exact .cons _ _ _

theorem grows_var (s : Store) (n : Namespace) (x : Symbol) :
    Grows s.vars (s.var n x).2.vars (· = (n.id, x.toQName)) := by
  unfold Store.var
  cases hv : s.var? n x with
  | some v => exact .of_lookup hv
  | none => exact .cons _ _ _

/-- Symbols are no namespaces and no vars. -/
theorem tables_symbol (s : Store) (q : QName) :
    (s.symbol q).2.namespaces = s.namespaces ∧ (s.symbol q).2.vars = s.vars := by
  unfold Store.symbol
  split <;> exact ⟨rfl, rfl⟩

theorem tables_openNamespace (s : Store) (x : Symbol) :
    (s.openNamespace x).2.symbols = s.symbols ∧ (s.openNamespace x).2.vars = s.vars := by
  unfold openNamespace
  split <;> exact ⟨rfl, rfl⟩

theorem tables_var (s : Store) (n : Namespace) (x : Symbol) :
    (s.var n x).2.symbols = s.symbols ∧ (s.var n x).2.namespaces = s.namespaces := by
  unfold Store.var
  split <;> exact ⟨rfl, rfl⟩

/-- A var reference interns its two names and registers a namespace and a var. -/
theorem Sound.grows_internVar (h : Sound ns s) (space name : String) :
    let t := (s.internVar space name).2
    Grows s.symbols t.symbols (fun q => q = ⟨space, none⟩ ∨ q = ⟨name, none⟩) ∧
    Grows s.namespaces t.namespaces (· = ⟨space, none⟩) ∧
    ∃ n, t.namespaces.lookup ⟨space, none⟩ = some n ∧
      Grows s.vars t.vars (· = (n.id, ⟨name, none⟩)) := by
  intro t
  -- the stores that the four steps leave, one after the other
  let x := (s.symbol ⟨space, none⟩).1
  let s₁ := (s.symbol ⟨space, none⟩).2
  let n := (s₁.openNamespace x).1
  let s₂ := (s₁.openNamespace x).2
  let y := (s₂.symbol ⟨name, none⟩).1
  let s₃ := (s₂.symbol ⟨name, none⟩).2
  have h₁ : Sound ns s₁ := h.symbol _
  have hx : x.toQName = ⟨space, none⟩ := h.toQName_symbol _
  have hy : y.toQName = ⟨name, none⟩ := (h₁.openNamespace x).toQName_symbol _
  obtain ⟨hspaces₁, hvars₁⟩ := s.tables_symbol ⟨space, none⟩
  obtain ⟨hsymbols₂, hvars₂⟩ := s₁.tables_openNamespace x
  obtain ⟨hspaces₃, hvars₃⟩ := s₂.tables_symbol ⟨name, none⟩
  obtain ⟨hsymbols₄, hspaces₄⟩ := s₃.tables_var n y
  have hspaces : t.namespaces = s₂.namespaces := hspaces₄.trans hspaces₃
  have hvars : s₃.vars = s.vars := hvars₃.trans (hvars₂.trans hvars₁)
  have hsymbols := s₂.grows_symbol ⟨name, none⟩
  have hopen := s₁.grows_openNamespace x
  have hvar := s₃.grows_var n y
  have hn := s₁.lookup_openNamespace x
  rw [hsymbols₂] at hsymbols
  rw [hspaces₁, hx] at hopen
  rw [hvars, hy] at hvar
  rw [hx] at hn
  refine ⟨?_, ?_, n, ?_, hvar⟩
  · exact hsymbols₄ ▸ (s.grows_symbol _).trans hsymbols
  · exact hspaces ▸ hopen
  · exact hspaces ▸ hn

end Store

/-! ### The effect of calls -/

namespace Call

/-- What the standard services do to a store for a call, but for the journal. -/
def perform (call : Call) (s : Store) : Store :=
  match call with
  | symbol name => (s.symbol ⟨name, none⟩).2
  | var ns name => (s.internVar ns name).2
  | host _ => s

/-- The names that are interned for a call. -/
def names : Call → List QName
  | symbol name => [⟨name, none⟩]
  | var ns name => [⟨ns, none⟩, ⟨name, none⟩]
  | host _ => []

end Call

namespace Store

variable {ns : List Namespace} {s t : Store} {call : Call} {calls : List Call}

/-- A store grows by what calls name: the symbols of all names, the namespaces of the var references
and in each namespace the vars of the references to it. -/
structure Grown (calls : List Call) (s t : Store) : Prop where
  symbols : Grows s.symbols t.symbols fun q => ∃ call ∈ calls, q ∈ call.names
  namespaces : Grows s.namespaces t.namespaces fun q => ∃ space name,
    .var space name ∈ calls ∧ q = ⟨space, none⟩
  vars : Grows s.vars t.vars fun k => ∃ space name n, .var space name ∈ calls ∧
    t.namespaces.lookup ⟨space, none⟩ = some n ∧ k = (n.id, ⟨name, none⟩)

theorem Running.perform (h : s.Running) (call : Call) : (call.perform s).Running := by
  cases call with
  | symbol name => exact (keeps_running .standard).symbol name h
  | var space name => exact (keeps_running .standard).var space name h
  | host path => exact h

namespace Grown

theorem nil (s : Store) : Grown [] s s := by
  refine ⟨(Grows.refl _).congr ?_, (Grows.refl _).congr ?_, (Grows.refl _).congr ?_⟩ <;> simp

theorem symbol (h : Grown calls s t) (name : String) :
    Grown (.symbol name :: calls) s ((Call.symbol name).perform t) := by
  obtain ⟨hspaces, hvars⟩ := t.tables_symbol ⟨name, none⟩
  refine ⟨(h.symbols.trans (t.grows_symbol _)).congr fun q => ?_, ?_, ?_⟩
  · simp [Call.names, or_comm]
  · simp only [Call.perform, hspaces]
    exact h.namespaces.congr fun q => by simp
  · simp only [Call.perform, hspaces, hvars]
    exact h.vars.congr fun k => by simp

theorem host (h : Grown calls s t) (path : String) :
    Grown (.host path :: calls) s ((Call.host path).perform t) := by
  refine ⟨h.symbols.congr fun q => ?_, h.namespaces.congr fun q => ?_, h.vars.congr fun k => ?_⟩
  · simp [Call.names]
  · simp
  · simp [Call.perform]

theorem var (h : Grown calls s t) (ht : t.Running) (space name : String) :
    Grown (.var space name :: calls) s ((Call.var space name).perform t) := by
  obtain ⟨ns, hreach⟩ := ht
  obtain ⟨hsymbols, hspaces, n, hn, hvars⟩ := hreach.sound.grows_internVar space name
  have hext := t.extends_internVar space name
  refine ⟨(h.symbols.trans hsymbols).congr fun q => ?_,
    (h.namespaces.trans hspaces).congr fun q => ?_, (h.vars.trans hvars).congr fun k => ?_⟩
  · simp [Call.names, or_comm]
  · constructor
    · rintro (⟨space', name', hmem, rfl⟩ | rfl)
      · exact ⟨space', name', .tail _ hmem, rfl⟩
      · exact ⟨space, name, List.mem_cons_self, rfl⟩
    · rintro ⟨space', name', hmem, rfl⟩
      rcases List.mem_cons.1 hmem with heq | hmem
      · cases heq
        exact .inr rfl
      · exact .inl ⟨space', name', hmem, rfl⟩
  · constructor
    · rintro (⟨space', name', n', hmem, hn', rfl⟩ | rfl)
      · exact ⟨space', name', n', .tail _ hmem, hext.namespaces hn', rfl⟩
      · exact ⟨space, name, n, List.mem_cons_self, hn, rfl⟩
    · rintro ⟨space', name', n', hmem, hn', rfl⟩
      rcases List.mem_cons.1 hmem with heq | hmem
      · cases heq
        obtain rfl := Option.some.inj (hn.symm.trans hn')
        exact .inr rfl
      · -- what the earlier reference has registered is registered still
        have hkey := (h.namespaces.keys ⟨space', none⟩).2 (.inr ⟨space', name', hmem, rfl⟩)
        obtain ⟨m, hm⟩ := exists_lookup_of_mem hkey
        obtain rfl := Option.some.inj ((hext.namespaces hm).symm.trans hn')
        exact .inl ⟨space', name', m, hmem, hm, rfl⟩

/-- One more call. -/
theorem cons (h : Grown calls s t) (ht : t.Running) (call : Call) :
    Grown (call :: calls) s (call.perform t) := by
  cases call with
  | symbol name => exact h.symbol name
  | var space name => exact h.var ht space name
  | host path => exact h.host path

theorem foldr (hs : s.Running) (calls : List Call) :
    (calls.foldr Call.perform s).Running ∧ Grown calls s (calls.foldr Call.perform s) := by
  induction calls with
  | nil => exact ⟨hs, .nil s⟩
  | cons call calls ih => exact ⟨ih.1.perform call, ih.2.cons ih.1 call⟩

theorem of_agrees {u : Store} (h : Grown calls s t) (hu : t.Agrees u) : Grown calls s u := by
  obtain ⟨j, rfl⟩ := hu
  exact ⟨h.symbols, h.namespaces, h.vars⟩

end Grown

/-! ### The effect of a reading -/

/-- The store is always the one that the calls so far lead to, but for the journal. -/
theorem keeps_performed (env : Host.Environment) (s : Store) :
    (Services.standard env).recorded.Keeps fun p => (p.1.foldr Call.perform s).Agrees p.2 where
  symbol name h := (h.symbol ⟨name, none⟩).2
  var space name h := (h.internVar space name).2
  host path h := resolve_keeps (fun _ n h => h.note_right n.level n.logger n.message) env path h
  note n h := h.note_right n.level n.logger n.message

theorem agrees_read (env : Host.Environment) (opts : Options) (text : String) (s : Store) :
    let r := read (Services.standard env).recorded opts (.ofString text) ([], s)
    (r.world.1.foldr Call.perform s).Agrees
      (read (.standard env) opts (.ofString text) s).world := by
  intro r
  rw [← (read_recorded (.standard env) opts text s).2.2]
  exact ((keeps_performed env s).yields.read (w := ([], s)) opts _ (.refl s)).1

end Store

/-- The calls of a reading, in the order in which they are made, are those of the lexemes that it
goes over, whatever the services answer, and a record of them changes nothing. With the standard
services the store is in the end as the calls by themselves leave it, but for the journal: it has
grown by what they name. -/
theorem read_calls (endIsError : Bool) (line col : Option Int) (text : String) :
    let opts : Options := ⟨endIsError, false, line, col⟩
    (∀ (W : Type) (sv : Services W) (w : W),
      let plain := read sv opts (.ofString text) w
      let r := read sv.recorded opts (.ofString text) ([], w)
      (r.forms = plain.forms ∧ r.fault = plain.fault ∧ r.world.2 = plain.world) ∧
      ∃ xs ys, GoesOver sv opts text w xs ys ∧
        r.world.1.reverse = xs.filterMap Lexeme.call?) ∧
    ∀ env s, s.Running →
      let calls := (read (Services.standard env).recorded opts (.ofString text) ([], s)).world.1
      let after := (read (.standard env) opts (.ofString text) s).world
      (calls.foldr Call.perform s).Agrees after ∧ Store.Grown calls s after := by
  intro opts
  refine ⟨fun W sv w => ⟨read_recorded sv opts text w, ?_⟩, fun env s hs => ?_⟩
  · exact exists_goesOver sv endIsError line col text w
  · have hagrees := Store.agrees_read env opts text s
    exact ⟨hagrees, (Store.Grown.foldr hs _).2.of_agrees hagrees⟩

/-- A reading that fails at a token inside of a list. -/
theorem read_calls_failed :
    let text := "a (b:c 1 str. \"d\" ; e\n .f 2x g)"
    let r := read (Services.standard .standard).recorded ⟨false, false, none, none⟩
      (.ofString text) ([], .empty)
    r.fault = some (.misread ⟨.token "2x", 2, 6, none⟩) ∧
      r.world.1.reverse = [.symbol "a", .var "b" "c", .host "str"] ∧ Store.empty.Running ∧
      Store.Grown r.world.1 .empty
        (read (.standard .standard) ⟨false, false, none, none⟩ (.ofString text) .empty).world :=
  ⟨by decide +kernel, by decide +kernel, ⟨[], .empty⟩,
    ((read_calls false none none _).2 .standard .empty ⟨[], .empty⟩).2⟩

end LispForms
