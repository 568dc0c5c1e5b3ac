import LispForms.Proofs.Store.Agreement

/-! Reading only adds to a store: what can be looked up before a reading is found unchanged after
it. Only removal takes an entry away. -/

namespace LispForms

namespace Store

/-- Whatever is found in the first store is found in the second. -/
structure Extends (s t : Store) : Prop where
  symbols : ∀ {q x}, s.symbols.lookup q = some x → t.symbols.lookup q = some x
  namespaces : ∀ {q n}, s.namespaces.lookup q = some n → t.namespaces.lookup q = some n
  vars : ∀ {k v}, s.vars.lookup k = some v → t.vars.lookup k = some v

variable {s t u : Store}

theorem Extends.refl (s : Store) : s.Extends s := ⟨id, id, id⟩

theorem Extends.trans (h : s.Extends t) (h' : t.Extends u) : s.Extends u :=
  ⟨fun e => h'.symbols (h.symbols e), fun e => h'.namespaces (h.namespaces e),
    fun e => h'.vars (h.vars e)⟩

/-- An entry with a key that is not found hides no other. -/
theorem lookup_cons_of_lookup {K V : Type} [BEq K] [LawfulBEq K] {l : List (K × V)} {k k' : K}
    {v v' : V} (hnone : l.lookup k' = none) (h : l.lookup k = some v) :
    ((k', v') :: l).lookup k = some v := by
  have hne : (k == k') = false := by
    refine beq_false_of_ne fun he => ?_
    rw [he, hnone] at h
    cases h
  rw [List.lookup_cons, hne]
  exact h

theorem extends_note (s : Store) (n : Note) : s.Extends { s with journal := n :: s.journal } :=
  ⟨id, id, id⟩

theorem extends_rawSymbol (s : Store) (q : QName) : s.Extends (s.rawSymbol q).2 := ⟨id, id, id⟩

theorem extends_symbol (s : Store) (q : QName) : s.Extends (s.symbol q).2 := by
  unfold Store.symbol
  cases hx : s.symbols.lookup q with
  | some x => exact .refl s
  | none => exact ⟨lookup_cons_of_lookup hx, id, id⟩

theorem extends_openNamespace (s : Store) (x : Symbol) : s.Extends (s.openNamespace x).2 := by
  unfold openNamespace
  cases hn : s.namespace? x with
  | some n => exact .refl s
  | none => exact ⟨id, lookup_cons_of_lookup hn, id⟩

theorem extends_var (s : Store) (n : Namespace) (x : Symbol) : s.Extends (s.var n x).2 := by
  unfold Store.var
  cases hv : s.var? n x with
  | some v => exact .refl s
  | none => exact ⟨id, id, lookup_cons_of_lookup hv⟩

theorem extends_internVar (s : Store) (ns name : String) : s.Extends (s.internVar ns name).2 :=
  (((s.extends_symbol _).trans (extends_openNamespace _ _)).trans (extends_symbol _ _)).trans
    (extends_var _ _ _)

theorem extends_resolve (env : Host.Environment) (path : String) (s : Store) :
    s.Extends (s.resolve env path).2 :=
  resolve_keeps (fun _ n h => h.trans (extends_note _ n)) env path (.refl s)

/-- What holds as long as nothing is taken away, a reading keeps. -/
theorem keeps_of_extends {P : Store → Prop} (hP : ∀ {s t}, Extends s t → P s → P t)
    (env : Host.Environment) : (Services.standard env).Keeps P where
  symbol _ h := hP (extends_symbol _ _) h
  var _ _ h := hP (extends_internVar _ _ _) h
  host _ h := hP (extends_resolve env _ _) h
  note _ h := hP (extends_note _ _) h

theorem keeps_extends (env : Host.Environment) (s : Store) :
    (Services.standard env).Keeps s.Extends :=
  keeps_of_extends (fun h h' => h'.trans h) env

/-! ### The same answers later -/

theorem lookup_symbol (s : Store) (q : QName) :
    (s.symbol q).2.symbols.lookup q = some (s.symbol q).1 := by
  unfold Store.symbol
  cases hx : s.symbols.lookup q with
  | some x => exact hx
  | none => exact List.lookup_cons_self

theorem lookup_openNamespace (s : Store) (x : Symbol) :
    (s.openNamespace x).2.namespaces.lookup x.toQName = some (s.openNamespace x).1 := by
  unfold Store.openNamespace
  cases hn : s.namespace? x with
  | some n => exact hn
  | none => exact List.lookup_cons_self

theorem lookup_var (s : Store) (n : Namespace) (x : Symbol) :
    (s.var n x).2.vars.lookup (n.id, x.toQName) = some (s.var n x).1 := by
  unfold Store.var
  cases hv : s.var? n x with
  | some v => exact hv
  | none => exact List.lookup_cons_self

/-- What was interned is found again as long as nothing is taken away. -/
theorem symbol_of_extends {q : QName} (h : (s.symbol q).2.Extends u) :
    u.symbol q = ((s.symbol q).1, u) := by
  rw [Store.symbol, h.symbols (s.lookup_symbol q)]

theorem openNamespace_of_extends {x : Symbol} (h : (s.openNamespace x).2.Extends u) :
    u.openNamespace x = ((s.openNamespace x).1, u) := by
  rw [Store.openNamespace, namespace?, h.namespaces (s.lookup_openNamespace x)]

theorem var_of_extends {n : Namespace} {x : Symbol} (h : (s.var n x).2.Extends u) :
    u.var n x = ((s.var n x).1, u) := by
  rw [Store.var, var?, h.vars (s.lookup_var n x)]

theorem internVar_of_extends {ns name : String} (h : (s.internVar ns name).2.Extends u) :
    u.internVar ns name = ((s.internVar ns name).1, u) := by
  -- the stores that the four steps leave, one after the other
  let s₁ := (s.symbol ⟨ns, none⟩).2
  let s₂ := (s₁.openNamespace (s.symbol ⟨ns, none⟩).1).2
  let s₃ := (s₂.symbol ⟨name, none⟩).2
  have h₃ : s₃.Extends u := (extends_var _ _ _).trans h
  have h₂ : s₂.Extends u := (extends_symbol _ _).trans h₃
  have h₁ : s₁.Extends u := (extends_openNamespace _ _).trans h₂
  simp only [Store.internVar, symbol_of_extends h₁, openNamespace_of_extends h₂,
    symbol_of_extends h₃]
  exact var_of_extends h

end Store

namespace Services

variable {locate : Problem → Fault} {cs : List Char} {v : Form} {s t u : Store}

theorem resolve_store (env : Host.Environment) (path : String) (s u : Store) :
    ((standard env).resolve locate path s).1 = ((standard env).resolve locate path u).1 := by
  simp only [resolve, standard, Store.resolve]
  cases (env.resolve path).result with
  | ok o => rfl
  | error f => cases f <;> rfl

/-- The value of a token stays the same as long as nothing is taken away. -/
theorem interpret_of_extends {env : Host.Environment}
    (h : (standard env).interpret locate cs s = (.ok v, t)) (hu : t.Extends u) :
    ∃ u', (standard env).interpret locate cs u = (.ok v, u') ∧ u.Extends u' := by
  have hext := (Store.keeps_extends env u).interpret (.refl u) locate cs
  suffices hv : ((standard env).interpret locate cs u).1 = .ok v from
    ⟨_, Prod.ext hv rfl, hext⟩
  unfold interpret at h ⊢
  cases hm : Token.classify cs with
  | none =>
    rw [hm] at h
    cases h
  | some km =>
    obtain ⟨k, m⟩ := km
    simp only [hm] at h ⊢
    cases m with
    | nil | integer | float | ratio | accessor =>
      exact congrArg Prod.fst h
    | symbol name =>
      obtain ⟨hv, rfl⟩ := Prod.mk.inj h
      rw [← hv]
      refine congrArg (fun p => Except.ok (Form.symbol p.1)) (Store.symbol_of_extends ?_)
      exact hu.trans (Store.extends_note _ _)
    | var ns name =>
      obtain ⟨hv, rfl⟩ := Prod.mk.inj h
      rw [← hv]
      refine congrArg (fun p => Except.ok (Form.var p.1)) (Store.internVar_of_extends ?_)
      exact hu.trans (Store.extends_note _ _)
    | className | instanceMember | staticMember =>
      have h := congrArg Prod.fst h
      simp only [value] at h ⊢
      rw [← h, resolve_store]

end Services
end LispForms
