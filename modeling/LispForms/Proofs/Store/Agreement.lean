import LispForms.Proofs.Keeping

/-! Stores that differ in nothing but their journals. The standard services never look at the
journal: such stores give the same answers and go on differing in nothing else. -/

namespace LispForms

namespace Store

/-- The stores are the same but for their journals. -/
def Agrees (s t : Store) : Prop := ∃ journal, t = { s with journal }

variable {s t : Store}

theorem Agrees.refl (s : Store) : s.Agrees s := ⟨s.journal, rfl⟩

theorem Agrees.note_right (h : s.Agrees t) (level : Nat) (logger message : String) :
    s.Agrees (t.note level logger message) := by
  obtain ⟨j, rfl⟩ := h
  exact ⟨_, rfl⟩

theorem Agrees.note_left (h : s.Agrees t) (level : Nat) (logger message : String) :
    (s.note level logger message).Agrees t := by
  obtain ⟨j, rfl⟩ := h
  exact ⟨_, rfl⟩

theorem Agrees.symbol (h : s.Agrees t) (q : QName) :
    (t.symbol q).1 = (s.symbol q).1 ∧ (s.symbol q).2.Agrees (t.symbol q).2 := by
  obtain ⟨j, rfl⟩ := h
  simp only [Store.symbol]
  cases s.symbols.lookup q with
  | some x => exact ⟨rfl, j, rfl⟩
  | none => exact ⟨rfl, j, rfl⟩

theorem Agrees.openNamespace (h : s.Agrees t) (x : Symbol) :
    (t.openNamespace x).1 = (s.openNamespace x).1 ∧
      (s.openNamespace x).2.Agrees (t.openNamespace x).2 := by
  obtain ⟨j, rfl⟩ := h
  simp only [Store.openNamespace, namespace?]
  cases s.namespaces.lookup x.toQName with
  | some n => exact ⟨rfl, j, rfl⟩
  | none => exact ⟨rfl, _, rfl⟩

theorem Agrees.var (h : s.Agrees t) (n : Namespace) (x : Symbol) :
    (t.var n x).1 = (s.var n x).1 ∧ (s.var n x).2.Agrees (t.var n x).2 := by
  obtain ⟨j, rfl⟩ := h
  simp only [Store.var, var?]
  cases s.vars.lookup (n.id, x.toQName) with
  | some v => exact ⟨rfl, j, rfl⟩
  | none => exact ⟨rfl, j, rfl⟩

theorem Agrees.internVar (h : s.Agrees t) (ns name : String) :
    (t.internVar ns name).1 = (s.internVar ns name).1 ∧
      (s.internVar ns name).2.Agrees (t.internVar ns name).2 := by
  obtain ⟨hx, h⟩ := h.symbol ⟨ns, none⟩
  obtain ⟨hn, h⟩ := h.openNamespace (s.symbol ⟨ns, none⟩).1
  obtain ⟨hy, h⟩ := h.symbol ⟨name, none⟩
  simp only [Store.internVar]
  rw [hx, hn, hy]
  exact h.var _ _

/-- Resolution does no more to a store than to report. -/
theorem resolve_keeps {P : Store → Prop}
    (hnote : ∀ (s : Store) (n : Note), P s → P { s with journal := n :: s.journal })
    (env : Host.Environment) (path : String) {s : Store} (h : P s) : P (s.resolve env path).2 := by
  have hfold (messages : List String) : ∀ {s : Store}, P s →
      P (messages.foldl (·.note Level.debug Store.logger ·) s) := by
    induction messages with
    | nil => exact id
    | cons message messages ih => exact fun h => ih (hnote _ ⟨Level.debug, Store.logger, message⟩ h)
  exact hfold _ h

theorem agrees_resolve (s : Store) (env : Host.Environment) (path : String) :
    s.Agrees (s.resolve env path).2 :=
  resolve_keeps (fun _ n h => h.note_right n.level n.logger n.message) env path (.refl s)

theorem Agrees.resolve (h : s.Agrees t) (env : Host.Environment) (path : String) :
    (t.resolve env path).1 = (s.resolve env path).1 ∧
      (s.resolve env path).2.Agrees (t.resolve env path).2 := by
  refine ⟨rfl, ?_⟩
  obtain ⟨j, hj⟩ := s.agrees_resolve env path
  obtain ⟨k, hk⟩ := t.agrees_resolve env path
  obtain ⟨i, rfl⟩ := h
  exact ⟨k, by rw [hj, hk]⟩

end Store

theorem Services.respects_standard (env : Host.Environment) :
    (standard env).Respects Store.Agrees where
  symbol name h := ⟨congrArg Form.symbol (h.symbol ⟨name, none⟩).1, (h.symbol ⟨name, none⟩).2⟩
  var ns name h := ⟨congrArg Form.var (h.internVar ns name).1, (h.internVar ns name).2⟩
  host path h := h.resolve env path
  note n h := (h.note_left n.level n.logger n.message).note_right n.level n.logger n.message

end LispForms
