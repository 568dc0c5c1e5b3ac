import LispForms.Symbol
import Mathlib.Data.Prod.Lex
import Mathlib.Data.String.Basic
import Mathlib.Order.WithBot

/-! The order of symbols. Names have ranks in a linear order: a name without a namespace ranks below
all that have one, and the others rank by their namespace and then by themselves. Comparing names is
comparing their ranks, so that every law of the order is one of the linear order. -/

namespace LispForms

/-! ### Ranks -/

namespace QName

variable {a b c : QName}

/-- The place of a name in the order. -/
def rank (q : QName) : WithBot String ×ₗ String := toLex ((q.ns : WithBot String), q.name)

theorem rank_inj : a.rank = b.rank ↔ a = b := by
  refine ⟨fun h => ?_, congrArg rank⟩
  obtain ⟨hns, hname⟩ := Prod.mk.inj (toLex.injective h)
  obtain ⟨name, ns⟩ := a
  exact congrArg₂ QName.mk hname hns

theorem before_iff : a.before b = true ↔ a.rank < b.rank := by
  obtain ⟨m, ns⟩ := a
  obtain ⟨n, ns'⟩ := b
  -- the first components as they are, with an absent namespace as the bottom element
  have hrank (s t : WithBot String) :
      (toLex (s, m) : WithBot String ×ₗ String) < toLex (t, n) ↔ s < t ∨ s = t ∧ m < n :=
    Prod.Lex.toLex_lt_toLex
  cases ns with
  | none =>
    cases ns' with
    | none =>
      refine decide_eq_true_iff.trans (Iff.trans ?_ (hrank ⊥ ⊥).symm)
      rw [or_iff_right (lt_irrefl _), and_iff_right rfl]
    | some t => exact iff_of_true rfl ((hrank ⊥ t).2 (.inl (WithBot.bot_lt_coe t)))
  | some s =>
    cases ns' with
    | none =>
      refine iff_of_false Bool.false_ne_true fun h => ?_
      rcases (hrank s ⊥).1 h with h | ⟨h, -⟩
      · exact not_lt_bot h
      · exact WithBot.coe_ne_bot h
    | some t =>
      refine Iff.trans ?_ (hrank s t).symm
      rw [WithBot.coe_lt_coe, WithBot.coe_inj]
      simp only [before, Bool.or_eq_true, Bool.and_eq_true, decide_eq_true_eq, beq_iff_eq]

theorem not_before_iff : (!a.before b) = true ↔ b.rank ≤ a.rank := by
  rw [Bool.not_eq_true', ← Bool.not_eq_true, before_iff, not_lt]

theorem atMost_iff : a.atMost b = true ↔ a.rank ≤ b.rank := by
  rw [atMost, Bool.or_eq_true, before_iff, beq_iff_eq, ← rank_inj, le_iff_lt_or_eq]

theorem atLeast_iff : a.atLeast b = true ↔ b.rank ≤ a.rank := not_before_iff

theorem after_iff : a.after b = true ↔ b.rank < a.rank := by
  rw [after, Bool.and_eq_true, not_before_iff, bne_iff_ne, Ne, ← rank_inj, lt_iff_le_and_ne,
    ne_comm]

/-! ### Sorting -/

theorem sort_perm (qs : List QName) : (sort qs).Perm qs := List.mergeSort_perm _ _

theorem sort_pairwise (qs : List QName) : (sort qs).Pairwise fun a b => a.rank ≤ b.rank := by
  have htrans (a b c : QName) (h : (!b.before a) = true) (h' : (!c.before b) = true) :
      (!c.before a) = true := by
    rw [not_before_iff] at h h' ⊢
    exact h.trans h'
  have htotal (a b : QName) : ((!b.before a) || (!a.before b)) = true := by
    rw [Bool.or_eq_true, not_before_iff, not_before_iff]
    exact le_total _ _
  exact (List.pairwise_mergeSort htrans htotal qs).imp not_before_iff.1

/-- Names of one rank are one name, so that sorting forgets how a list was arranged. -/
theorem sort_eq_of_perm {qs rs : List QName} (h : qs.Perm rs) : sort qs = sort rs := by
  have hperm : (sort qs).Perm (sort rs) := (sort_perm qs).trans (h.trans (sort_perm rs).symm)
  refine hperm.eq_of_pairwise (fun a b _ _ hab hba => ?_) (sort_pairwise qs) (sort_pairwise rs)
  exact rank_inj.1 (le_antisymm hab hba)

end QName

/-! ### Symbols -/

namespace Symbol

variable {a b : Symbol} {op : Comparison}

/-- The comparison of two symbols holds. -/
def Compares (op : Comparison) (a b : Symbol) : Prop :=
  op.holds a.toQName (.symbol b.toQName) = .ok true

/-- The symbols have one name, whether or not they are one object. -/
def Equals (a b : Symbol) : Prop := (Comparand.symbol b.toQName).isEqualTo a.toQName = true

theorem compares_lt_iff : Compares .lt a b ↔ a.rank < b.rank := by
  rw [Compares, Comparison.holds, Except.ok.injEq, QName.before_iff]

theorem compares_le_iff : Compares .le a b ↔ a.rank ≤ b.rank := by
  rw [Compares, Comparison.holds, Except.ok.injEq, QName.atMost_iff]

theorem compares_gt_iff : Compares .gt a b ↔ b.rank < a.rank := by
  rw [Compares, Comparison.holds, Except.ok.injEq, QName.after_iff]

theorem compares_ge_iff : Compares .ge a b ↔ b.rank ≤ a.rank := by
  rw [Compares, Comparison.holds, Except.ok.injEq, QName.atLeast_iff]

theorem equals_iff : Equals a b ↔ a.rank = b.rank := by
  rw [Equals, Comparand.isEqualTo, beq_iff_eq, Comparand.symbol.injEq, QName.rank_inj, eq_comm]

theorem compares_lt_of_ns (ha : a.ns = none) (hb : b.ns.isSome = true) : Compares .lt a b := by
  obtain ⟨t, ht⟩ := Option.isSome_iff_exists.1 hb
  show Except.ok (a.before b.toQName) = .ok true
  rw [QName.before, ha, ht]

/-- Ascending, equal symbols in their given order. -/
def sort (xs : List Symbol) : List Symbol := xs.mergeSort fun a b => !b.before a.toQName

/-- Symbols are sorted as their names are. -/
theorem map_toQName_sort (xs : List Symbol) :
    (sort xs).map toQName = QName.sort (xs.map toQName) :=
  List.map_mergeSort fun _ _ _ _ => rfl

theorem sort_pairwise (xs : List Symbol) : (sort xs).Pairwise (Compares .le) := by
  have h := QName.sort_pairwise (xs.map toQName)
  rw [← map_toQName_sort, List.pairwise_map] at h
  exact h.imp compares_le_iff.2

/-- Symbols are totally ordered by name, those without a namespace before all others, and no
comparison of symbols fails. Of any two exactly one is less, or they are equal; the other three
comparisons say what follows from that. Sorting puts a list in ascending order, and how it was
arranged before does not show in the names. -/
theorem totally_ordered :
    (∀ op (a b : Symbol), ∃ r, Comparison.holds op a.toQName (.symbol b.toQName) = .ok r) ∧
    (∀ a b, Compares .lt a b ∧ ¬ Equals a b ∧ ¬ Compares .lt b a ∨
      ¬ Compares .lt a b ∧ Equals a b ∧ ¬ Compares .lt b a ∨
      ¬ Compares .lt a b ∧ ¬ Equals a b ∧ Compares .lt b a) ∧
    (∀ a b c, Compares .lt a b → Compares .lt b c → Compares .lt a c) ∧
    (∀ a b, (Compares .le a b ↔ Compares .lt a b ∨ Equals a b) ∧
      (Compares .gt a b ↔ Compares .lt b a) ∧
      (Compares .ge a b ↔ Compares .lt b a ∨ Equals a b)) ∧
    (∀ a b : Symbol, a.ns = none → b.ns.isSome = true → Compares .lt a b) ∧
    (∀ xs, (sort xs).Perm xs ∧ (sort xs).Pairwise (Compares .le) ∧
      (sort xs).map toQName = QName.sort (xs.map toQName)) ∧
    ∀ xs ys : List Symbol, xs.Perm ys → (sort xs).map toQName = (sort ys).map toQName := by
  refine ⟨fun op a b => ⟨_, rfl⟩, fun a b => ?_, fun a b c h h' => ?_, fun a b => ⟨?_, ?_, ?_⟩,
    fun a b => compares_lt_of_ns,
    fun xs => ⟨List.mergeSort_perm _ _, sort_pairwise xs, map_toQName_sort xs⟩, fun xs ys h => ?_⟩
  · rw [compares_lt_iff, compares_lt_iff, equals_iff]
    rcases lt_trichotomy a.rank b.rank with h | h | h
    · exact .inl ⟨h, h.ne, h.not_gt⟩
    · exact .inr (.inl ⟨h.not_lt, h, h.not_gt⟩)
    · exact .inr (.inr ⟨h.not_gt, h.ne', h⟩)
  · rw [compares_lt_iff] at h h' ⊢
    exact h.trans h'
  · rw [compares_le_iff, compares_lt_iff, equals_iff, le_iff_lt_or_eq]
  · rw [compares_gt_iff, compares_lt_iff]
  · rw [compares_ge_iff, compares_lt_iff, equals_iff, le_iff_lt_or_eq, eq_comm]
  · rw [map_toQName_sort, map_toQName_sort]
    exact QName.sort_eq_of_perm (h.map toQName)

end Symbol
end LispForms
