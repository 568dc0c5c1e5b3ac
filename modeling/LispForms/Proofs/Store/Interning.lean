import LispForms.Proofs.Spelling
import LispForms.Proofs.Store.Answers

/-! Interning over whole histories. Every name has at most one symbol in the table, for ever, and
all symbols that a program gets by asking for them, by copying or by reading are from the table, so
that they are the same object exactly if they are equal. A symbol that was not interned when it was
made never is. -/

namespace LispForms

namespace Store

variable {h past : List Operation} {op : Operation} {x y : Symbol}

/-- The operation answers with the symbol, which it has interned. -/
def Operation.Interns (op : Operation) (s : Store) (x : Symbol) : Prop :=
  (∀ q, op ≠ .rawSymbol q) ∧ (Form.symbol x).Within (op.run s).1

/-- A symbol in front of a list that is not closed. -/
example : (Operation.read .standard .standard (.ofString "a (b")).Interns .empty
    ⟨⟨"a", none⟩, 0⟩ := by
  refine ⟨fun _ => Operation.noConfusion, .here ?_⟩
  exact List.mem_singleton.2 rfl

/-- What was interned at some moment is interned ever after. -/
theorem Operation.Interns.interned (hx : op.Interns (after past) x) (hop : op :: past <:+ h) :
    (after h).Interned x :=
  (op.interned (tables_after past) hx.1 hx.2).mono (tables_after (op :: past))
    (becomes_of_suffix hop)

/-- The token of a symbol is read as the symbol that then stands in the table under its name. -/
theorem read_symbol {cs : List Char} {k : TokenClass} {name : String} (hcs : IsTokenText cs)
    (hm : Token.classify cs = some (k, .symbol name)) (s : Store) (env : Host.Environment)
    (line col : Option Int) : ∃ y,
    let r := LispForms.read (.standard env) ⟨false, false, line, col⟩ (.ofString (.ofList cs)) s
    r.forms = [.symbol y] ∧ r.fault = none ∧ (⟨name, none⟩, y) ∈ r.world.symbols := by
  obtain ⟨n, hread⟩ := read_token (Services.plain_standard env) hcs hm line col s
  obtain ⟨hforms, hfault, hworld⟩ := hread _ rfl fun _ _ => Form.noConfusion
  refine ⟨_, hforms, hfault, ?_⟩
  rw [hworld]
  exact mem_of_lookup (lookup_symbol _ _)

/-- A symbol that is not interned when it is made is not interned later. -/
theorem id_ne_of_rawSymbol {q : QName} (hop : .rawSymbol q :: past <:+ h) :
    ∀ e ∈ (after h).symbols, e.2.id ≠ ((after past).rawSymbol q).1.id := by
  have hspent : Spent Symbol.id (after past).nextId (after (.rawSymbol q :: past)).nextId
      (after (.rawSymbol q :: past)).symbols :=
    ⟨Nat.lt_succ_self _, fun e he => Nat.ne_of_lt ((tables_after past).symbols.below e he)⟩
  exact ((becomes_of_suffix hop).spent_symbol hspent).absent

theorem same_symbol_iff : (Form.symbol x).same (.symbol y) = true ↔ x.toQName = y.toQName := by
  simp [Form.same]

/-- Every entry of the table of symbols stands under its name and stays as long as the program runs.
Symbols that were interned at any two moments are one object if and only if they are equal, and if
and only if they have one name. To ask for a name, to read its token and to copy whatever symbol of
that name all give the symbol that then stands in the table under it. A symbol that was made without
being interned is equal to the one in the table under its name, and never is that one. -/
theorem interning (h : List Operation) :
    let s := after h
    (∀ q x, (q, x) ∈ s.symbols → x.toQName = q) ∧
    (s.symbols.map Prod.fst).Nodup ∧
    (∀ past, past <:+ h → (after past).symbols <:+ s.symbols) ∧
    (∀ op past x op' past' x', op :: past <:+ h → op' :: past' <:+ h →
      op.Interns (after past) x → op'.Interns (after past') x' →
      (x.id = x'.id ↔ (Form.symbol x).same (.symbol x') = true) ∧
      ((Form.symbol x).same (.symbol x') = true ↔ x.toQName = x'.toQName)) ∧
    (∀ q, ∃ y t, (Operation.symbol q).run s = ([.symbol y], t) ∧ (q, y) ∈ t.symbols) ∧
    (∀ cs name, IsTokenText cs → (∃ k, Token.classify cs = some (k, .symbol name)) →
      ∀ env line col, ∃ y,
        let r := LispForms.read (.standard env) ⟨false, false, line, col⟩
          (.ofString (.ofList cs)) s
        r.forms = [.symbol y] ∧ r.fault = none ∧ (⟨name, none⟩, y) ∈ r.world.symbols) ∧
    (∀ x, ∃ y t, (Operation.copy x).run s = ([.symbol y], t) ∧ (x.toQName, y) ∈ t.symbols) ∧
    ∀ q past, .rawSymbol q :: past <:+ h →
      let x := ((after past).rawSymbol q).1
      ∀ q' y, (q', y) ∈ s.symbols →
        y.id ≠ x.id ∧ ((Form.symbol x).same (.symbol y) = true ↔ q' = q) := by
  intro s
  have hs : s.Tables := tables_after h
  refine ⟨fun q x hx => hs.names _ hx, hs.symbols.keys,
    fun past hpast => (becomes_of_suffix hpast).symbols_suffix, ?_,
    fun q => ⟨_, _, rfl, mem_of_lookup (s.lookup_symbol q)⟩,
    fun cs name hcs ⟨k, hm⟩ env line col => read_symbol hcs hm s env line col,
    fun x => ⟨_, _, rfl, mem_of_lookup (s.lookup_symbol x.toQName)⟩, ?_⟩
  · intro op past x op' past' x' hop hop' hx hx'
    have hid := hs.id_eq_iff (hx.interned hop) (hx'.interned hop')
    exact ⟨hid.trans same_symbol_iff.symm, same_symbol_iff⟩
  · intro q past hop x q' y hy
    have hname : y.toQName = q' := hs.names _ hy
    refine ⟨id_ne_of_rawSymbol hop _ hy, same_symbol_iff.trans ?_⟩
    rw [hname]
    exact eq_comm

end Store
end LispForms
