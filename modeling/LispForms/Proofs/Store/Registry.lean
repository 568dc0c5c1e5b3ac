import LispForms.Proofs.Spelling
import LispForms.Proofs.Store.Answers

/-! The register over whole histories. A namespace stands under its own name, and its vars under
theirs, whether or not it is still registered. What a reference refers to changes when its namespace
is taken off the register, and at no other time: the namespace that comes into its place is another
one, and so is every var in it. -/

namespace LispForms

namespace Store

variable {h past between : List Operation} {op op' : Operation} {x y : Symbol} {n : Namespace}
  {v v' : Var} {s t : Store} {ns : List Namespace} {space name : String}

/-! ### Removal -/

/-- Entries with other keys are found as before. -/
theorem lookup_filter_of_ne {K V : Type} [BEq K] [LawfulBEq K] {k k' : K} (hk : k ≠ k') :
    ∀ l : List (K × V), (l.filter (·.1 != k')).lookup k = l.lookup k
  | [] => rfl
  | (i, v) :: l => by
    by_cases hi : i = k'
    · have hne : (k == i) = false := beq_false_of_ne (hi ▸ hk)
      rw [List.filter_cons_of_neg (by simp [hi]), List.lookup_cons, hne]
      exact lookup_filter_of_ne hk l
    · rw [List.filter_cons_of_pos (by simp [hi]), List.lookup_cons, List.lookup_cons,
        lookup_filter_of_ne hk l]

theorem removeNamespace_of_absent (hx : s.namespace? x = none) :
    s.removeNamespace x = (none, s) := by
  rw [Store.removeNamespace, hx]

theorem Current.removeNamespace (h : s.Current v) (hx : x.toQName ≠ v.home.symbol.toQName) :
    (s.removeNamespace x).2.Current v := by
  unfold Store.removeNamespace
  cases s.namespace? x with
  | none => exact h
  | some n => exact ⟨(lookup_filter_of_ne hx.symm _).trans h.registered, h.stored⟩

/-- A namespace that is taken off the register is registered under no other name. -/
theorem Sound.spent_removeNamespace (h : Sound ns s) (hn : n ∈ ns)
    (hx : x.toQName = n.symbol.toQName) :
    Spent Namespace.id n.id (s.removeNamespace x).2.nextId (s.removeNamespace x).2.namespaces := by
  have habsent : ∀ e ∈ s.namespaces, e.1 ≠ x.toQName → e.2.id ≠ n.id := by
    intro e he hne hid
    obtain ⟨hname, hmem⟩ := h.namespaces he
    rw [h.distinct hmem hn hid] at hname
    exact hne (hname.symm.trans hx.symm)
  unfold Store.removeNamespace
  cases hreg : s.namespace? x with
  | some m =>
    refine ⟨h.created hn, fun e he => ?_⟩
    obtain ⟨hmem, hne⟩ := List.mem_filter.1 he
    exact habsent e hmem (bne_iff_ne.1 hne)
  | none =>
    refine ⟨h.created hn, fun e he => habsent e he fun hkey => ?_⟩
    have hlookup := List.lookup_eq_none_iff.1 hreg e he
    simp [hkey] at hlookup

/-! ### References -/

/-- The operation asks for the var of a name in a namespace, or reads such a reference, and the
answer has the var. -/
structure Operation.Refers (op : Operation) (s : Store) (space name : String) (v : Var) :
    Prop where
  answer : (Form.var v).Within (op.run s).1
  names : op = .internVar space name ∨ op.isReading = true ∧
    v.home.symbol.toQName = ⟨space, none⟩ ∧ v.symbol.toQName = ⟨name, none⟩

/-- A reference refers to a var of its names. -/
theorem Operation.Refers.current (hv : op.Refers s space name v) (hs : s.Running) :
    (op.run s).2.Current v ∧ v.home.symbol.toQName = ⟨space, none⟩ ∧
      v.symbol.toQName = ⟨name, none⟩ := by
  obtain ⟨hanswer, rfl | ⟨hop, hnames⟩⟩ := hv
  · obtain ⟨ns, hs⟩ := hs
    obtain rfl := Form.var.inj (hanswer.eq rfl)
    exact ⟨hs.sound.current_internVar space name, hs.sound.internVar_names space name⟩
  · obtain ⟨u, hu, hv⟩ := hanswer.exists_mem
    exact ⟨op.forms_of_yields hop yields_current hs u hu v hv, hnames⟩

/-- The token of a reference is read as a var of its names, which then is current. -/
theorem read_reference {cs : List Char} {k : TokenClass} (hcs : IsTokenText cs)
    (hm : Token.classify cs = some (k, .var space name)) (hs : s.Running) (env : Host.Environment)
    (line col : Option Int) : ∃ v,
    let r := LispForms.read (.standard env) ⟨false, false, line, col⟩ (.ofString (.ofList cs)) s
    r.forms = [.var v] ∧ r.fault = none ∧ r.world.Current v ∧
      v.home.symbol.toQName = ⟨space, none⟩ ∧ v.symbol.toQName = ⟨name, none⟩ := by
  obtain ⟨n, hread⟩ := read_token (Services.plain_standard env) hcs hm line col s
  obtain ⟨hforms, hfault, hworld⟩ := hread _ rfl fun _ _ => Form.noConfusion
  obtain ⟨ns, hreach⟩ := (keeps_running env).note n
    ((keeps_running env).note (Source.ofString (.ofList cs)).opening hs)
  refine ⟨_, hforms, hfault, ?_, hreach.sound.internVar_names space name⟩
  rw [hworld]
  exact hreach.sound.current_internVar space name

/-- Reading the token of a reference is a reference. -/
theorem refers_read {cs : List Char} {k : TokenClass} (hcs : IsTokenText cs)
    (hm : Token.classify cs = some (k, .var space name)) (hs : s.Running) (env : Host.Environment)
    (line col : Option Int) : ∃ v,
    let source := Source.ofString (.ofList cs)
    let r := LispForms.read (.standard env) ⟨false, false, line, col⟩ source s
    r.forms = [.var v] ∧ r.fault = none ∧
      (Operation.read env ⟨false, false, line, col⟩ source).Refers s space name v := by
  obtain ⟨v, hforms, hfault, -, hnames⟩ := read_reference hcs hm hs env line col
  refine ⟨v, hforms, hfault, .here ?_, .inr ⟨rfl, hnames⟩⟩
  show .var v ∈ (LispForms.read _ _ _ _).forms
  rw [hforms]
  exact List.mem_singleton_self _

/-- A reference takes nothing away. -/
theorem Operation.Refers.extends (hv : op.Refers s space name v) : s.Extends (op.run s).2 := by
  refine (Operation.keeps_of_extends (P := s.Extends) (fun h h' => h'.trans h) ?_).run (.refl s)
  rintro t x rfl
  rcases hv.names with h | ⟨h, -⟩ <;> cases h

/-- A var stays current until its namespace is taken off the register. -/
theorem Current.later (hv : (after h).Current v)
    (hbetween : ∀ x, .removeNamespace x ∈ between → x.toQName ≠ v.home.symbol.toQName) :
    (after (between ++ h)).Current v := by
  induction between with
  | nil => exact hv
  | cons op between ih =>
    have hkeeps : op.Keeps fun s => s.Current v := by
      refine Operation.keeps_of_extends (fun hext h => h.extends hext) ?_
      rintro t x rfl ht
      exact ht.removeNamespace (hbetween x List.mem_cons_self)
    exact hkeeps.run (ih fun x hx => hbetween x (.tail op hx))

/-- A namespace that was taken off the register is never registered again. -/
theorem Legal.spent (hl : Legal (between ++ h)) (hn : Created h n)
    (hx : .removeNamespace x ∈ between) (hname : x.toQName = n.symbol.toQName) :
    Spent Namespace.id n.id (after (between ++ h)).nextId (after (between ++ h)).namespaces := by
  obtain ⟨later, early, rfl⟩ := List.append_of_mem hx
  rw [List.append_assoc] at hl ⊢
  have hsuffix : early ++ h <:+ later ++ (.removeNamespace x :: early ++ h) :=
    (List.suffix_cons _ _).trans (List.suffix_append _ _)
  obtain ⟨ns, hs, hcreated⟩ := (hl.of_suffix hsuffix).reachable
  have hmem := hcreated n (hn.mono (List.suffix_append early h))
  exact (becomes_after later _).spent_namespace (hs.sound.spent_removeNamespace hmem hname)

/-- Two references to a name are to one var if and only if the namespace was not taken off the
register in between. -/
theorem Legal.refers_iff (hl : Legal (op' :: (between ++ op :: past)))
    (hv : op.Refers (after past) space name v)
    (hv' : op'.Refers (after (between ++ op :: past)) space name v') :
    v = v' ↔ ∀ x, .removeNamespace x ∈ between → x.toQName ≠ ⟨space, none⟩ := by
  have running {h : List Operation} (hh : h <:+ op' :: (between ++ op :: past)) :
      (after h).Running :=
    (hl.of_suffix hh).reachable.imp fun _ h => h.1
  have hbefore : between ++ op :: past <:+ op' :: (between ++ op :: past) := List.suffix_cons _ _
  have hpast : past <:+ op' :: (between ++ op :: past) :=
    ((List.suffix_cons op past).trans (List.suffix_append between _)).trans hbefore
  obtain ⟨hcur, hspace, hname⟩ := hv.current (running hpast)
  obtain ⟨hcur', hspace', hname'⟩ := hv'.current (running hbefore)
  have hcur : (after (op :: past)).Current v := hcur
  constructor
  · rintro rfl x hx hremoved
    have hcreated : Created (op :: past) v.home :=
      ⟨_, _, List.suffix_rfl, mem_of_lookup hcur.registered⟩
    have hspent := (hl.of_suffix hbefore).spent hcreated hx (hremoved.trans hspace.symm)
    have hlater := (op'.becomes _).spent_namespace hspent
    exact hlater.absent _ (mem_of_lookup hcur'.registered) rfl
  · intro hbetween
    have hlast := (hcur.later fun x hx => hspace ▸ hbetween x hx).extends hv'.extends
    exact hlast.unique hcur' (hspace.trans hspace'.symm) (hname.trans hname'.symm)

/-! ### Vars for ever -/

/-- A var that was given at some moment is found ever after. -/
theorem Legal.stored (hl : Legal h) (hop : op :: past <:+ h)
    (hv : (Form.var v).Within (op.run (after past)).1) :
    (after h).var? v.home v.symbol = some v := by
  obtain ⟨ns, hs, hcreated⟩ := (hl.of_suffix ((List.suffix_cons op past).trans hop)).reachable
  have hstored : (after (op :: past)).var? v.home v.symbol = some v :=
    Operation.stored hs (fun n hn => hcreated n (hl op past hop n hn)) hv
  have hmem := (becomes_of_suffix hop).vars_suffix.mem (mem_of_lookup hstored)
  exact (tables_after h).vars.lookup hmem

theorem Tables.eq_of_id (hs : s.Tables) (hv : s.var? v.home v.symbol = some v)
    (hv' : s.var? v'.home v'.symbol = some v') (hid : v.id = v'.id) : v = v' :=
  (hs.vars.eq_of_number (mem_of_lookup hv) (mem_of_lookup hv') hid).2

/-! ### Name symbols -/

/-- Every symbol by which an operation names a namespace or a var is interned. -/
def ArgumentsInterned : List Operation → Prop :=
  Throughout fun op past => ∀ x, op.argument? = some x → (after past).Interned x

/-- The symbols that name the namespaces and the vars are interned. -/
structure NamesInterned (s : Store) : Prop where
  tables : s.Tables
  namespaces : ∀ e ∈ s.namespaces, s.Interned e.2.symbol
  vars : ∀ e ∈ s.vars, s.Interned e.2.symbol

namespace NamesInterned

theorem symbol (h : s.NamesInterned) (q : QName) : (s.symbol q).2.NamesInterned := by
  have hb := s.becomes_symbol q
  unfold Store.symbol at hb ⊢
  cases hx : s.symbols.lookup q with
  | some x => exact h
  | none =>
    rw [hx] at hb
    exact ⟨hb.tables h.tables, fun e he => (h.namespaces e he).mono h.tables hb,
      fun e he => (h.vars e he).mono h.tables hb⟩

theorem openNamespace (h : s.NamesInterned) (hx : s.Interned x) :
    (s.openNamespace x).2.NamesInterned := by
  have hb := s.becomes_openNamespace x
  unfold Store.openNamespace at hb ⊢
  cases hn : s.namespace? x with
  | some n => exact h
  | none =>
    rw [hn] at hb
    exact ⟨hb.tables h.tables, List.forall_mem_cons.2 ⟨hx, h.namespaces⟩, h.vars⟩

theorem removeNamespace (h : s.NamesInterned) (x : Symbol) :
    (s.removeNamespace x).2.NamesInterned := by
  have hb := s.becomes_removeNamespace x
  unfold Store.removeNamespace at hb ⊢
  cases hn : s.namespace? x with
  | some n =>
    rw [hn] at hb
    exact ⟨hb.tables h.tables, fun e he => h.namespaces e (List.mem_filter.1 he).1, h.vars⟩
  | none => exact h

theorem var (h : s.NamesInterned) (hx : s.Interned x) (n : Namespace) :
    (s.var n x).2.NamesInterned := by
  have hb := s.becomes_var n x
  unfold Store.var at hb ⊢
  cases hv : s.var? n x with
  | some v => exact h
  | none =>
    rw [hv] at hb
    exact ⟨hb.tables h.tables, h.namespaces, List.forall_mem_cons.2 ⟨hx, h.vars⟩⟩

theorem internVar (h : s.NamesInterned) (space name : String) :
    (s.internVar space name).2.NamesInterned := by
  have hspace := h.symbol ⟨space, none⟩
  have hopen := hspace.openNamespace (h.tables.interned_symbol ⟨space, none⟩)
  exact (hopen.symbol ⟨name, none⟩).var (hopen.tables.interned_symbol ⟨name, none⟩) _

theorem note (h : s.NamesInterned) (n : Note) :
    NamesInterned { s with journal := n :: s.journal } :=
  ⟨(Becomes.of_change (.note n)).tables h.tables, h.namespaces, h.vars⟩

theorem keeps (env : Host.Environment) : (Services.standard env).Keeps NamesInterned where
  symbol _ h := h.symbol _
  var _ _ h := h.internVar _ _
  host _ h := resolve_keeps (fun _ n h => h.note n) env _ h
  note n h := h.note n

end NamesInterned

/-- Where all names that are given are interned, namespaces and vars have no others. -/
theorem ArgumentsInterned.names (hargs : ArgumentsInterned h) : (after h).NamesInterned := by
  induction h with
  | nil =>
    exact ⟨.empty, fun _ he => (List.not_mem_nil he).elim, fun _ he => (List.not_mem_nil he).elim⟩
  | cons op past ih =>
    have hpast := ih (Throughout.of_suffix hargs (List.suffix_cons op past))
    have hop := hargs op past List.suffix_rfl
    cases op with
    | symbol q => exact hpast.symbol q
    | rawSymbol q =>
      exact ⟨(becomes_rawSymbol _ q).tables hpast.tables, hpast.namespaces, hpast.vars⟩
    | copy x => exact hpast.symbol x.toQName
    | openNamespace x => exact hpast.openNamespace (hop x rfl)
    | removeNamespace x => exact hpast.removeNamespace x
    | getNamespace | findVar => exact hpast
    | var n x => exact hpast.var (hop x rfl) n
    | internVar space name => exact hpast.internVar space name
    | read env opts source => exact ((NamesInterned.keeps env).yields.read opts source hpast).1
    | next env endIsError cursor suppressions =>
      exact ((NamesInterned.keeps env).yields.next endIsError ⟨cursor, suppressions, _⟩ hpast).1

/-! ### The register -/

/-- In every legal history: a namespace stands under its own name, which no other has; the vars of
every namespace that was ever created stand under their own names and are at home there, so that
every var that was ever given is found for ever where it says it is. To ask for a var is a reference
to it, and so is to read a token that names it: either gives one var, without a fault. References to
one name are to one var if and only if the namespace was not taken off the register in between,
where one operation may read the reference twice. What is only looked for, and what is taken off
without being there, changes nothing. -/
theorem registry (hl : Legal h) (hargs : ArgumentsInterned h) :
    let s := after h
    (∀ q n, (q, n) ∈ s.namespaces → n.symbol.toQName = q ∧ s.Interned n.symbol) ∧
    (s.namespaces.map Prod.fst).Nodup ∧
    (∀ n, Created h n → ∀ q v, ((n.id, q), v) ∈ s.vars →
      v.home = n ∧ v.symbol.toQName = q ∧ s.Interned v.symbol) ∧
    (∀ op past v, op :: past <:+ h → (Form.var v).Within (op.run (after past)).1 →
      s.var? v.home v.symbol = some v) ∧
    (∀ space name, ∃ v, ((Operation.internVar space name).run s).1 = [.var v] ∧
      (Operation.internVar space name).Refers s space name v) ∧
    (∀ cs space name, IsTokenText cs → (∃ k, Token.classify cs = some (k, .var space name)) →
      ∀ env line col, ∃ v,
        let source := Source.ofString (.ofList cs)
        let r := LispForms.read (.standard env) ⟨false, false, line, col⟩ source s
        r.forms = [.var v] ∧ r.fault = none ∧
          (Operation.read env ⟨false, false, line, col⟩ source).Refers s space name v) ∧
    (∀ op past space name v v', op :: past <:+ h → op.Refers (after past) space name v →
      op.Refers (after past) space name v' → v = v') ∧
    (∀ op' between op past space name v v', op' :: (between ++ op :: past) <:+ h →
      op.Refers (after past) space name v →
      op'.Refers (after (between ++ op :: past)) space name v' →
      (v.id = v'.id ↔ ∀ x, .removeNamespace x ∈ between → x.toQName ≠ ⟨space, none⟩) ∧
      (v.id = v'.id ↔ v = v')) ∧
    ∀ x, ((Operation.getNamespace x).run s).2 = s ∧
      (∀ n, ((Operation.findVar n x).run s).2 = s) ∧
      (s.namespace? x = none → (Operation.removeNamespace x).run s = ([], s)) := by
  intro s
  obtain ⟨ns, hs, hcreated⟩ := hl.reachable
  have hnames : s.NamesInterned := hargs.names
  refine ⟨fun q n hn => ⟨(hs.sound.namespaces hn).1, hnames.namespaces _ hn⟩,
    (tables_after h).namespaces.keys, fun n hn q v hv => ?_,
    fun op past v hop hv => hl.stored hop hv,
    fun space name => ⟨_, rfl, .here (List.mem_singleton_self _), .inl rfl⟩,
    fun cs space name hcs ⟨k, hm⟩ env line col => refers_read hcs hm ⟨ns, hs⟩ env line col,
    fun op past space name v v' hop hv hv' => ?_,
    fun op' between op past space name v v' hop hv hv' => ?_, fun x => ⟨rfl, fun n => rfl, ?_⟩⟩
  · obtain ⟨hhome, hid, hname⟩ := hs.sound.vars hv
    exact ⟨hs.sound.distinct hhome (hcreated n hn) hid, hname, hnames.vars _ hv⟩
  · have hrunning := (hl.of_suffix ((List.suffix_cons op past).trans hop)).reachable.imp
      fun _ h => h.1
    obtain ⟨hcur, hspace, hname⟩ := hv.current hrunning
    obtain ⟨hcur', hspace', hname'⟩ := hv'.current hrunning
    exact hcur.unique hcur' (hspace.trans hspace'.symm) (hname.trans hname'.symm)
  · have hbefore : op :: past <:+ h :=
      ((List.suffix_append between _).trans (List.suffix_cons op' _)).trans hop
    have hid : v.id = v'.id ↔ v = v' :=
      ⟨(tables_after h).eq_of_id (hl.stored hbefore hv.answer) (hl.stored hop hv'.answer),
        congrArg Var.id⟩
    exact ⟨hid.trans ((hl.of_suffix hop).refers_iff hv hv'), hid⟩
  · intro hx
    simp only [Operation.run, removeNamespace_of_absent hx]
    rfl

/-- A reference, and the same reference in a text that breaks off, after the namespace was taken off
the register and given a var. -/
theorem registry_removed :
    let a : Symbol := ⟨⟨"a", none⟩, 0⟩
    let x : Symbol := ⟨⟨"x", none⟩, 2⟩
    let v : Var := ⟨3, ⟨1, a⟩, x⟩
    let v' : Var := ⟨6, ⟨5, a⟩, x⟩
    let between : List Operation := [.var ⟨1, a⟩ a, .removeNamespace a]
    let early : List Operation := [.internVar "a" "x"]
    let h := .read .standard .standard (.ofString "a:x (") :: (between ++ early)
    Legal h ∧ ArgumentsInterned h ∧ v.id ≠ v'.id ∧ (after h).var? v.home v.symbol = some v := by
  intro a x v v' between early h
  have hcreated : Created early ⟨1, a⟩ := ⟨early, _, List.suffix_rfl, List.mem_singleton.2 rfl⟩
  have hl : Legal h := by
    refine Throughout.cons (.cons (.cons (.cons .nil nofun) nofun) ?_) nofun
    rintro n ⟨⟩
    exact hcreated.mono (List.suffix_cons _ _)
  have hargs : ArgumentsInterned h := by
    refine Throughout.cons (.cons (.cons (.cons .nil nofun) ?_) ?_) nofun
    · rintro y ⟨⟩
      rfl
    · rintro y ⟨⟩
      rfl
  have hv : (Operation.internVar "a" "x").Refers (after []) "a" "x" v :=
    ⟨.here (List.mem_singleton.2 rfl), .inl rfl⟩
  have hv' : (Operation.read .standard .standard (.ofString "a:x (")).Refers
      (after (between ++ early)) "a" "x" v' :=
    ⟨.here (List.mem_singleton.2 rfl), .inr ⟨rfl, rfl, rfl⟩⟩
  have hearly : early <:+ h := (List.suffix_append between early).trans (List.suffix_cons _ _)
  obtain ⟨-, -, -, hstored, -, -, -, hidentity, -⟩ := registry hl hargs
  refine ⟨hl, hargs, fun hid => ?_, hstored _ _ v hearly hv.answer⟩
  have hkept := (hidentity _ between _ _ "a" "x" v v' List.suffix_rfl hv hv').1.1 hid
  exact hkept a (.tail _ List.mem_cons_self) rfl

end Store
end LispForms
