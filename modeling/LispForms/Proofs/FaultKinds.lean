import LispForms.Proofs.Passage
import LispForms.Proofs.Spelling
import LispForms.Proofs.Store.Reachable

/-! What a reading can fail with. Where no import fails but for want of a module, it fails with a
misreading or with a whole number that has too many digits to be converted. The latter is no
misreading, although it is as much a fault of the text. -/

namespace LispForms

variable {W : Type} {cfg : Settings W} {st : State W} {cs rest : List Char} {f : Fault}
  {e : Misreading} {env : Host.Environment}

/-! ### Host names -/

namespace Host.Environment

/-- Imports fail for no other reason than that there is no such module. -/
def Unfailing (env : Environment) : Prop := ∀ name kind, env.load name ≠ .failing kind

theorem Unfailing.resolveReversed (h : env.Unfailing) :
    ∀ {segments : List String} {why : Failure}, (env.resolveReversed segments).result = .error why →
      ∃ name, why = .unresolved name
  | [], _, hr => nomatch hr
  | last :: outer, why, hr => by
    unfold Environment.resolveReversed at hr
    cases hload : env.load (dotted (last :: outer).reverse) with
    | loaded o =>
      simp only [hload] at hr
      cases hr
    | failing kind => exact absurd hload (h _ kind)
    | absent =>
      simp only [hload] at hr
      cases houter : (env.resolveReversed outer).result with
      | error inner =>
        simp only [houter] at hr
        cases hr
        exact h.resolveReversed houter
      | ok container =>
        simp only [houter] at hr
        cases hattr : container.attribute? last with
        | none =>
          simp only [hattr] at hr
          cases hr
          exact ⟨_, rfl⟩
        | some o =>
          simp only [hattr] at hr
          cases hr

theorem Unfailing.resolve (h : env.Unfailing) (path : String) (kind : ImportFailure)
    (name : String) : (env.resolve path).result ≠ .error (.importing kind name) := by
  intro hr
  unfold Environment.resolve at hr
  split at hr
  · cases hr
  · obtain ⟨name, hname⟩ := h.resolveReversed hr
    cases hname

theorem unfailing_standard : standard.Unfailing := by
  intro name kind h
  have hmodules : ∀ e ∈ standard.modules, e.2 ≠ .failing kind := by
    simp [standard]
  unfold load at h
  cases hl : standard.modules.lookup name with
  | none =>
    rw [hl] at h
    cases h
  | some i =>
    rw [hl] at h
    exact hmodules _ (Store.mem_of_lookup hl) h

end Host.Environment

/-! ### Tokens -/

namespace Token

/-- A whole number in the token has more digits than are converted. -/
inductive Overlong (cs : List Char) : ℕ → Prop
  | integer {k negative ds} (h : classify cs = some (k, .integer negative ds))
    (hlen : Number.maxDigits < ds.length) : Overlong cs ds.length
  | numerator {k negative num den} (h : classify cs = some (k, .ratio negative num den))
    (hlen : Number.maxDigits < num.length) : Overlong cs num.length
  | denominator {k negative num den} (h : classify cs = some (k, .ratio negative num den))
    (hlen : Number.maxDigits < den.length) : Overlong cs den.length

end Token

namespace Services

open Token (Overlong classify)

variable {locate : Problem → Fault} {ds : List Char} {s : Store}

theorem convert_eq_error_iff : convert ds = .error f ↔
    Number.maxDigits < ds.length ∧ f = .tooManyDigits ds.length := by
  unfold convert
  split <;> simp [*, eq_comm]

theorem error_of_bind {α β : Type} {x : Except Fault α} {g : α → Except Fault β}
    (h : (x >>= g) = .error f) : x = .error f ∨ ∃ a, g a = .error f := by
  cases x with
  | error e =>
    cases h
    exact .inl rfl
  | ok a => exact .inr ⟨a, h⟩

theorem error_of_map {α β : Type} {x : Except Fault α} {g : α → β} (h : x.map g = .error f) :
    x = .error f := by
  cases x with
  | error e =>
    cases h
    rfl
  | ok a => cases h

theorem error_of_ratio {token : String} {negative : Bool} {num den : List Char}
    (h : ratio locate token negative num den = .error f) :
    convert num = .error f ∨ convert den = .error f ∨ ∃ p, f = locate p := by
  unfold ratio at h
  refine (error_of_bind h).imp_right fun ⟨n, h⟩ => (error_of_bind h).imp_right fun ⟨d, h⟩ => ?_
  dsimp only at h
  split at h <;> cases h
  exact ⟨_, rfl⟩

theorem error_of_resolve (henv : env.Unfailing) {path : String}
    (h : ((standard env).resolve locate path s).1 = .error f) : ∃ p, f = locate p := by
  simp only [resolve, standard, Store.resolve] at h
  cases hr : (env.resolve path).result with
  | ok o =>
    rw [hr] at h
    cases h
  | error why =>
    rw [hr] at h
    cases why with
    | importing kind name => exact absurd hr (henv.resolve path kind name)
    | invalid | unresolved =>
      cases h
      exact ⟨_, rfl⟩

/-- A token without a value has a problem, or a whole number in it is too long. -/
theorem error_of_interpret (henv : env.Unfailing)
    (h : ((standard env).interpret locate cs s).1 = .error f) :
    (∃ p, f = locate p) ∨ ∃ n, Overlong cs n ∧ f = .tooManyDigits n := by
  unfold interpret at h
  cases hm : classify cs with
  | none =>
    rw [hm] at h
    cases h
    exact .inl ⟨_, rfl⟩
  | some km =>
    obtain ⟨k, m⟩ := km
    simp only [hm] at h
    cases m with
    | nil | symbol | var | float | accessor => cases h
    | integer negative ds =>
      obtain ⟨hlen, rfl⟩ := convert_eq_error_iff.1 (error_of_map h)
      exact .inr ⟨_, .integer hm hlen, rfl⟩
    | ratio negative num den =>
      rcases error_of_ratio h with h | h | h
      · obtain ⟨hlen, rfl⟩ := convert_eq_error_iff.1 h
        exact .inr ⟨_, .numerator hm hlen, rfl⟩
      · obtain ⟨hlen, rfl⟩ := convert_eq_error_iff.1 h
        exact .inr ⟨_, .denominator hm hlen, rfl⟩
      · exact .inl h
    | className | instanceMember | staticMember =>
      exact .inl (error_of_resolve henv (error_of_map h))

end Services

/-! ### Runs -/

theorem exists_misread_endBetween (h : (st.endBetween cfg rest).stop = .failed f) :
    ∃ e, f = .misread e := by
  simp only [State.endBetween, Outcome.past] at h
  split_ifs at h
  exact ⟨_, (Stop.failed.inj h).symm⟩

/-- A run fails with a misreading, or with the fault of one of the tokens. -/
theorem exists_token_of_failed (hg : cfg.goal = .all) (he : cfg.ending = .complete)
    (hmode : st.mode = .between) (hstop : (run cfg st cs).stop = .failed f) :
    (∃ e, f = .misread e) ∨ ∃ token m w, .token token ∈ Lexeme.cut cs ∧
      (cfg.services.interpret (Mark.locate m cfg.source) token w).1 = .error f := by
  obtain ⟨xs, st', hall, ⟨-, hrun⟩ | ⟨x, rest, hcut, hhalts⟩⟩ := exists_readsAll hg he cs st hmode
  · rw [hrun, run_nil st' he, State.close, hall.mode hmode] at hstop
    exact .inl (exists_misread_endBetween hstop)
  · generalize run cfg st cs = o at hstop hhalts
    cases hhalts with
    | comment => exact .inl (exists_misread_endBetween hstop)
    | unmatched h | literal _ h => exact .inl ⟨_, Stop.failed.inj (hstop.symm.trans h.stop)⟩
    | token _ hi h =>
      obtain rfl := Stop.failed.inj (h.stop.symm.trans hstop)
      refine .inr ⟨_, _, _, ?_, congrArg Prod.fst hi⟩
      rw [hcut]
      exact List.mem_append_right xs List.mem_cons_self

/-! ### Readings -/

/-- Where imports fail only for want of a module, a reading that fails reports an error in the text,
or one of the tokens has a whole number that is too long to be converted. An object either has an
attribute or does not; hosts where looking for one can fail otherwise are no environments here. -/
theorem read_fault_kinds (henv : env.Unfailing) (opts : Options) (text : String) (s : Store)
    (h : (read (.standard env) opts (.ofString text) s).fault = some f) :
    (∃ e, f = .misread e ∧ e.problem.kind.isOfText = true) ∨
      ∃ cs n, .token cs ∈ Lexeme.cut text.toList ∧ Token.Overlong cs n ∧ f = .tooManyDigits n := by
  have ofText {e : Misreading} : e.problem.kind.isOfText = true := by
    cases e.problem <;> rfl
  have hstop := Outcome.fault?_eq_some_iff.1 h
  rcases exists_token_of_failed rfl rfl rfl hstop with ⟨e, rfl⟩ | ⟨cs, m, w, hmem, hi⟩
  · exact .inl ⟨e, rfl, ofText⟩
  · rcases Services.error_of_interpret henv hi with ⟨p, rfl⟩ | ⟨n, hlong, rfl⟩
    · exact .inl ⟨_, rfl, ofText⟩
    · exact .inr ⟨cs, n, hmem, hlong, rfl⟩

/-- A host name that does not resolve in a list, and a denominator that is too long. -/
theorem read_fault_kinds_standard :
    let f := Fault.misread
      ⟨.host "os.path.exists" (.unresolved "os.path.exists"), 1, 18, none⟩
    let reading (text : String) := read (.standard .standard) .standard (.ofString text) .empty
    (reading "(a os.path.exists. b)").fault = some f ∧
    ((∃ e, f = .misread e ∧ e.problem.kind.isOfText = true) ∨
      ∃ cs n, .token cs ∈ Lexeme.cut "(a os.path.exists. b)".toList ∧ Token.Overlong cs n ∧
        f = .tooManyDigits n) := by
  intro f reading
  have h : (reading "(a os.path.exists. b)").fault = some f := by decide +kernel
  exact ⟨h, read_fault_kinds Host.Environment.unfailing_standard .standard _ .empty h⟩

/-- A number that is too long is read as nothing, and nothing about it is reported. -/
theorem read_digits {ds : List Char} (hd : ∀ d ∈ ds, d.isDigit = true)
    (hlen : Number.maxDigits < ds.length) (env : Host.Environment) (line col : Option Int)
    (s : Store) :
    let r := read (.standard env) ⟨false, false, line, col⟩ (.ofString (.ofList ds)) s
    r.forms = [] ∧ r.fault = some (.tooManyDigits ds.length) := by
  intro r
  have hne : ds ≠ [] := by
    rintro rfl
    cases hlen
  have htoken : IsTokenText ds := ⟨hne, fun d hmem => Token.isOrdinary_of_isDigit (hd d hmem)⟩
  have hcut : Lexeme.cut ds = [.token ds] := by
    simpa using @Lexeme.cut_token ds [] htoken fun _ h => nomatch h
  have hconvert : Services.convert ds = .error (.tooManyDigits ds.length) :=
    Services.convert_eq_error_iff.2 ⟨hlen, rfl⟩
  have hbare := bare_read (Services.plain_standard env) line col (.ofList ds) s
  obtain ⟨n, hi⟩ := Services.interpret_eq (Token.classify_integer hne hd) (.standard env)
    Problem.unplaced ((Services.standard env).note (Source.ofString (.ofList ds)).opening s)
  rw [String.toList_ofList, Assembly.reading, hcut, Assembly.run, Assembly.take, hi,
    Services.value, hconvert] at hbare
  have hforms : r.forms.map Form.bare = [] := congrArg Reading.forms hbare
  have hfault : r.fault.map Fault.unplaced = some (.tooManyDigits ds.length) :=
    congrArg Reading.fault hbare
  refine ⟨List.map_eq_nil_iff.1 hforms, ?_⟩
  obtain ⟨f, hf, hunplaced⟩ := Option.map_eq_some_iff.1 hfault
  rw [hf]
  cases f with
  | tooManyDigits n => exact congrArg some hunplaced
  | _ => cases hunplaced

/-- More ones than are converted, where no import fails. -/
theorem read_digits_ones :
    let ones := String.ofList (List.replicate (Number.maxDigits + 1) '1')
    let r := read (.standard .standard) .standard (.ofString ones) .empty
    Host.Environment.standard.Unfailing ∧ r.fault = some (.tooManyDigits 4301) ∧
      ∀ e, r.fault ≠ some (.misread e) := by
  intro ones r
  have hlen : (List.replicate (Number.maxDigits + 1) '1').length = 4301 := List.length_replicate
  have hdigits : ∀ d ∈ List.replicate (Number.maxDigits + 1) '1', d.isDigit = true := by
    intro d hd
    rw [List.eq_of_mem_replicate hd]
    rfl
  have hlong : Number.maxDigits < (List.replicate (Number.maxDigits + 1) '1').length := by
    rw [hlen]
    decide
  have h := (read_digits hdigits hlong .standard none none .empty).2
  rw [hlen] at h
  have hfault : r.fault = some (.tooManyDigits 4301) := h
  exact ⟨Host.Environment.unfailing_standard, hfault, fun e he => nomatch he.symm.trans hfault⟩

end LispForms
