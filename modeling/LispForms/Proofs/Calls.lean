import LispForms.Proofs.Suppression
import LispForms.Proofs.TextEnd

/-! What a reading calls its services for. The text alone tells: every token is looked at once, in
the order of the text and whatever lists it is in, and the class of the token decides for what its
value is asked, if for anything. A reading that fails has looked at the tokens up to the lexeme that
is at fault. -/

namespace LispForms

variable {W : Type}

namespace Token

/-- What a service is called for when a token is given its value: a symbol for the whole token, a
var for the names before and behind the colon, a host object for the path. -/
def call? (cs : List Char) : Option Call :=
  match classify cs with
  | some (.symbol, _) => some (.symbol (.ofList cs))
  | some (.var, _) =>
    let ns := cs.takeWhile (· != ':')
    let name := (cs.dropWhile (· != ':')).drop 1
    some (.var (.ofList ns) (.ofList name))
  | some (.className, _) => some (.host (.ofList cs.dropLast))
  | some (.instanceMember, _) => (splitLastPoint cs.tail).map fun (path, _) => .host (.ofList path)
  | some (.staticMember, _) => (splitLastPoint cs).map fun (path, _) => .host (.ofList path)
  | _ => none

example : call? "a:b".toList = some (.var "a" "b") := by decide
example : call? ".os.path.join".toList = some (.host "os.path") := by decide
example : call? ".join".toList = none := by decide

/-- What a service is called for when a meaning is given its value. -/
def Meaning.call? : Meaning → Option Call
  | symbol name => some (.symbol name)
  | var ns name => some (.var ns name)
  | className path | instanceMember path _ | staticMember path _ => some (.host path)
  | _ => none

variable {cs : List Char} {k : TokenClass} {m : Meaning}

open TokenClass

theorem splitLastPoint_of_member? {p : String × String} (h : member? cs = some p) :
    (splitLastPoint cs).map (fun (path, _) => Call.host (.ofList path)) = some (.host p.1) := by
  simp only [member?, Option.bind_eq_bind, Option.bind_eq_some_iff] at h
  obtain ⟨⟨path, member⟩, hsplit, h⟩ := h
  rw [hsplit]
  split at h <;> cases h
  rfl

/-- The spelling of a token tells what its meaning has looked up. -/
theorem call?_of_classify (h : classify cs = some (k, m)) : call? cs = m.call? := by
  have hm := meaning?_of_classify h
  simp only [call?, h]
  cases k with
  | null => rw [of_null? hm]; rfl
  | symbol => rw [of_symbol? hm]; rfl
  | var =>
    simp only [meaning?, var?] at hm
    split at hm <;> cases hm
    rfl
  | integer => obtain ⟨_, _, -, rfl⟩ := of_integer? hm; rfl
  | float => obtain ⟨_, _, rfl⟩ := of_float? hm; rfl
  | ratio => obtain ⟨_, _, _, -, -, rfl⟩ := of_ratio? hm; rfl
  | accessor => obtain ⟨_, -, rfl⟩ := of_accessor? hm; rfl
  | className =>
    simp only [meaning?, className?] at hm
    split at hm <;> cases hm
    rfl
  | instanceMember =>
    obtain ⟨ds, rfl, hds⟩ := of_point hm
    obtain ⟨p, hp, rfl⟩ := Option.map_eq_some_iff.1 hds
    exact splitLastPoint_of_member? hp
  | staticMember =>
    obtain ⟨p, hp, rfl⟩ := Option.map_eq_some_iff.1 hm
    exact splitLastPoint_of_member? hp

end Token

/-- What a service is called for at the lexeme. -/
def Lexeme.call? : Lexeme → Option Call
  | token cs => Token.call? cs
  | _ => none

/-! ### Keeping a record -/

namespace Services

variable (sv : Services W) (locate : Problem → Fault) (p : List Call × W)

theorem resolve_recorded (path : String) : sv.recorded.resolve locate path p =
    ((sv.resolve locate path p.2).1, .host path :: p.1, (sv.resolve locate path p.2).2) := by
  have hhost : sv.recorded.host path p =
    ((sv.host path p.2).1, .host path :: p.1, (sv.host path p.2).2) := rfl
  unfold resolve
  rw [hhost]
  rcases sv.host path p.2 with ⟨(_ | _ | _) | _, w⟩ <;> rfl

/-- The record changes nothing, and one token is recorded at most once. -/
theorem interpret_recorded (cs : List Char) : sv.recorded.interpret locate cs p =
    ((sv.interpret locate cs p.2).1, (Token.call? cs).toList ++ p.1,
      (sv.interpret locate cs p.2).2) := by
  unfold interpret
  cases h : Token.classify cs with
  | none =>
    have hcall : Token.call? cs = none := by simp only [Token.call?, h]
    rw [hcall]
    rfl
  | some km =>
    obtain ⟨k, m⟩ := km
    rw [Token.call?_of_classify h]
    cases m with
    | nil | symbol | var | integer | float | ratio | accessor => rfl
    | className | instanceMember | staticMember =>
      simp only [value, resolve_recorded]
      rfl

end Services

/-- The settings of the same reading with a record. -/
abbrev Settings.recorded (cfg : Settings W) : Settings (List Call × W) :=
  ⟨cfg.services.recorded, cfg.goal, cfg.suppress, cfg.endIsError, cfg.source, cfg.ending⟩

/-- The state without the record. -/
def State.plain (st : State (List Call × W)) : State W :=
  ⟨st.mode, st.lists, st.forms, st.mark, st.world.2⟩

def Outcome.plain (o : Outcome (List Call × W)) : Outcome W := ⟨o.state.plain, o.stop, o.cursor⟩

variable {cfg : Settings W} {st st' : State (List Call × W)} {x : Lexeme} {xs ys : List Lexeme}
  {rest cs : List Char} {o : Outcome (List Call × W)}

theorem Outcome.Fails.plain {f : Fault} (h : o.Fails st f rest) : o.plain.Fails st.plain f rest :=
  ⟨h.stop, h.lists, h.forms, congrArg Prod.snd h.world, h.mark, h.ahead⟩

namespace State

theorem plain_put (v : Form) (st : State (List Call × W)) :
    (put cfg.recorded v st).plain = put cfg v st.plain := by
  obtain ⟨mode, ls, fs, m, w⟩ := st
  cases ls <;> rfl

theorem Reads.plain (h : Reads cfg.recorded st x st') : Reads cfg st.plain x st'.plain := by
  cases h with
  | blank => exact .blank
  | comment h => exact .comment h
  | opening => exact .opening
  | closing =>
    rw [plain_put]
    exact .closing
  | literal h =>
    rw [plain_put]
    exact .literal h
  | token h =>
    rw [plain_put]
    refine .token ?_
    cases h with
    | value hs h =>
      rw [Services.interpret_recorded] at h
      obtain ⟨hv, rfl⟩ := Prod.mk.inj h
      exact .value hs (Prod.ext hv rfl)
    | suppressed hs => exact .suppressed hs

theorem Halts.plain (h : Halts cfg.recorded st x rest o) : Halts cfg st.plain x rest o.plain := by
  cases h with
  | comment h => exact .comment h
  | unmatched h => exact .unmatched h.plain
  | literal hx h => exact .literal hx h.plain
  | token hs hi h =>
    rw [Services.interpret_recorded] at hi
    obtain ⟨hf, rfl⟩ := Prod.mk.inj hi
    exact .token hs (Prod.ext hf rfl) h.plain

theorem ReadsAll.plain (h : ReadsAll cfg.recorded st xs st') :
    ReadsAll cfg st.plain xs st'.plain := by
  induction h with
  | nil => exact .nil
  | cons hx _ ih => exact .cons hx.plain ih

/-! ### The record -/

theorem world_put {V : Type} (cfg : Settings V) (v : Form) (st : State V) :
    (put cfg v st).world = st.world := by
  obtain ⟨mode, ls, fs, m, w⟩ := st
  cases ls <;> rfl

/-- One lexeme is recorded at most once. -/
theorem Reads.calls (hs : cfg.suppress = false) (h : Reads cfg.recorded st x st') :
    st'.world.1 = x.call?.toList ++ st.world.1 := by
  cases h with
  | blank | comment | opening => rfl
  | closing => rw [world_put]; rfl
  | @literal ls fs m w x v h =>
    rw [world_put]
    cases x <;> first | rfl | cases h
  | token h =>
    rw [world_put]
    cases h with
    | value _ h =>
      rw [Services.interpret_recorded] at h
      obtain ⟨-, rfl⟩ := Prod.mk.inj h
      rfl
    | suppressed hs' =>
      rw [hs] at hs'
      cases hs'

theorem Halts.calls (h : Halts cfg.recorded st x rest o) :
    o.state.world.1 = x.call?.toList ++ st.world.1 := by
  cases h with
  | comment => rfl
  | unmatched h => rw [h.world]; rfl
  | @literal ls fs m w x p rest o hx h =>
    rw [h.world]
    cases x <;> first | rfl | cases hx
  | token _ hi h =>
    rw [h.world]
    rw [Services.interpret_recorded] at hi
    obtain ⟨-, rfl⟩ := Prod.mk.inj hi
    rfl

theorem ReadsAll.calls (hs : cfg.suppress = false) (h : ReadsAll cfg.recorded st xs st') :
    st'.world.1 = (xs.filterMap Lexeme.call?).reverse ++ st.world.1 := by
  induction h with
  | nil => rfl
  | @cons st₁ st₂ st₃ x xs hx _ ih =>
    rw [ih, hx.calls hs]
    cases hcall : x.call? <;> simp [hcall]

end State

/-! ### Runs -/

section

variable (hg : cfg.goal = .all) (he : cfg.ending = .complete)

include hg he

/-- A run goes as it does without a record. -/
theorem run_recorded (hmode : st.mode = .between) (cs : List Char) :
    (run cfg.recorded st cs).plain.Alike (run cfg st.plain cs) := by
  obtain ⟨xs, st', hall, ⟨rfl, hrun⟩ | ⟨x, rest, hcut, hhalts⟩⟩ :=
    @exists_readsAll _ cfg.recorded hg he cs st hmode
  · have hmode' : st'.plain.mode = .between := hall.mode hmode
    rw [hrun, hall.plain.run_cut hg he hmode, run_nil _ he, @run_nil _ cfg.recorded _ he,
      State.close, hall.mode hmode, State.close, hmode']
    exact ⟨rfl, rfl, rfl⟩
  · obtain ⟨rest', hhalts'⟩ := hall.plain.halts hg he hhalts.plain hmode hcut
    exact hhalts.plain.unique hhalts'

/-- A text that is read to its end has no fault but that something is open there. -/
theorem State.ReadsAll.isUnexpectedEnd {st st' : State W} {cs : List Char} {f : Fault}
    (h : State.ReadsAll cfg st (Lexeme.cut cs) st') (hmode : st.mode = .between)
    (hf : (LispForms.run cfg st cs).stop = .failed f) : f.isUnexpectedEnd = true := by
  rw [h.run_cut hg he hmode, run_nil _ he, State.close, h.mode hmode] at hf
  exact isUnexpectedEnd_endBetween hf

end

/-- The text ends at a lexeme at which a run halts without a fault or because the text ends. -/
theorem State.Halts.rest_eq_nil {st : State W} {o : Outcome W} (h : State.Halts cfg st x rest o)
    (hend : ∀ f, o.stop = .failed f → f.isUnexpectedEnd = true)
    (hcut : Lexeme.cut (x.text ++ rest) = x :: Lexeme.cut rest) : rest = [] := by
  have failed {f : Fault} (hstop : o.stop = .failed f) : rest = [] := by
    have hf := hend f hstop
    cases f with
    | misread e => exact (h.end_place hstop (beq_iff_eq.1 hf) hcut).1
    | _ => cases hf
  cases h with
  | comment => rfl
  | unmatched h | literal _ h | token _ _ h => exact failed h.stop

/-! ### Readings -/

/-- A reading of a text goes over the lexemes `xs` and leaves `ys`. It leaves none unless it fails
before the end of the text. Then the last lexeme that it goes over is at fault: what stands before
that lexeme has no fault but that it may be unfinished, and together with the lexeme it has the
fault of the whole text. -/
structure GoesOver (sv : Services W) (opts : Options) (text : String) (w : W)
    (xs ys : List Lexeme) : Prop where
  cut : Lexeme.cut text.toList = xs ++ ys
  whole : (∀ f, (read sv opts (.ofString text) w).fault = some f → f.isUnexpectedEnd = true) →
    ys = []
  last : ∀ f, (read sv opts (.ofString text) w).fault = some f → f.isUnexpectedEnd = false →
    ∃ before x, xs = before ++ [x] ∧
      (∀ g, (read sv opts (.ofString (.ofList (before.flatMap Lexeme.text))) w).fault = some g →
        g.isUnexpectedEnd = true) ∧
      (read sv opts (.ofString (.ofList (xs.flatMap Lexeme.text))) w).fault = some f

theorem read_recorded (sv : Services W) (opts : Options) (text : String) (w : W) :
    let plain := read sv opts (.ofString text) w
    let r := read sv.recorded opts (.ofString text) ([], w)
    r.forms = plain.forms ∧ r.fault = plain.fault ∧ r.world.2 = plain.world := by
  intro plain r
  let cfg : Settings W := ⟨sv, .all, opts.suppress, opts.endIsError, none, .complete⟩
  let st : State (List Call × W) :=
    .initial (.initial opts.line opts.col) ([], sv.note (Source.ofString text).opening w)
  have halike := @run_recorded _ cfg st rfl rfl rfl text.toList
  exact ⟨congrArg List.reverse halike.forms, Outcome.fault?_congr halike.stop, halike.world⟩

/-- The calls are those of the lexemes that the reading goes over, each in its turn. -/
theorem exists_goesOver (sv : Services W) (endIsError : Bool) (line col : Option Int)
    (text : String) (w : W) :
    ∃ xs ys, GoesOver sv ⟨endIsError, false, line, col⟩ text w xs ys ∧
      (read sv.recorded ⟨endIsError, false, line, col⟩ (.ofString text) ([], w)).world.1.reverse =
        xs.filterMap Lexeme.call? := by
  let cfg : Settings W := ⟨sv, .all, false, endIsError, none, .complete⟩
  let st : State (List Call × W) :=
    .initial (.initial line col) ([], sv.note (Source.ofString text).opening w)
  have hfault (cs : List Char) {f : Fault} :
      (read sv ⟨endIsError, false, line, col⟩ (.ofString (.ofList cs)) w).fault = some f ↔
        (run cfg st.plain cs).stop = .failed f := by
    rw [← Outcome.fault?_eq_some_iff, read_ofString, String.toList_ofList]
    rfl
  have hwhole {f : Fault} : (read sv ⟨endIsError, false, line, col⟩ (.ofString text) w).fault =
      some f ↔ (run cfg st.plain text.toList).stop = .failed f := by
    have h := @hfault text.toList f
    rwa [String.ofList_toList] at h
  obtain ⟨xs, st', hall, hend⟩ := @exists_readsAll _ cfg.recorded rfl rfl text.toList st rfl
  have hcalls : st'.world.1.reverse = xs.filterMap Lexeme.call? := by
    rw [hall.calls rfl]
    simp [st, State.initial]
  rcases hend with ⟨rfl, hrun⟩ | ⟨x, rest, hcut, hhalts⟩
  · have hworld : (run cfg.recorded st text.toList).state.world = st'.world := by
      rw [hrun, run_nil _ rfl, State.close, hall.mode rfl]
      rfl
    refine ⟨_, [], ⟨(List.append_nil _).symm, fun _ => rfl, fun f hf hend => ?_⟩, ?_⟩
    · rw [hall.plain.isUnexpectedEnd rfl rfl rfl (hwhole.1 hf)] at hend
      cases hend
    · rw [← hcalls, ← hworld]
      rfl
  · have hcut' : Lexeme.cut text.toList = (xs ++ [x]) ++ Lexeme.cut rest := by simp [hcut]
    obtain ⟨rest', hplain⟩ := hall.plain.halts rfl rfl hhalts.plain rfl hcut
    have hstop := (hhalts.plain.unique hplain).stop
    refine ⟨xs ++ [x], Lexeme.cut rest, ⟨hcut', fun hf => ?_, fun f hf hend => ?_⟩, ?_⟩
    · rw [hhalts.plain.rest_eq_nil ?_ (Lexeme.cut_text_append hcut), Lexeme.cut_nil]
      intro f hfailed
      rw [hstop] at hfailed
      exact hf f (hwhole.2 hfailed)
    · refine ⟨xs, x, rfl, fun g hg => ?_, ?_⟩
      · have hxs := hall.plain
        rw [← Lexeme.cut_flatMap hcut] at hxs
        exact hxs.isUnexpectedEnd rfl rfl rfl ((hfault _).1 hg)
      · obtain ⟨_, hlast⟩ := hall.plain.halts rfl rfl hhalts.plain rfl (Lexeme.cut_flatMap hcut')
        rw [hfault, (hlast.unique hplain).stop]
        exact hwhole.1 hf
    · show (run cfg.recorded st text.toList).state.world.1.reverse = _
      rw [hhalts.calls, List.filterMap_append, ← hcalls]
      cases hcall : x.call? <;> simp [hcall]

end LispForms
