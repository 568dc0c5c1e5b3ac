import Mathlib.Data.List.Nodup
import LispForms.Logging

/-! What logging is set up to do after any sequence of events. Each successful configuration puts
its own handler in the place of the one before; handlers of others stay as they are. A configuration
that fails on its level changes nothing, one that fails on its format leaves no handler behind. -/

namespace LispForms

theorem Level.named?_empty : Level.named? "" = none := by decide

namespace Logging

/-! ### One configuration -/

/-- Whether records can be written in a format; the empty one stands for a plain one. -/
def isFormat (format : String) : Bool := format == "" || hasField format.toList

namespace State

variable {s t : State} {asked : Option String} {format : String} {level : Nat} {f : Fault}

/-- The handlers without that of the latest configuration that made one. -/
def others (s : State) : List Handler :=
  match s.own with
  | some h => s.handlers.filter (·.id != h.id)
  | none => s.handlers

/-- The kind of handler that the environment asks for. -/
def kind (s : State) : HandlerKind := if s.env.writesOut then .stream else .null

/-- The handler that a configuration makes for a level. -/
def fresh (s : State) (level : Nat) : Handler := ⟨s.nextId, s.kind, level⟩

/-- The state that a successful configuration leaves. -/
def install (s : State) (level : Nat) : State :=
  { s with level, handlers := s.others ++ [s.fresh level], own := some (s.fresh level),
           nextId := s.nextId + 1 }

/-- The state that a faulty format leaves. -/
def strip (s : State) (level : Nat) : State := { s with level, handlers := s.others }

theorem makeHandler_eq (s : State) (asked : Option String) (format : String) :
    s.makeHandler asked format =
      if isFormat format then (parseLevel (s.levelName asked)).map s.fresh
      else .error (.invalidFormat format) := by
  have hformat : (format != "" && !hasField format.toList) = !isFormat format := by
    rw [isFormat, Bool.not_or]
    rfl
  simp only [makeHandler, hformat]
  cases isFormat format <;> cases parseLevel (s.levelName asked) <;> rfl

/-- A configuration does one of three things: it refuses its level, or it finds its format faulty
when the level is set and the former handler is gone, or it succeeds. -/
theorem configure_eq (s : State) (asked : Option String) (format : String) :
    s.configure asked format =
      match Level.named? (s.levelName asked) with
      | none => (.error (.unknownLevel (s.levelName asked)), s)
      | some level =>
        if isFormat format then (.ok (), s.install level)
        else (.error (.invalidFormat format), s.strip level) := by
  cases hlevel : Level.named? (s.levelName asked) with
  | none => simp only [configure, parseLevel, hlevel]
  | some level =>
    have hname : s.levelName asked ≠ "" := by
      intro hempty
      rw [hempty, Level.named?_empty] at hlevel
      contradiction
    -- the name that is looked up again is the one that was found
    have hasked : (s.strip level).levelName (some (s.levelName asked)) = s.levelName asked :=
      if_neg hname
    have hmake : (s.strip level).makeHandler (some (s.levelName asked)) format =
        if isFormat format then .ok (s.fresh level) else .error (.invalidFormat format) := by
      rw [makeHandler_eq, hasked, parseLevel, hlevel]
      rfl
    unfold strip others at hmake
    unfold install strip others
    simp only [configure, parseLevel, hlevel]
    cases hown : s.own with
    | none | some h =>
      simp only [hown] at hmake ⊢
      rw [hmake]
      cases isFormat format <;> rfl

theorem configure_of_named (h : Level.named? (s.levelName asked) = some level) :
    s.configure asked standardFormat = (.ok (), s.install level) := by
  have hformat : isFormat standardFormat = true := by decide +kernel
  simp only [configure_eq, h, hformat, if_true]

theorem configure_of_unnamed (h : Level.named? (s.levelName asked) = none) :
    s.configure asked format = (.error (.unknownLevel (s.levelName asked)), s) := by
  simp only [configure_eq, h]

theorem init_eq (s : State) (force : Bool) :
    s.init force =
      if s.initialized && !force then (.ok (), s)
      else match Level.named? (s.levelName none) with
        | none => (.error (.unknownLevel (s.levelName none)), s)
        | some level => (.ok (), { s.install level with initialized := true }) := by
  unfold init
  cases hlevel : Level.named? (s.levelName none) with
  | none => rw [configure_of_unnamed hlevel]
  | some level => rw [configure_of_named hlevel]

/-! ### What every operation keeps -/

/-- The states that differ at most in the environment and in whether logging was initialised. -/
structure Alike (s t : State) : Prop where
  level : t.level = s.level
  handlers : t.handlers = s.handlers
  own : t.own = s.own
  nextId : t.nextId = s.nextId

theorem Alike.refl (s : State) : Alike s s := ⟨rfl, rfl, rfl, rfl⟩

theorem Alike.others (h : Alike s t) : t.others = s.others := by
  rw [State.others, State.others, h.own, h.handlers]

/-- Every handler is one of its own, and the one of the latest configuration is in place. -/
structure Tidy (s : State) : Prop where
  distinct : (s.handlers.map Handler.id).Nodup
  used : ∀ hd ∈ s.handlers, hd.id < s.nextId
  own : ∀ hd, s.own = some hd → hd ∈ s.handlers ∧ hd.level = s.level

theorem others_sublist (s : State) : s.others.Sublist s.handlers := by
  unfold others
  split
  · exact List.filter_sublist
  · exact .refl _

namespace Tidy

variable {hd : Handler}

theorem initial (v : Variables) : Tidy (.initial v) :=
  ⟨List.nodup_nil, fun _ h => (List.not_mem_nil h).elim, fun _ h => nomatch h⟩

theorem alike (ht : Tidy s) (h : Alike s t) : Tidy t where
  distinct := h.handlers ▸ ht.distinct
  used := by
    rw [h.handlers, h.nextId]
    exact ht.used
  own := by
    rw [h.own, h.handlers, h.level]
    exact ht.own

/-- A handler with a new identity behind some of those from before. -/
theorem snoc (ht : Tidy s) {l : List Handler} (hl : l.Sublist s.handlers) (hid : hd.id = s.nextId) :
    ((l ++ [hd]).map Handler.id).Nodup ∧ ∀ x ∈ l ++ [hd], x.id < s.nextId + 1 := by
  have hused {x : Handler} (hx : x ∈ l) : x.id < s.nextId := ht.used x (hl.subset hx)
  constructor
  · rw [List.map_append, List.map_singleton]
    refine List.nodup_append.2 ⟨ht.distinct.sublist (hl.map _), List.nodup_singleton _, ?_⟩
    intro i hi j hj
    obtain ⟨x, hx, rfl⟩ := List.mem_map.1 hi
    rw [List.mem_singleton.1 hj, hid]
    exact Nat.ne_of_lt (hused hx)
  · intro x hx
    rcases List.mem_append.1 hx with hx | hx
    · exact Nat.lt_succ_of_lt (hused hx)
    · rw [List.mem_singleton.1 hx, hid]
      exact Nat.lt_succ_self _

theorem install (ht : Tidy s) (level : Nat) : Tidy (s.install level) where
  distinct := (ht.snoc s.others_sublist rfl).1
  used := (ht.snoc s.others_sublist rfl).2
  own := by
    intro hd h
    obtain rfl : s.fresh level = hd := Option.some.inj h
    exact ⟨List.mem_append_right _ (List.mem_singleton_self _), rfl⟩

theorem addHandler (ht : Tidy s) (kind : HandlerKind) (level : Nat) :
    Tidy (s.addHandler kind level) where
  distinct := (ht.snoc (.refl _) rfl).1
  used := (ht.snoc (.refl _) rfl).2
  own := fun hd h => (ht.own hd h).imp_left (List.mem_append_left _)

/-- Without its own handler, a state has the handlers before it and those behind it. -/
theorem handlers_split (ht : Tidy s) (h : s.own = some hd) :
    ∃ front back, s.handlers = front ++ hd :: back ∧ s.others = front ++ back := by
  obtain ⟨front, back, hsplit⟩ := List.append_of_mem (ht.own hd h).1
  have hdistinct := ht.distinct
  rw [hsplit, List.map_append, List.map_cons, List.nodup_middle, List.nodup_cons,
    ← List.map_append] at hdistinct
  have hrest {x : Handler} (hx : x ∈ front ++ back) : (x.id != hd.id) = true := by
    rw [bne_iff_ne]
    rintro he
    exact hdistinct.1 (he ▸ List.mem_map_of_mem hx)
  refine ⟨front, back, hsplit, ?_⟩
  rw [others, h, hsplit]
  simp only [List.filter_append, List.filter_cons, bne_self_eq_false, Bool.false_eq_true, if_false]
  rw [← List.filter_append, List.filter_eq_self]
  exact fun x => hrest

theorem others_install (ht : Tidy s) (level : Nat) : (s.install level).others = s.others := by
  have hne : ∀ hd ∈ s.others, (hd.id != (s.fresh level).id) = true :=
    fun hd h => bne_iff_ne.2 (Nat.ne_of_lt (ht.used hd (s.others_sublist.subset h)))
  show (s.others ++ [s.fresh level]).filter (·.id != (s.fresh level).id) = s.others
  rw [List.filter_append, List.filter_eq_self.2 hne]
  simp

theorem others_addHandler (ht : Tidy s) (kind : HandlerKind) (level : Nat) :
    (s.addHandler kind level).others = s.others ++ [⟨s.nextId, kind, level⟩] := by
  unfold others State.addHandler
  cases hown : s.own with
  | none => rfl
  | some hd =>
    have hne : s.nextId ≠ hd.id := (Nat.ne_of_lt (ht.used hd (ht.own hd hown).1)).symm
    simp [hne]

end Tidy

end State

/-! ### Histories -/

/-- What happens to logging. -/
inductive Event where
  | set (x : Variable) (text : Option String)
  | configure (asked : Option String)
  | init (force : Bool)
  /-- Someone else adds a handler. -/
  | addHandler (kind : HandlerKind) (level : Nat)

/-- A variable that cannot hold its text stays as it is. -/
def State.set (s : State) (x : Variable) (text : Option String) : Except Fault Unit × State :=
  match s.env.set x text with
  | .ok env => (.ok (), { s with env })
  | .error f => (.error f, s)

theorem State.set_keeps (s : State) (x : Variable) (text : Option String) :
    State.Alike s (s.set x text).2 ∧ (s.set x text).2.initialized = s.initialized := by
  unfold State.set
  cases s.env.set x text with
  | ok env => exact ⟨⟨rfl, rfl, rfl, rfl⟩, rfl⟩
  | error f => exact ⟨.refl s, rfl⟩

def Event.run (s : State) : Event → Except Fault Unit × State
  | set x text => s.set x text
  | configure asked => s.configure asked standardFormat
  | init force => s.init force
  | addHandler kind level => (.ok (), s.addHandler kind level)

/-- The state after a history, whose latest event comes first. -/
def after (v : Variables) : List Event → State
  | [] => .initial v
  | e :: past => (e.run (after v past)).2

/-- An initialisation has succeeded. -/
inductive Initialized (v : Variables) : List Event → Prop
  | now {past : List Event} {force : Bool} :
    (Event.run (after v past) (.init force)).1 = .ok () → Initialized v (.init force :: past)
  | before {past : List Event} (e : Event) : Initialized v past → Initialized v (e :: past)

/-- The events behind a history that configure, and the level that each asks for. -/
inductive Configures (v : Variables) (past : List Event) : Event → Option String → Prop
  | configure (asked : Option String) : Configures v past (.configure asked) asked
  | init {force : Bool} : force = true ∨ ¬ Initialized v past → Configures v past (.init force) none

/-- An event configures with success, which makes a handler. -/
def Makes (v : Variables) (past : List Event) (e : Event) (hd : Handler) : Prop :=
  ∃ asked level, Configures v past e asked ∧
    Level.named? ((after v past).levelName asked) = some level ∧ hd = (after v past).fresh level

/-- The handlers made by the configurations of a history. -/
inductive Made (v : Variables) : List Event → Handler → Prop
  | now {past : List Event} {e : Event} {hd : Handler} : Makes v past e hd → Made v (e :: past) hd
  | before {past : List Event} {hd : Handler} (e : Event) : Made v past hd → Made v (e :: past) hd

/-- The handler made by the latest configuration that made one. -/
inductive Latest (v : Variables) : List Event → Handler → Prop
  | now {past : List Event} {e : Event} {hd : Handler} : Makes v past e hd → Latest v (e :: past) hd
  | before {past : List Event} {e : Event} {hd : Handler} :
    (∀ new, ¬ Makes v past e new) → Latest v past hd → Latest v (e :: past) hd

/-- The handlers added by others, in order. -/
def added (v : Variables) : List Event → List Handler
  | [] => []
  | .addHandler kind level :: past => added v past ++ [⟨(after v past).nextId, kind, level⟩]
  | _ :: past => added v past

section History

variable {v : Variables} {h : List Event} {e : Event} {hd : Handler}

/-- The flag records whether an initialisation has succeeded. -/
theorem initialized_run (s : State) (e : Event) :
    (e.run s).2.initialized = true ↔
      s.initialized = true ∨ ∃ force, e = .init force ∧ (e.run s).1 = .ok () := by
  cases e with
  | set x text => simp [Event.run, s.set_keeps x text]
  | configure asked =>
    simp only [Event.run]
    cases hlevel : Level.named? (s.levelName asked) with
    | none => simp [State.configure_of_unnamed hlevel]
    | some level => simp [State.configure_of_named hlevel, State.install]
  | init force =>
    simp only [Event.run, State.init_eq]
    by_cases hskip : (s.initialized && !force) = true
    · simp_all
    · cases Level.named? (s.levelName none) <;> simp [hskip]
  | addHandler kind level => simp [Event.run, State.addHandler]

theorem initialized_after (v : Variables) (h : List Event) :
    (after v h).initialized = true ↔ Initialized v h := by
  induction h with
  | nil => exact ⟨fun h => (Bool.false_ne_true h).elim, fun h => nomatch h⟩
  | cons e past ih =>
    rw [after, initialized_run, ih]
    constructor
    · rintro (hpast | ⟨force, rfl, hok⟩)
      · exact .before e hpast
      · exact .now hok
    · intro h
      cases h with
      | now hok => exact .inr ⟨_, rfl, hok⟩
      | before _ hpast => exact .inl hpast

theorem skips_iff {force : Bool} :
    ((after v h).initialized && !force) = true ↔ force = false ∧ Initialized v h := by
  rw [Bool.and_eq_true, initialized_after, Bool.not_eq_true', and_comm]

/-- An event that configures is refused, without any effect, or puts up a new handler. -/
theorem run_of_configures {asked : Option String} (hc : Configures v h e asked) :
    match Level.named? ((after v h).levelName asked) with
    | none => e.run (after v h) = (.error (.unknownLevel ((after v h).levelName asked)), after v h)
    | some level => (e.run (after v h)).1 = .ok () ∧
        State.Alike ((after v h).install level) (after v (e :: h)) := by
  cases hc with
  | configure =>
    have hrun : Event.run (after v h) (.configure asked) =
        (after v h).configure asked standardFormat := by rw [Event.run]
    cases hlevel : Level.named? ((after v h).levelName asked) with
    | none => exact hrun.trans (State.configure_of_unnamed hlevel)
    | some level =>
      rw [State.configure_of_named hlevel] at hrun
      refine ⟨congrArg Prod.fst hrun, ?_⟩
      rw [after, hrun]
      exact .refl _
  | @init force hforce =>
    have hskip : ¬ ((after v h).initialized && !force) = true := by
      rw [skips_iff]
      grind
    have hrun : Event.run (after v h) (.init force) = _ :=
      (State.init_eq (after v h) force).trans (if_neg hskip)
    cases hlevel : Level.named? ((after v h).levelName none) with
    | none => simpa only [hlevel] using hrun
    | some level =>
      simp only [hlevel] at hrun
      refine ⟨congrArg Prod.fst hrun, ?_⟩
      rw [after, hrun]
      exact ⟨rfl, rfl, rfl, rfl⟩

theorem run_of_makes (hm : Makes v h e hd) :
    ∃ level, hd = (after v h).fresh level ∧
      State.Alike ((after v h).install level) (after v (e :: h)) ∧
      added v (e :: h) = added v h := by
  obtain ⟨asked, level, hc, hlevel, rfl⟩ := hm
  have hrun := run_of_configures hc
  simp only [hlevel] at hrun
  refine ⟨level, rfl, hrun.2, ?_⟩
  cases hc <;> rfl

/-- An event that makes no handler changes nothing, or it is the handler of someone else. -/
theorem run_of_not_makes (hm : ∀ hd, ¬ Makes v h e hd) :
    (∃ kind level, e = .addHandler kind level) ∨
      State.Alike (after v h) (after v (e :: h)) ∧ added v (e :: h) = added v h := by
  have hrefused {asked : Option String} (hc : Configures v h e asked) :
      State.Alike (after v h) (after v (e :: h)) := by
    have hrun := run_of_configures hc
    cases hlevel : Level.named? ((after v h).levelName asked) with
    | none =>
      simp only [hlevel] at hrun
      rw [after, hrun]
      exact .refl _
    | some level => exact absurd ⟨asked, level, hc, hlevel, rfl⟩ (hm _)
  cases e with
  | set x text => exact .inr ⟨((after v h).set_keeps x text).1, rfl⟩
  | configure asked => exact .inr ⟨hrefused (.configure asked), rfl⟩
  | init force =>
    refine .inr ⟨?_, rfl⟩
    by_cases hskip : ((after v h).initialized && !force) = true
    · have hrun : Event.run (after v h) (.init force) = (.ok (), after v h) :=
        (State.init_eq (after v h) force).trans (if_pos hskip)
      rw [after, hrun]
      exact .refl _
    · rw [skips_iff] at hskip
      exact hrefused (.init (by grind))
  | addHandler kind level => exact .inl ⟨kind, level, rfl⟩

/-- What an event does to the handlers: it makes one, or someone else adds one, or nothing. -/
theorem event_cases (v : Variables) (h : List Event) (e : Event) :
    (∃ level, Makes v h e ((after v h).fresh level) ∧
      State.Alike ((after v h).install level) (after v (e :: h)) ∧
      added v (e :: h) = added v h) ∨
    (∀ hd, ¬ Makes v h e hd) ∧
      ((∃ kind level, e = .addHandler kind level) ∨
        State.Alike (after v h) (after v (e :: h)) ∧ added v (e :: h) = added v h) := by
  by_cases hm : ∃ hd, Makes v h e hd
  · obtain ⟨hd, hm⟩ := hm
    obtain ⟨level, rfl, hrun⟩ := run_of_makes hm
    exact .inl ⟨level, hm, hrun⟩
  · exact .inr ⟨not_exists.1 hm, run_of_not_makes (not_exists.1 hm)⟩

theorem tidy_after (v : Variables) (h : List Event) : (after v h).Tidy := by
  induction h with
  | nil => exact .initial v
  | cons e past ih =>
    obtain ⟨level, -, halike, -⟩ | ⟨-, ⟨kind, level, rfl⟩ | ⟨halike, -⟩⟩ := event_cases v past e
    · exact (ih.install level).alike halike
    · exact ih.addHandler kind level
    · exact ih.alike halike

theorem others_after (v : Variables) (h : List Event) : (after v h).others = added v h := by
  induction h with
  | nil => rfl
  | cons e past ih =>
    have ht := tidy_after v past
    obtain ⟨level, -, halike, hadded⟩ | ⟨-, ⟨kind, level, rfl⟩ | ⟨halike, hadded⟩⟩ :=
      event_cases v past e
    · rw [halike.others, ht.others_install, ih, hadded]
    · exact (ht.others_addHandler kind level).trans (congrArg (· ++ _) ih)
    · rw [halike.others, ih, hadded]

theorem Makes.unique {hd' : Handler} (hm : Makes v h e hd) (hm' : Makes v h e hd') : hd = hd' := by
  obtain ⟨asked, level, hc, hlevel, rfl⟩ := hm
  obtain ⟨asked', level', hc', hlevel', rfl⟩ := hm'
  obtain rfl : asked = asked' := by
    cases hc <;> cases hc' <;> rfl
  rw [Option.some.inj (hlevel.symm.trans hlevel')]

theorem latest_cons_of_makes {new : Handler} (hm : Makes v h e new) :
    Latest v (e :: h) hd ↔ new = hd := by
  constructor
  · intro hl
    cases hl with
    | now hm' => exact hm.unique hm'
    | before hnone _ => exact absurd hm (hnone _)
  · rintro rfl
    exact .now hm

theorem latest_cons_of_not_makes (hm : ∀ new, ¬ Makes v h e new) :
    Latest v (e :: h) hd ↔ Latest v h hd := by
  constructor
  · intro hl
    cases hl with
    | now hm' => exact absurd hm' (hm _)
    | before _ hpast => exact hpast
  · exact .before hm

/-- What is remembered is the handler of the latest configuration that made one. -/
theorem own_after (v : Variables) (h : List Event) (hd : Handler) :
    (after v h).own = some hd ↔ Latest v h hd := by
  induction h with
  | nil => exact ⟨fun h => (Option.some_ne_none _ h.symm).elim, fun h => (nomatch h)⟩
  | cons e past ih =>
    obtain ⟨level, hm, halike, -⟩ | ⟨hm, ⟨kind, level, rfl⟩ | ⟨halike, -⟩⟩ := event_cases v past e
    · rw [latest_cons_of_makes hm, halike.own]
      exact Option.some_inj
    · exact ih.trans (latest_cons_of_not_makes hm).symm
    · rw [latest_cons_of_not_makes hm, halike.own, ih]

theorem Latest.made (hl : Latest v h hd) : Made v h hd := by
  induction hl with
  | now hm => exact .now hm
  | before _ _ ih => exact .before _ ih

theorem exists_latest (hm : Made v h hd) : ∃ new, Latest v h new := by
  induction hm with
  | now hm => exact ⟨_, .now hm⟩
  | before e _ ih =>
    obtain ⟨level, hm, -⟩ | ⟨hm, -⟩ := event_cases v _ e
    · exact ⟨_, .now hm⟩
    · exact ih.imp fun _ hl => .before hm hl

theorem nextId_le (v : Variables) (h : List Event) (e : Event) :
    (after v h).nextId ≤ (after v (e :: h)).nextId := by
  obtain ⟨level, -, halike, -⟩ | ⟨-, ⟨kind, level, rfl⟩ | ⟨halike, -⟩⟩ := event_cases v h e
  · exact halike.nextId ▸ Nat.le_succ _
  · exact Nat.le_succ _
  · exact Nat.le_of_eq halike.nextId.symm

theorem Made.id_lt (hm : Made v h hd) : hd.id < (after v h).nextId := by
  induction hm with
  | now hm =>
    obtain ⟨level, rfl, halike, -⟩ := run_of_makes hm
    exact halike.nextId ▸ Nat.lt_succ_self _
  | before e _ ih => exact Nat.lt_of_lt_of_le ih (nextId_le _ _ e)

/-- No handler that was made is among those of others. -/
theorem Made.not_mem_added (hm : Made v h hd) : hd ∉ added v h := by
  induction hm with
  | @now past e hd hm =>
    obtain ⟨level, rfl, -, hadded⟩ := run_of_makes hm
    rw [hadded, ← others_after]
    intro hmem
    have hused := (tidy_after v past).used _ ((after v past).others_sublist.subset hmem)
    exact Nat.lt_irrefl _ hused
  | @before past hd e hpast ih =>
    obtain ⟨level, -, -, hadded⟩ | ⟨-, ⟨kind, level, rfl⟩ | ⟨-, hadded⟩⟩ := event_cases v past e
    · rwa [hadded]
    · intro hmem
      rcases List.mem_append.1 hmem with hmem | hmem
      · exact ih hmem
      · rw [List.mem_singleton.1 hmem] at hpast
        exact Nat.lt_irrefl _ hpast.id_lt
    · rwa [hadded]

/-- Of the handlers that were made, the one that is in place is the latest. -/
theorem latest_iff (v : Variables) (h : List Event) (hd : Handler) :
    Latest v h hd ↔ Made v h hd ∧ hd ∈ (after v h).handlers := by
  have ht := tidy_after v h
  constructor
  · intro hl
    exact ⟨hl.made, (ht.own hd ((own_after v h hd).2 hl)).1⟩
  · rintro ⟨hm, hmem⟩
    obtain ⟨new, hl⟩ := exists_latest hm
    obtain ⟨front, back, hhandlers, hothers⟩ := ht.handlers_split ((own_after v h new).2 hl)
    have hnot : hd ∉ front ++ back := by
      rw [← hothers, others_after]
      exact hm.not_mem_added
    rw [hhandlers] at hmem
    obtain rfl : hd = new := by
      simp only [List.mem_append, List.mem_cons] at hmem hnot
      grind
    exact hl

/-- Logging carries the handlers of others, in order, and once a configuration has succeeded, the
handler of the latest that has, at the level of that configuration. A configuration that refuses its
level changes nothing; an initialisation configures if it is forced to or none has succeeded yet,
and otherwise changes nothing. -/
theorem handlers_after (v : Variables) (h : List Event) :
    let s := after v h
    (s.handlers.map Handler.id).Nodup ∧
    (∀ hd, Latest v h hd ↔ Made v h hd ∧ hd ∈ s.handlers) ∧
    ((∀ hd, ¬ Made v h hd) → s.handlers = added v h) ∧
    ((∃ hd, Made v h hd) → ∃ hd front back, (∀ new, Latest v h new ↔ new = hd) ∧
      s.level = hd.level ∧ s.handlers = front ++ hd :: back ∧ added v h = front ++ back) ∧
    (∀ e asked, Configures v h e asked →
      match Level.named? (s.levelName asked) with
      | some level => (e.run s).1 = .ok () ∧ Makes v h e (s.fresh level)
      | none => e.run s = (.error (.unknownLevel (s.levelName asked)), s)) ∧
    ∀ force, (Event.init force).run s = (.ok (), s) ↔ force = false ∧ Initialized v h := by
  intro s
  have ht : s.Tidy := tidy_after v h
  refine ⟨ht.distinct, latest_iff v h, ?_, ?_, ?_, ?_⟩
  · intro hnone
    have hown : s.own = none := by
      rw [Option.eq_none_iff_forall_ne_some]
      exact fun hd hown => hnone hd ((own_after v h hd).1 hown).made
    have hothers : s.others = s.handlers := by
      rw [State.others, hown]
    rw [← hothers, others_after]
  · rintro ⟨hd, hm⟩
    obtain ⟨new, hl⟩ := exists_latest hm
    have hown := (own_after v h new).2 hl
    obtain ⟨front, back, hhandlers, hothers⟩ := ht.handlers_split hown
    have hunique (hd : Handler) : Latest v h hd ↔ hd = new := by
      rw [← own_after, hown, Option.some_inj, eq_comm]
    exact ⟨new, front, back, hunique, ((ht.own new hown).2).symm, hhandlers,
      (others_after v h).symm.trans hothers⟩
  · intro e asked hc
    have hrun := run_of_configures hc
    cases hlevel : Level.named? (s.levelName asked) with
    | none => simpa only [s, hlevel] using hrun
    | some level =>
      simp only [s, hlevel] at hrun
      exact ⟨hrun.1, asked, level, hc, hlevel, rfl⟩
  · intro force
    rw [← skips_iff]
    show s.init force = _ ↔ _
    rw [State.init_eq]
    cases hlevel : Level.named? (s.levelName none) <;> grind [State.install]

end History

/-! ### Faults -/

/-- A configuration that fails on its level changes nothing. One that fails on its format has set
the level and taken down the handler that is still remembered, so that records reach the handlers of
others alone, or the last resort where there are none. -/
theorem State.configure_fault {s : State} {asked : Option String} {format : String} {f : Fault}
    (h : (s.configure asked format).1 = .error f) :
    let t := (s.configure asked format).2
    t.own = s.own ∧
    ((t.level = s.level ∧ t.handlers = s.handlers) ↔
      Level.named? (s.levelName asked) = none ∨
        Level.named? (s.levelName asked) = some s.level ∧ s.others = s.handlers) ∧
    match Level.named? (s.levelName asked) with
    | none => f = .unknownLevel (s.levelName asked) ∧ t = s
    | some level => f = .invalidFormat format ∧ isFormat format = false ∧ t = s.strip level ∧
        ∀ n, t.writes n = (n.passes level &&
          if s.others.isEmpty then decide (Level.warning ≤ n.level)
          else s.others.any fun hd => hd.kind == .stream && hd.level ≤ n.level) := by
  intro t
  cases hlevel : Level.named? (s.levelName asked) with
  | none =>
    have hrun : s.configure asked format = _ := State.configure_of_unnamed hlevel
    have ht : t = s := congrArg Prod.snd hrun
    rw [hrun] at h
    exact ⟨congrArg own ht, by simp [ht], (Except.error.inj h).symm, ht⟩
  | some level =>
    have hrun := s.configure_eq asked format
    simp only [hlevel] at hrun
    cases hformat : isFormat format with
    | true =>
      rw [hrun, hformat] at h
      contradiction
    | false =>
      have ht : t = s.strip level := by
        show (s.configure asked format).2 = _
        rw [hrun, hformat]
        rfl
      rw [hrun, hformat] at h
      refine ⟨?_, ?_, (Except.error.inj h).symm, rfl, ht, fun n => ?_⟩
      · rw [ht]
        rfl
      · rw [ht]
        simp [strip]
      · rw [ht]
        rfl

/-- A configuration for debugging in a format without fields, after one that succeeded. -/
theorem State.configure_fault_plain :
    let s := after ⟨none, some "true"⟩ [.configure (some "INFO")]
    let t := (s.configure (some "DEBUG") "plain").2
    (s.configure (some "DEBUG") "plain").1 = .error (.invalidFormat "plain") ∧
      t.own = s.own ∧ t = s.strip 10 := by
  intro s t
  have hfault : (s.configure (some "DEBUG") "plain").1 = .error (.invalidFormat "plain") := by
    decide +kernel
  have h := State.configure_fault hfault
  exact ⟨hfault, h.1, h.2.2.2.2.1⟩

/-- Records of that level and above went to a stream. Once the format has failed, those below
warnings go nowhere, and warnings and what is above them to the last resort alone. -/
theorem State.configure_strips :
    let s := after ⟨none, some "true"⟩ [.configure (some "INFO")]
    let r := s.configure (some "DEBUG") "plain"
    r.1 = .error (.invalidFormat "plain") ∧
      s.level = 20 ∧ s.handlers = [⟨0, .stream, 20⟩] ∧ s.own = some ⟨0, .stream, 20⟩ ∧
      (∀ n, s.writes n = decide (20 ≤ n.level)) ∧
      r.2.level = 10 ∧ r.2.handlers = [] ∧ r.2.own = some ⟨0, .stream, 20⟩ ∧
      ∀ n, r.2.writes n = decide (Level.warning ≤ n.level) := by
  intro s r
  have hs : s.level = 20 ∧ s.handlers = [⟨0, .stream, 20⟩] ∧ s.own = some ⟨0, .stream, 20⟩ := by
    decide +kernel
  have hr : r.1 = .error (.invalidFormat "plain") ∧ r.2.level = 10 ∧ r.2.handlers = [] ∧
      r.2.own = some ⟨0, .stream, 20⟩ := by
    decide +kernel
  refine ⟨hr.1, hs.1, hs.2.1, hs.2.2, fun n => ?_, hr.2.1, hr.2.2.1, hr.2.2.2, fun n => ?_⟩
  · simp [State.writes, Note.passes, Level.effective, hs.1, hs.2.1]
  · have hpasses : Level.effective 10 ≤ Level.warning := by decide
    rw [State.writes, Note.passes, hr.2.1, hr.2.2.1, List.isEmpty_nil, if_pos rfl, Bool.eq_iff_iff,
      Bool.and_eq_true, decide_eq_true_eq, decide_eq_true_eq]
    exact and_iff_right_of_imp (Nat.le_trans hpasses)

end Logging
end LispForms
