import LispForms.Command.Run
import LispForms.Proofs.Settled

/-! Printing after reading is a normal form. Every form that a text is read as is settled, by an
invariant of the second pass, so that the printed forms are read and printed again as they stand. -/

namespace LispForms

variable {env : Host.Environment} {v : Form} {a a' : Assembly Store} {xs : List Lexeme}

theorem map_print_eq {style : Style} {items vs : List Form}
    (h : List.Forall₂ (fun x v => v.print style = x.print style) items vs) :
    vs.map (Form.print style) = items.map (Form.print style) := by
  have hall : List.Forall₂ (· = ·) (vs.map (Form.print style)) (items.map (Form.print style)) := by
    rw [List.forall₂_map_left_iff, List.forall₂_map_right_iff]
    exact h.flip
  rwa [List.forall₂_eq_eq_eq] at hall

theorem settled_list {items : List Form} (h : ∀ x ∈ items, x.Settled env) (span : Option Span) :
    (Form.list items span).Settled env := by
  refine (ReadAs.list h span).imp fun v hv => ?_
  obtain ⟨vs, rfl, hprint⟩ := hv
  have hstyle : Style.standard.forItems = Style.standard := rfl
  rw [Form.print, Form.print, Form.printItems_eq_map, Form.printItems_eq_map, hstyle,
    map_print_eq hprint]

/-- In a running store every form read so far is settled. -/
structure Assembly.Holds (env : Host.Environment) (a : Assembly Store) : Prop where
  running : a.world.Running
  lists : ∀ items ∈ a.lists, ∀ x ∈ items, x.Settled env
  forms : ∀ x ∈ a.forms, x.Settled env

namespace Assembly.Holds

theorem put (h : a.Holds env) (hv : v.Settled env) : (a.put v).Holds env := by
  obtain ⟨lists, forms, world⟩ := a
  have hcons {items : List Form} (hitems : ∀ x ∈ items, x.Settled env) :
      ∀ x ∈ v :: items, x.Settled env := List.forall_mem_cons.2 ⟨hv, hitems⟩
  cases lists with
  | nil => exact ⟨h.running, h.lists, hcons h.forms⟩
  | cons items outer =>
    obtain ⟨hitems, houter⟩ := List.forall_mem_cons.1 h.lists
    exact ⟨h.running, List.forall_mem_cons.2 ⟨hcons hitems, houter⟩, h.forms⟩

theorem receive {r : Except Fault Form} (h : a.Holds env) (hr : ∀ v, r = .ok v → v.Settled env)
    (he : a.receive r = (a', none)) : a'.Holds env := by
  cases r with
  | error f => cases he
  | ok v =>
    cases he
    exact h.put (hr v rfl)

/-- What one lexeme leaves of the invariant. -/
theorem take {x : Lexeme} (h : a.Holds env) (hx : ∀ cs, x = .token cs → IsTokenText cs)
    (he : a.take (.standard env) x = (a', none)) : a'.Holds env := by
  cases x with
  | blank | comment =>
    cases he
    exact h
  | opening =>
    cases he
    exact ⟨h.running, List.forall_mem_cons.2 ⟨by simp, h.lists⟩, h.forms⟩
  | closing =>
    obtain ⟨lists, forms, world⟩ := a
    cases lists with
    | nil => cases he
    | cons items outer =>
      cases he
      obtain ⟨hitems, houter⟩ := List.forall_mem_cons.1 h.lists
      refine put ⟨h.running, houter, h.forms⟩ (settled_list (fun y hy => ?_) none)
      exact hitems y (List.mem_reverse.1 hy)
  | string body closed =>
    refine h.receive (fun v hv => ?_) he
    unfold Assembly.stringValue at hv
    split at hv
    · split at hv <;> cases hv
      exact settled_of_readable fun _ => .text _
    · cases hv
  | character name =>
    refine h.receive (fun v hv => ?_) he
    unfold Assembly.characterValue at hv
    split at hv <;> cases hv
    exact settled_of_readable fun _ => .text _
  | token cs =>
    have hrunning := (Store.keeps_running env).interpret h.running Problem.unplaced cs
    simp only [Assembly.take] at he
    refine receive (a := { a with world := _ }) ⟨hrunning, h.lists, h.forms⟩ (fun v hv => ?_) he
    exact settled_of_interpret (hx cs rfl) h.running hv

/-- What a run leaves of the invariant, if it does not fail. -/
theorem run (h : a.Holds env) (hxs : ∀ cs, .token cs ∈ xs → IsTokenText cs)
    (he : a.run (.standard env) xs = (a', none)) : a'.Holds env := by
  induction xs generalizing a with
  | nil =>
    obtain rfl := (Prod.mk.inj he).1
    exact h
  | cons x xs ih =>
    rw [Assembly.run] at he
    split at he
    next b hb =>
      refine ih (h.take (fun cs hc => ?_) hb) (fun cs hc => ?_) he
      · exact hxs cs (hc ▸ List.mem_cons_self)
      · exact hxs cs (List.mem_cons_of_mem x hc)
    next => cases he

end Assembly.Holds

/-- A text that is read without a fault is read as settled forms. -/
theorem settled_of_read {s : Store} (hs : s.Running) {line col : Option Int} {text : String}
    (h : (read (.standard env) ⟨false, false, line, col⟩ (.ofString text) s).fault = none) :
    ∀ x ∈ (read (.standard env) ⟨false, false, line, col⟩ (.ofString text) s).forms,
      x.bare.Settled env := by
  have hbare := bare_read (Services.plain_standard env) line col text s
  let start : Assembly Store :=
    ⟨[], [], (Services.standard env).note (Source.ofString text).opening s⟩
  have hstart : start.Holds env :=
    ⟨(Store.keeps_running env).note _ hs, by simp [start], by simp [start]⟩
  cases hrun : start.run (.standard env) (Lexeme.cut text.toList) with
  | mk a fault =>
    have hreading : Assembly.reading (.standard env) text.toList
        ((Services.standard env).note (Source.ofString text).opening s) =
        ⟨a.forms.reverse, fault, a.world⟩ := by
      rw [Assembly.reading, hrun]
    rw [hreading] at hbare
    have hforms : Reading.forms (Reading.bare _) = a.forms.reverse := congrArg Reading.forms hbare
    have hfault : Reading.fault (Reading.bare _) = fault := congrArg Reading.fault hbare
    rw [Reading.bare, h] at hfault
    rw [← hfault] at hrun
    have hholds : a.Holds env := hstart.run (fun cs => Lexeme.isTokenText_of_mem_cut) hrun
    intro x hx
    have hmem : x.bare ∈ a.forms.reverse := by
      rw [← hforms]
      exact List.mem_map_of_mem hx
    exact hholds.forms _ (List.mem_reverse.1 hmem)

theorem toList_printForms (forms : List Form) : (Command.printForms forms).toList =
    (forms.map fun x => (x.bare.print .standard).toList).flatMap (· ++ ['\n']) := by
  rw [Command.printForms, String.toList_join, List.flatMap_map, List.flatMap_map]
  refine List.flatMap_congr fun x _ => ?_
  rw [String.toList_append, Form.print_bare]
  rfl

/-- What is printed depends on no more than the prints of the forms. -/
theorem printForms_congr {xs ys : List Form}
    (h : xs.map (Form.print .standard) = ys.map (Form.print .standard)) :
    Command.printForms xs = Command.printForms ys := by
  have hlines (zs : List Form) : Command.printForms zs =
      String.join ((zs.map (Form.print .standard)).map (· ++ "\n")) := by
    rw [Command.printForms, List.map_map]
    rfl
  rw [hlines, hlines, h]

/-- Settled forms, printed one on a line, are read as forms with the same prints. -/
theorem read_printForms {forms : List Form} (h : ∀ x ∈ forms, x.bare.Settled env) {t : Store}
    (ht : t.Running) (line col : Option Int) :
    let again := read (.standard env) ⟨false, false, line, col⟩
      (.ofString (Command.printForms forms)) t
    again.fault = none ∧
      again.forms.map (Form.print .standard) = forms.map (Form.print .standard) := by
  intro again
  have hsettled : ∀ x ∈ forms.map Form.bare, x.Settled env := by
    intro x hx
    obtain ⟨y, hy, rfl⟩ := List.mem_map.1 hx
    exact h y hy
  let start := (Services.standard env).note (Source.ofString (Command.printForms forms)).opening t
  obtain ⟨vs, t', hall, hprint, -⟩ := @SpellsAll.of_forall _ (.standard env) Store.Running
    (fun x v => v.print .standard = x.print .standard) (fun x => (x.print .standard).toList)
    (forms.map Form.bare) hsettled start ((Store.keeps_running env).note _ ht)
  have hreading : Assembly.reading (.standard env) (Command.printForms forms).toList start =
      ⟨vs, none, t'⟩ := by
    rw [toList_printForms, ← hall.reading, List.map_map]
    rfl
  have hbare : again.bare = ⟨vs, none, t'⟩ :=
    (bare_read (Services.plain_standard env) line col _ t).trans hreading
  obtain ⟨hfault, hforms⟩ := Reading.of_bare hbare
  refine ⟨hfault, ?_⟩
  have hmap := map_print_eq hprint
  rw [← hforms, List.map_map, List.map_map] at hmap
  simpa only [Function.comp_def, Form.print_bare] using hmap

/-- The printed forms of a text that is read without a fault, one on a line, are read without a
fault, in whatever store: as many forms, and printed again they are the same text. -/
theorem printForms_read_printForms (env : Host.Environment) {ns ns' : List Namespace} {s t : Store}
    (hs : Store.Reachable ns s) (ht : Store.Reachable ns' t) (line col line' col' : Option Int)
    (text : String)
    (h : (read (.standard env) ⟨false, false, line, col⟩ (.ofString text) s).fault = none) :
    let forms := (read (.standard env) ⟨false, false, line, col⟩ (.ofString text) s).forms
    let again := read (.standard env) ⟨false, false, line', col'⟩
      (.ofString (Command.printForms forms)) t
    again.fault = none ∧ again.forms.length = forms.length ∧
      Command.printForms again.forms = Command.printForms forms := by
  intro forms again
  obtain ⟨hfault, hprints⟩ := read_printForms (settled_of_read ⟨ns, hs⟩ h) ⟨ns', ht⟩ line' col'
  refine ⟨hfault, ?_, printForms_congr hprints⟩
  simpa only [List.length_map] using congrArg List.length hprints

/-- Two negative numbers, an infinity and a character: neither the list nor the number behind it is
the same form when it is read back. -/
theorem printForms_read_printForms_changed :
    let r := read (.standard .standard) ⟨false, false, none, none⟩
      (.ofString "(-5. 1e999 \\a) -1.0e300") .empty
    let again := read (.standard .standard) ⟨false, false, none, none⟩
      (.ofString (Command.printForms r.forms)) .empty
    r.fault = none ∧ again.fault = none ∧ again.forms.length = r.forms.length ∧
      Command.printForms again.forms = Command.printForms r.forms ∧
      again.forms.zipWith Form.same r.forms = [false, false] := by
  intro r again
  have h : r.fault = none := by decide +kernel
  obtain ⟨hfault, hlength, hprint⟩ :=
    printForms_read_printForms .standard .empty .empty none none none none _ h
  exact ⟨h, hfault, hlength, hprint, by decide +kernel⟩

end LispForms
