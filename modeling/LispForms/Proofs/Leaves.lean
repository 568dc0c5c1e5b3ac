import LispForms.Proofs.Nesting
import LispForms.Proofs.Suppression

/-! What holds of every form that is read, seen from its leaves. It is enough that it holds of
strings and of the values of tokens, and of a list if it holds of all items. -/

namespace LispForms

variable {W : Type} {sv : Services W} {P : W → Prop} {Q : Form → Prop}

/-- It holds of every leaf that a reading in the worlds of `P` can have, and passes on to lists. -/
structure Services.Builds (sv : Services W) (P : W → Prop) (Q : Form → Prop) : Prop where
  keeps : sv.Keeps P
  nil : Q .nil
  text : ∀ content, Q (.text content)
  token : ∀ {cs w v w'}, IsTokenText cs → P w →
    sv.interpret Problem.unplaced cs w = (.ok v, w') → Q v
  list : ∀ {items} span, (∀ v ∈ items, Q v) → Q (.list items span)

namespace Services.Builds

theorem laid (hb : sv.Builds P Q) {m : Mark} {w w' : W} {xs : List Lexeme} {vs : List Form}
    (h : Laid sv m w xs vs w') (hw : P w) (hxs : ∀ cs, .token cs ∈ xs → IsTokenText cs) :
    ∀ v ∈ vs, Q v := by
  induction h with
  | nil | blank | comment => simp
  | literal hx =>
    obtain ⟨content, rfl⟩ := Lexeme.exists_text_of_literal? hx
    exact List.forall_mem_singleton.2 (hb.text content)
  | token hv => exact List.forall_mem_singleton.2 (hb.token (hxs _ List.mem_cons_self) hw hv)
  | list _ ih =>
    refine List.forall_mem_singleton.2 (hb.list _ (ih hw fun cs hc => ?_))
    exact hxs cs (List.mem_cons_of_mem _ (List.mem_append_left _ hc))
  | append h _ ih ih' =>
    refine List.forall_mem_append.2 ⟨ih hw fun cs hc => ?_, ?_⟩
    · exact hxs cs (List.mem_append_left _ hc)
    · exact ih' (h.keeps hb.keeps hw) fun cs hc => hxs cs (List.mem_append_right _ hc)

/-- It holds of every form of a text, also where the reading fails later. -/
theorem read (hb : sv.Builds P Q) (opts : Options) {source : Source} {w : W}
    (he : source.text.ending = .complete) (hw : P w) :
    ∀ v ∈ (read sv opts source w).forms, Q v := by
  obtain ⟨endIsError, suppress, line, col⟩ := opts
  intro v hv
  let cfg : Settings W := ⟨sv, .all, false, endIsError, source.name, source.text.ending⟩
  cases suppress with
  | true =>
    have hidle := @idle_run _ cfg rfl he (sv.note source.opening w) source.text.chars
      (.initial (.initial line col) _) rfl ⟨rfl, fun _ hv => absurd hv List.not_mem_nil⟩
    obtain rfl := hidle.forms v (List.mem_reverse.1 hv)
    exact hb.nil
  | false =>
    obtain ⟨xs, ys, w', hcut, hlaid, -⟩ := @exists_laid _ cfg rfl rfl he source.text.chars
      (.initial line col) (sv.note source.opening w)
    refine hb.laid hlaid (hb.keeps.note _ hw) (fun cs hc => ?_) v hv
    have hmem : .token cs ∈ Lexeme.cut source.text.chars := hcut ▸ List.mem_append_left ys hc
    exact Lexeme.isTokenText_of_mem_cut hmem

end Services.Builds
end LispForms
