import LispForms.Proofs.Detached
import LispForms.Proofs.Leaves
import LispForms.Proofs.Settled

/-! Prints on one line. The value of a token is printed as what a token could be, a string with
escapes for line breaks, and a list with spaces between its items, so that no form that is read is
printed with a line break in it. -/

namespace LispForms

open Token

/-! ### Prints of the values of tokens -/

section Values

open Number.Binary64

theorem isTokenText_repr (z : ℤ) : IsTokenText z.repr.toList := by
  rcases lt_or_ge z 0 with hz | hz
  · rw [toList_repr_negative hz]
    refine ⟨List.cons_ne_nil _ _, List.forall_mem_cons.2 ⟨by decide, fun c hc => ?_⟩⟩
    exact (ne_of_mem_toDigits hc).1
  · obtain ⟨n, rfl⟩ := Int.eq_ofNat_of_zero_le hz
    rw [show (n : ℤ).repr.toList = Nat.toDigits 10 n from Nat.toList_repr]
    exact isTokenText_toDigits n

theorem isTokenText_print_quotient (num den : ℤ) :
    IsTokenText ((Form.quotient num den).print .standard).toList := by
  have hratio (n : ℤ) (d : ℕ) : IsTokenText ((Form.ratio n d).print .standard).toList := by
    rw [Form.print, String.toList_append, String.toList_append, Nat.toList_repr, List.append_assoc]
    refine isTokenText_append (isTokenText_repr n) (List.forall_mem_append.2
      ⟨List.all_eq_true.1 (by decide), (isTokenText_toDigits d).2⟩)
  unfold Form.quotient
  split
  split
  · exact isTokenText_repr _
  · exact hratio _ _

theorem isTokenText_render (negative : Bool) {b : ℕ} (hb : b ≤ infinity) :
    IsTokenText (Form.floats.render ⟨negative, b⟩).toList := by
  rcases Nat.lt_or_eq_of_le hb with hlt | rfl
  · obtain ⟨n, hn, -, -, hprint⟩ := exists_numeral_render negative hlt
    rw [hprint]
    exact isTokenText_numeral hn negative
  · cases negative
    · exact (by decide : IsTokenText "Infinity".toList)
    · exact (by decide : IsTokenText "-Infinity".toList)

variable {env : Host.Environment} {locate : Problem → Fault} {cs : List Char} {v : Form}
  {w w' : Unit}

theorem isTokenText_print (hcs : IsTokenText cs)
    (h : (Services.detached env).interpret locate cs w = (.ok v, w')) :
    IsTokenText (v.print .standard).toList := by
  unfold Services.interpret at h
  cases hm : classify cs with
  | none =>
    rw [hm] at h
    cases h
  | some km =>
    obtain ⟨k, m⟩ := km
    simp only [hm] at h
    have hmeaning := meaning?_of_classify hm
    have hv := congrArg Prod.fst h
    cases k with
    | null =>
      obtain rfl := of_null? hmeaning
      cases hv
      decide
    | symbol =>
      obtain rfl := of_symbol? hmeaning
      cases hv
      rwa [toList_print_symbol .standard rfl, String.toList_ofList]
    | var =>
      obtain ⟨ns, name, -, -, rfl, rfl⟩ := of_var? hmeaning
      cases hv
      rwa [toList_print_var .standard rfl rfl, String.toList_ofList, String.toList_ofList]
    | integer =>
      obtain ⟨negative, ds, -, rfl⟩ := of_integer? hmeaning
      obtain ⟨n, rfl⟩ := Services.exists_of_map hv
      exact isTokenText_repr _
    | float =>
      obtain ⟨negative, d, rfl⟩ := of_float? hmeaning
      cases hv
      exact isTokenText_render negative (nearest_le d)
    | ratio =>
      obtain ⟨negative, num, den, -, -, rfl⟩ := of_ratio? hmeaning
      obtain ⟨n, d, -, -, -, rfl⟩ := Services.ratio_eq_ok_iff.1 hv
      exact isTokenText_print_quotient _ _
    | accessor =>
      obtain ⟨member, hmember, rfl⟩ := of_accessor? hmeaning
      cases hv
      rw [toList_print_accessor]
      exact isTokenText_member hmember
    | className =>
      obtain ⟨path, hpath, rfl⟩ := of_className? hmeaning
      obtain ⟨type, rfl⟩ := Services.exists_of_map hv
      rw [toList_print_className _ _ hpath]
      exact isTokenText_append (isTokenText_of_isPath hpath) (by simp [isOrdinary_point])
    | instanceMember =>
      obtain ⟨path, member, hpath, hmember, rfl⟩ := of_instanceMember? hmeaning
      obtain ⟨type, rfl⟩ := Services.exists_of_map hv
      rw [toList_print_instanceMember _ _ hpath]
      exact isTokenText_append (isTokenText_point_append (isTokenText_of_isPath hpath))
        (isTokenText_member hmember).2
    | staticMember =>
      obtain ⟨path, member, hpath, hmember, rfl⟩ := of_staticMember? hmeaning
      obtain ⟨type, rfl⟩ := Services.exists_of_map hv
      rw [toList_print_staticMember _ _ hpath]
      exact isTokenText_append (isTokenText_of_isPath hpath)
        (isTokenText_member hmember).2

end Values

/-! ### Line breaks -/

namespace Form

/-- No line break is in the print of the form. -/
def OneLine (v : Form) : Prop := ∀ c ∈ (v.print .standard).toList, c ≠ '\n' ∧ c ≠ '\r'

theorem oneLine_of_isTokenText {v : Form} (h : IsTokenText (v.print .standard).toList) :
    v.OneLine := by
  intro c hc
  constructor <;> rintro rfl <;> exact absurd (h.2 _ hc) (by decide)

/-- Line breaks are among the characters that are escaped. -/
theorem ne_of_mem_escapedChar {c d : Char} (h : c ∈ escapedChar d) : c ≠ '\n' ∧ c ≠ '\r' := by
  unfold escapedChar at h
  cases hl : escapeLetter d with
  | none =>
    rw [hl] at h
    obtain rfl := List.mem_singleton.1 h
    constructor <;> rintro rfl <;> exact absurd hl (by decide)
  | some l =>
    have hletter : l ≠ '\n' ∧ l ≠ '\r' := by
      unfold escapeLetter at hl
      split at hl <;> cases hl <;> decide
    rw [hl] at h
    rcases List.mem_cons.1 h with rfl | h
    · decide
    · obtain rfl := List.mem_singleton.1 h
      exact hletter

theorem oneLine_text (content : String) : (text content).OneLine := by
  intro c hc
  rw [toList_print_text, List.mem_append, List.mem_cons, List.mem_singleton] at hc
  rcases hc with (rfl | hc) | rfl
  · decide
  · obtain ⟨d, -, hd⟩ := List.mem_flatMap.1 hc
    exact ne_of_mem_escapedChar hd
  · decide

theorem mem_intercalate_space {c : Char} : ∀ {css : List (List Char)},
    c ∈ [' '].intercalate css → c = ' ' ∨ ∃ cs ∈ css, c ∈ cs
  | [], h => (List.not_mem_nil h).elim
  | [cs], h => .inr ⟨cs, List.mem_singleton_self cs, by simpa [List.intercalate] using h⟩
  | cs :: cs' :: css, h => by
    rw [List.intercalate_cons_cons, List.mem_append, List.mem_append, List.mem_singleton] at h
    rcases h with (h | rfl) | h
    · exact .inr ⟨cs, List.mem_cons_self, h⟩
    · exact .inl rfl
    · exact (mem_intercalate_space h).imp_right fun ⟨ds, hds, hc⟩ => ⟨ds, .tail cs hds, hc⟩

theorem oneLine_list {items : List Form} (h : ∀ v ∈ items, v.OneLine) (span : Option Span) :
    (list items span).OneLine := by
  intro c hc
  rw [toList_print_list, List.mem_append, List.mem_cons, List.mem_singleton] at hc
  rcases hc with (rfl | hc) | rfl
  · decide
  · rcases mem_intercalate_space hc with rfl | ⟨cs, hcs, hc⟩
    · decide
    · obtain ⟨v, hv, rfl⟩ := List.mem_map.1 hcs
      exact h v hv c hc
  · decide

end Form

/-! ### Readings -/

/-- No form that is read without a store is printed with a line break. -/
theorem builds_oneLine (env : Host.Environment) :
    (Services.detached env).Builds (fun _ => True) Form.OneLine where
  keeps := Services.keeps_true _
  nil := Form.oneLine_of_isTokenText (by decide)
  text := Form.oneLine_text
  token hcs _ h := Form.oneLine_of_isTokenText (isTokenText_print hcs h)
  list span h := Form.oneLine_list h span

/-- No form that is read is printed with a line break, in whatever store it is read. -/
theorem oneLine_of_mem_read {env : Host.Environment} {s : Store} (hs : s.Running) (opts : Options)
    {source : Source} (he : source.text.ending = .complete) :
    ∀ v ∈ (read (.standard env) opts source s).forms, v.OneLine := by
  intro v hv
  have hforms := congrArg Reading.forms (read_detached hs env opts source)
  have hmem : v.detached ∈ (read (.detached env) opts source ()).forms :=
    hforms ▸ List.mem_map_of_mem hv
  have hline := (builds_oneLine env).read opts he trivial _ hmem
  unfold Form.OneLine at hline ⊢
  rwa [Form.print_detached] at hline

end LispForms
