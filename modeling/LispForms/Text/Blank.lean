/-! White space: the 29 code points that separate forms, and the line breaks among
them. -/

namespace LispForms.Text

/-- Membership in a list of closed ranges of code points. -/
def inRanges (ranges : List (Nat × Nat)) (c : Char) : Bool :=
  ranges.any fun r => r.1 ≤ c.toNat && c.toNat ≤ r.2

/-- The white space ranges, ascending and apart. -/
def blankRanges : List (Nat × Nat) :=
  [(0x09, 0x0D), (0x1C, 0x20), (0x85, 0x85), (0xA0, 0xA0), (0x1680, 0x1680), (0x2000, 0x200A),
   (0x2028, 0x2029), (0x202F, 0x202F), (0x205F, 0x205F), (0x3000, 0x3000)]

def isBlank (c : Char) : Bool := inRanges blankRanges c

example : (blankRanges.map fun r => r.2 + 1 - r.1).sum = 29 := by decide

/-- Line feed and carriage return; no other character ends a line or a comment. -/
def isLineBreak (c : Char) : Bool := c == '\n' || c == '\r'

/-- One line feed for each line break of any of the three conventions. -/
def unifyBreaks : List Char → List Char
  | '\r' :: '\n' :: cs => '\n' :: unifyBreaks cs
  | '\r' :: cs => '\n' :: unifyBreaks cs
  | c :: cs => c :: unifyBreaks cs
  | [] => []

theorem cr_not_mem_unifyBreaks (cs : List Char) : '\r' ∉ unifyBreaks cs := by
  fun_induction unifyBreaks cs with
  | case1 cs ih => simp [ih]
  | case2 cs _ ih => simp [ih]
  | case3 c cs _ h ih =>
    have hc : '\r' ≠ c := fun e => h e.symm
    simp [ih, hc]
  | case4 => simp

theorem unifyBreaks_of_not_mem {cs : List Char} (h : '\r' ∉ cs) : unifyBreaks cs = cs := by
  induction cs with
  | nil => rfl
  | cons c cs ih =>
    obtain ⟨hc, hcs⟩ := not_or.1 fun e => h (List.mem_cons.2 e)
    rw [unifyBreaks.eq_3 c cs (fun _ e _ => hc e.symm) fun e => hc e.symm, ih hcs]

end LispForms.Text
