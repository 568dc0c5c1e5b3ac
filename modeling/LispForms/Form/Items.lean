import LispForms.Form

/-! Lists as sequences: access by index and by slice. Negative indices count from the end. -/

namespace LispForms

/-- Why a list has no answer to an index or a slice. -/
inductive IndexFault where
  | outOfRange
  | zeroStep
  deriving DecidableEq, Repr

def IndexFault.message : IndexFault → String
  | .outOfRange => "PList index out of range"
  | .zeroStep => "slice step cannot be zero"

/-- A slice; what is left out extends to the end of the sequence. -/
structure Slice where
  start : Option Int
  stop : Option Int
  step : Option Int
  deriving DecidableEq, Repr

namespace Slice

/-- A bound within `low` and `high`, counted from the end if negative. -/
def clamp (length low high bound : Int) : Int :=
  if bound < 0 then max (bound + length) low else min bound high

/-- The indices of a slice with a step other than zero, in order. -/
def indices (s : Slice) (length step : Int) : List Int :=
  let (low, high) := if step < 0 then (-1, length - 1) else (0, length)
  let bound (default : Int) (b : Option Int) : Int := (b.map (clamp length low high)).getD default
  let first := bound (if step < 0 then high else low) s.start
  let last := bound (if step < 0 then low else high) s.stop
  let count := if step < 0 then (first - last - 1) / -step + 1 else (last - first - 1) / step + 1
  (List.range count.toNat).map fun (i : Nat) => first + i * step

/-- A slice that only leaves out a beginning. -/
def isTail (s : Slice) : Bool :=
  s.start.isSome && s.stop.isNone && (s.step.isNone || s.step == some 1)

end Slice

namespace Form

/-- Every list is true as a condition, the empty one too. -/
def isTrue (_ : List Form) : Bool := true

/-- The element at an index. -/
def item (xs : List Form) (i : Int) : Except IndexFault Form :=
  let i := if i < 0 then i + xs.length else i
  if i < 0 then .error .outOfRange
  else match xs[i.toNat]? with
    | some x => .ok x
    | none => .error .outOfRange

/-- The elements of a slice. A beginning to be left out is counted from the front only. -/
def slice (xs : List Form) (s : Slice) : Except IndexFault (List Form) :=
  if s.isTail then
    let n := s.start.getD 0
    if n < 0 then .error .outOfRange else .ok (xs.drop n.toNat)
  else match s.step.getD 1 with
    | 0 => .error .zeroStep
    | step => .ok ((s.indices xs.length step).filterMap fun i => xs[i.toNat]?)

end Form
end LispForms
