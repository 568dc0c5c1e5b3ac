import LispForms.Number.Binary64

/-! The text of a floating-point number: the fewest decimal digits that read back as the
same number, and of those the nearest to it. -/

namespace LispForms.Number

namespace Binary64

attribute [local instance (2000)] instPowNat

/-- A finite magnitude as a quotient. -/
def numerator (magnitude : Nat) : Nat := significand magnitude * 2 ^ (exponent magnitude).toNat
def denominator (magnitude : Nat) : Nat := 2 ^ (-exponent magnitude).toNat

/-- The least `k` with a magnitude below `10 ^ k`; the estimate by the binary logarithm
falls short by at most two. -/
def decimalOrder (magnitude : Nat) : Int :=
  let below (k : Int) : Bool :=
    numerator magnitude * 10 ^ (-k).toNat < denominator magnitude * 10 ^ k.toNat
  let k := ((significand magnitude).log2 + exponent magnitude) * 30103 / 100000
  if below k then k else if below (k + 1) then k + 1 else k + 2

/-- The multiple of `10 ^ g` that is read as the magnitude, if one of the two beside it is: of two
the nearer, of two equally near the even one. -/
def onGrid (magnitude : Nat) (g : Int) : Option Decimal :=
  let num := numerator magnitude * 10 ^ (-g).toNat
  let den := denominator magnitude * 10 ^ g.toNat
  let low := num / den
  let near := roundQuotient num den
  let far := if near = low then low + 1 else low
  [near, far].findSome? fun n =>
    if nearest ⟨n, g⟩ = magnitude then some ⟨n, g⟩ else none

/-- The exact value of a finite magnitude. -/
def exactly (magnitude : Nat) : Decimal :=
  let q := exponent magnitude
  ⟨significand magnitude * 2 ^ q.toNat * 5 ^ (-q).toNat, min q 0⟩

/-- The fewest digits that identify a positive finite magnitude; seventeen suffice in practice, and
the exact value stands behind them. -/
def shortest (magnitude : Nat) : Decimal :=
  let k := decimalOrder magnitude
  ((List.range 17).findSome? fun n => onGrid magnitude (k - (n + 1 : Nat))).getD (exactly magnitude)

theorem nearest_of_onGrid {b : Nat} {g : Int} {d : Decimal} (h : onGrid b g = some d) :
    nearest d = b := by
  obtain ⟨n, -, hn⟩ := List.exists_of_findSome?_eq_some h
  split at hn
  · cases hn; assumption
  · cases hn

end Binary64

/-- How floating-point numbers are laid out. -/
structure Layout where
  /-- Decimal exponents from here on are written in positional notation, -/
  plainFrom : Int
  /-- and from here on no more. -/
  plainBelow : Int
  /-- Least number of exponent digits. -/
  exponentWidth : Nat
  infinite : String
  undefined : String

namespace Layout

/-- Digits around the point, `point` of them before it. -/
def positional (ds : List Char) (point : Int) : List Char :=
  if point ≤ 0 then '0' :: '.' :: (List.replicate (-point).toNat '0' ++ ds)
  else if ds.length ≤ point.toNat then
    ds ++ List.replicate (point.toNat - ds.length) '0' ++ ['.', '0']
  else ds.take point.toNat ++ '.' :: ds.drop point.toNat

/-- One digit before the point, and the decimal exponent with its sign. -/
def scientific (width : Nat) (ds : List Char) (e : Int) : List Char :=
  let point := match ds.drop 1 with
    | [] => []
    | more => '.' :: more
  let digits := Nat.toDigits 10 e.natAbs
  ds.take 1 ++ point ++ ['e', if e < 0 then '-' else '+']
    ++ List.replicate (width - digits.length) '0' ++ digits

/-- The text of a non-negative decimal, trailing zeros dropped. -/
def decimal (l : Layout) (d : Decimal) : List Char :=
  let all := Nat.toDigits 10 d.digits
  let ds := (all.reverse.dropWhile (· == '0')).reverse
  let point : Int := all.length + d.exponent
  if ds = [] then ['0', '.', '0']
  else if l.plainFrom ≤ point - 1 ∧ point - 1 < l.plainBelow then positional ds point
  else scientific l.exponentWidth ds (point - 1)

/-- The text of a number. -/
def render (l : Layout) (x : Binary64) : String :=
  let sign := if x.negative then ['-'] else []
  if x.magnitude = 0 then String.ofList (sign ++ ['0', '.', '0'])
  else if x.isFinite then String.ofList (sign ++ l.decimal (Binary64.shortest x.magnitude))
  else if x.isInfinite then String.ofList sign ++ l.infinite
  else l.undefined

end Layout
end LispForms.Number
