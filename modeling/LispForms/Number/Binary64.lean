/-! Numbers: whole numbers in decimal digits, quotients, and binary floating-point numbers of 64
bits, as a sign and a place among the magnitudes. The magnitudes are numbered in ascending order, so
that the number of a magnitude is its bit pattern: zero and the subnormal values, then for each
exponent 2 ^ 52 normal values, then infinity and what is not a number. -/

namespace LispForms.Number

/-! ### Whole numbers and quotients -/

/-- The number that decimal digits denote, most significant first. -/
def ofDigits (ds : List Char) : Nat := Nat.ofDigitChars 10 ds 0

/-- A number is converted from at most this many digits, leading zeros included. -/
def maxDigits : Nat := 4300

/-- A number with its sign set apart. -/
def signed (negative : Bool) (n : Nat) : Int := if negative then -(n : Int) else n

/-- The quotient rounded to the nearest whole number, a half to the even neighbour. -/
def roundQuotient (num den : Nat) : Nat :=
  let q := num / den
  match compare (2 * (num % den)) den with
  | .lt => q
  | .gt => q + 1
  | .eq => q + q % 2

/-- A quotient in lowest terms, the sign on the numerator. -/
def lowestTerms (num den : Int) : Int × Nat :=
  let g := num.gcd den
  (num * den.sign / g, den.natAbs / g)

theorem ofDigits_toDigits (n : Nat) : ofDigits (Nat.toDigits 10 n) = n :=
  Nat.ofDigitChars_toDigits (by decide) (by decide)

/-! ### Floating-point numbers -/

/-- A whole number times a power of ten. -/
structure Decimal where
  digits : Nat
  exponent : Int
  deriving DecidableEq, Repr

structure Binary64 where
  negative : Bool
  magnitude : Nat
  deriving DecidableEq, Repr

namespace Binary64

-- the powers of natural numbers, whatever other powers are known where this is used
attribute [local instance (2000)] instPowNat

/-- The place of infinity; every smaller magnitude is finite. -/
def infinity : Nat := 0x7FF * 2 ^ (52 : Nat)

def isFinite (x : Binary64) : Bool := x.magnitude < infinity
def isInfinite (x : Binary64) : Bool := x.magnitude == infinity

/-- A finite magnitude is `significand * 2 ^ exponent`. -/
def significand (magnitude : Nat) : Nat :=
  if magnitude < 2 ^ (52 : Nat) then magnitude
  else 2 ^ (52 : Nat) + magnitude % 2 ^ (52 : Nat)

def exponent (magnitude : Nat) : Int := (max (magnitude / 2 ^ (52 : Nat)) 1 : Nat) - 1075

/-- The 64 bits as a number. -/
def bits (x : Binary64) : Nat := (if x.negative then 2 ^ (63 : Nat) else 0) + x.magnitude

def ofBits (n : Nat) : Binary64 := ⟨2 ^ (63 : Nat) ≤ n, n % 2 ^ (63 : Nat)⟩

/-- The greatest `e` with `2 ^ e ≤ num / den`. -/
def binaryOrder (num den : Nat) : Int :=
  let e : Int := (num.log2 : Int) - den.log2
  if num * 2 ^ (-e).toNat < den * 2 ^ e.toNat then e - 1 else e

/-- The magnitude nearest to a quotient: it has 53 significant bits, fewer below the normal range,
and above the largest finite magnitude it is infinity. -/
def nearestQuotient (num den : Nat) : Nat :=
  if num = 0 then 0
  else
    let q := max (binaryOrder num den - 52) (-1074)
    let m := roundQuotient (num * 2 ^ (-q).toNat) (den * 2 ^ q.toNat)
    min ((q + 1074).toNat * 2 ^ (52 : Nat) + m) infinity

/-- The magnitude nearest to a decimal. The two cases on the binary logarithm settle
what lies beyond the range before a power of ten is computed. -/
def nearest (d : Decimal) : Nat :=
  if d.digits = 0 then 0
  else if 0 ≤ d.exponent then
    if 1024 ≤ d.digits.log2 + 3 * d.exponent then infinity
    else nearestQuotient (d.digits * 10 ^ d.exponent.toNat) 1
  else if d.digits.log2 + 1 + 3 * d.exponent ≤ -1076 then 0
  else nearestQuotient d.digits (10 ^ (-d.exponent).toNat)

example : nearest ⟨9007199254740993, 0⟩ = nearest ⟨9007199254740992, 0⟩ := by decide +kernel
example : nearest ⟨17976931348623159, 292⟩ = infinity := by decide +kernel
example : nearest ⟨24703282292062327208, -343⟩ = 0 := by decide +kernel
example : nearest ⟨24703282292062328, -340⟩ = 1 := by decide +kernel

end Binary64
end LispForms.Number
