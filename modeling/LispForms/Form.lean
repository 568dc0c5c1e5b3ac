import LispForms.Store
import LispForms.Place
import LispForms.Number.Shortest

/-! Forms: the values that a text is read as, and their equality. -/

namespace LispForms

open Number (Binary64)

inductive Form where
  | nil
  | bool (b : Bool)
  | integer (n : Int)
  /-- A ratio that is not whole, in lowest terms. -/
  | ratio (num : Int) (den : Nat)
  | float (x : Binary64)
  /-- A string; a character is a string of one. -/
  | text (s : String)
  | symbol (x : Symbol)
  | space (n : Namespace)
  | var (v : Var)
  /-- The two names of a var reference, not interned. -/
  | pair (ns name : String)
  | list (items : List Form) (span : Option Span)
  | accessor (member : String)
  | className (type : Host.Ref) (name : String)
  | instanceMember (type : Host.Ref) (member name : String)
  | staticMember (type : Host.Ref) (member name : String)

namespace Form

/-- The form of a quotient: an integer if it is whole. -/
def quotient (num den : Int) : Form :=
  let (n, d) := Number.lowestTerms num den
  if d = 1 then integer n else ratio n d

/-- The value of a number: a quotient, or an infinity by its sign. -/
inductive Value where
  | quotient (num : Int) (den : Nat)
  | infinite (negative : Bool)
  | undefined

def Value.same : Value → Value → Bool
  | quotient a b, quotient c d => a * d == c * b
  | infinite a, infinite b => a == b
  | _, _ => false

def floatValue (x : Binary64) : Value :=
  if x.isFinite then
    .quotient (Number.signed x.negative (Binary64.numerator x.magnitude))
      (Binary64.denominator x.magnitude)
  else if x.isInfinite then .infinite x.negative
  else .undefined

def value? : Form → Option Value
  | integer n => some (.quotient n 1)
  | ratio num den => some (.quotient num den)
  | float x => some (floatValue x)
  | _ => none

def sameValue (v : Value) (y : Form) : Bool :=
  match y.value? with
  | some w => v.same w
  | none => false

mutual

/-- Numbers are equal by exact value whatever their kinds, symbols by name, vars and
namespaces by identity, host forms by kind, type and member; the spans of lists and the
spelled names of host forms do not count. -/
def same : Form → Form → Bool
  | nil, nil => true
  | bool a, bool b => a == b
  | text a, text b => a == b
  | symbol a, symbol b => a.toQName == b.toQName
  | space a, space b => a.id == b.id
  | var a, var b => a.id == b.id
  | pair a b, pair c d => a == c && b == d
  | list xs _, list ys _ => sameItems xs ys
  | accessor a, accessor b => a == b
  | className s _, className t _ => s.id == t.id
  | instanceMember s a _, instanceMember t b _ => s.id == t.id && a == b
  | staticMember s a _, staticMember t b _ => s.id == t.id && a == b
  | integer m, y => sameValue (.quotient m 1) y
  | ratio num den, y => sameValue (.quotient num den) y
  | float x, y => sameValue (floatValue x) y
  | _, _ => false

def sameItems : List Form → List Form → Bool
  | [], [] => true
  | x :: xs, y :: ys => same x y && sameItems xs ys
  | _, _ => false

end

end Form
end LispForms
