/-! Symbols: named references, each an object of its own, and their order. -/

namespace LispForms

/-- A name in a namespace, or in none. -/
structure QName where
  name : String
  ns : Option String
  deriving DecidableEq, Repr

/-- A symbol is identified by `id`; two objects may carry one name. -/
structure Symbol extends QName where
  id : Nat
  deriving DecidableEq, Repr

namespace QName

def print (q : QName) : String :=
  match q.ns with
  | some ns => ns ++ "/" ++ q.name
  | none => q.name

/-- Names beginning with a colon evaluate to themselves. -/
def isKeyword (q : QName) : Bool := q.name.toList.head? == some ':'

/-- Names without a namespace come first, the others by namespace and then by name; texts are
compared by code points. -/
def before (a b : QName) : Bool :=
  match a.ns, b.ns with
  | none, none => a.name < b.name
  | none, some _ => true
  | some _, none => false
  | some m, some n => m < n || (m == n && a.name < b.name)

def atMost (a b : QName) : Bool := a.before b || a == b
def atLeast (a b : QName) : Bool := !a.before b
def after (a b : QName) : Bool := !a.before b && a != b

/-- Ascending, equal names in their given order. -/
def sort (qs : List QName) : List QName := qs.mergeSort fun a b => !b.before a

end QName

/-- What a symbol can be compared with. -/
inductive Comparand where
  | symbol (q : QName)
  | nothing
  /-- A value of another kind, by the name of that kind. -/
  | foreign (kind : String)
  deriving DecidableEq, Repr

inductive Comparison where
  | lt
  | le
  | gt
  | ge
  deriving DecidableEq, Repr

namespace Comparison

def sign : Comparison → String
  | .lt => "<"
  | .le => "<="
  | .gt => ">"
  | .ge => ">="

/-- Symbols are ordered among each other and come after nothing; with any other value the
comparison fails, with a message. -/
def holds (op : Comparison) (a : QName) : Comparand → Except String Bool
  | .symbol b => .ok <| match op with
    | .lt => a.before b
    | .le => a.atMost b
    | .gt => a.after b
    | .ge => a.atLeast b
  | .nothing => .ok (op == .gt || op == .ge)
  | .foreign kind =>
    .error s!"'{op.sign}' not supported between instances of 'Symbol' and '{kind}'"

end Comparison

def Comparand.isEqualTo (b : Comparand) (a : QName) : Bool := b == .symbol a

end LispForms
