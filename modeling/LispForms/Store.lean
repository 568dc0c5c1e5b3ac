import LispForms.Symbol
import LispForms.Host
import LispForms.Journal

/-! The store: the symbols that are interned, the namespaces that are registered and the
vars in every namespace ever created, together with the journal. Objects are told apart by
identities that are never reused. -/

namespace LispForms

/-- A namespace; its vars are in the store, so that it keeps them when it is removed. -/
structure Namespace where
  id : Nat
  symbol : Symbol
  deriving DecidableEq, Repr

/-- A named reference in a namespace. -/
structure Var where
  id : Nat
  home : Namespace
  symbol : Symbol
  deriving DecidableEq, Repr

namespace Namespace

def name (n : Namespace) : String := n.symbol.name

end Namespace

namespace Var

def print (v : Var) : String := v.home.name ++ ":" ++ v.symbol.name

end Var

structure Store where
  nextId : Nat
  /-- Interned symbols by their full names, newest first. -/
  symbols : List (QName × Symbol)
  /-- Registered namespaces by the names of their symbols, newest first. -/
  namespaces : List (QName × Namespace)
  /-- Vars by the identity of their namespace and the name of their symbol, newest first. -/
  vars : List ((Nat × QName) × Var)
  /-- Newest first. -/
  journal : List Note
  deriving Repr

namespace Store

def empty : Store := ⟨0, [], [], [], []⟩

def note (s : Store) (level : Nat) (logger message : String) : Store :=
  { s with journal := ⟨level, logger, message⟩ :: s.journal }

/-! ### Symbols -/

/-- A new object that is not interned. -/
def rawSymbol (q : QName) (s : Store) : Symbol × Store :=
  (⟨q, s.nextId⟩, { s with nextId := s.nextId + 1 })

/-- The one interned symbol of a name. -/
def symbol (q : QName) (s : Store) : Symbol × Store :=
  match s.symbols.lookup q with
  | some x => (x, s)
  | none =>
    let (x, s) := s.rawSymbol q
    (x, { s with symbols := (q, x) :: s.symbols })

/-! ### Namespaces -/

def namespace? (s : Store) (x : Symbol) : Option Namespace := s.namespaces.lookup x.toQName

/-- The part of the program that resolves names, as the journal calls it. -/
def logger : String := "lispreader.lang.runtime"

/-- The registered namespace of a symbol, created if need be. -/
def openNamespace (x : Symbol) (s : Store) : Namespace × Store :=
  match s.namespace? x with
  | some n => (n, s)
  | none =>
    let s := s.note Level.debug logger s!"Creating namespace '{x.print}'"
    let n : Namespace := ⟨s.nextId, x⟩
    (n, { s with nextId := s.nextId + 1, namespaces := (x.toQName, n) :: s.namespaces })

/-- Takes a namespace off the register. -/
def removeNamespace (x : Symbol) (s : Store) : Option Namespace × Store :=
  match s.namespace? x with
  | some n => (some n, { s with namespaces := s.namespaces.filter (·.1 != x.toQName) })
  | none => (none, s)

/-! ### Vars -/

def var? (s : Store) (n : Namespace) (x : Symbol) : Option Var := s.vars.lookup (n.id, x.toQName)

/-- The var of a symbol in a namespace, created if need be and never replaced. -/
def var (n : Namespace) (x : Symbol) (s : Store) : Var × Store :=
  match s.var? n x with
  | some v => (v, s)
  | none =>
    let v : Var := ⟨s.nextId, n, x⟩
    (v, { s with nextId := s.nextId + 1, vars := ((n.id, x.toQName), v) :: s.vars })

/-- The var that a namespace and a name refer to, both without namespaces of their own. -/
def internVar (ns name : String) (s : Store) : Var × Store :=
  let (home, s) := s.symbol ⟨ns, none⟩
  let (n, s) := s.openNamespace home
  let (x, s) := s.symbol ⟨name, none⟩
  s.var n x

/-! ### Host names -/

/-- The resolution of a host name, with its findings in the journal. -/
def resolve (env : Host.Environment) (name : String) (s : Store) :
    Except Host.Failure Host.Ref × Store :=
  let r := env.resolve name
  (r.result.map (.ofId ·.id), r.findings.foldl (·.note Level.debug logger ·) s)

/-! ### Inventory -/

-- the order of lists of core, whatever other orders are known where this is used
attribute [local instance (2000)] List.instLE List.decidableLE

/-- The registered namespaces with the printed names of their vars, both in ascending order. -/
def inventory (s : Store) : List (String × List String) :=
  let entries := s.namespaces.map fun (_, n) =>
    let names := (s.vars.filter fun (key, _) => key.1 == n.id).map fun (key, _) => key.2.print
    (n.name, names.mergeSort fun a b => a ≤ b)
  entries.mergeSort fun a b => a.1 < b.1 || (a.1 == b.1 && decide (a.2 ≤ b.2))

end Store
end LispForms
