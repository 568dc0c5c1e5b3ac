/-! The host: objects that dotted names refer to, and the resolution of such names. -/

namespace LispForms

namespace Host

/-- An object of the host, identified by `id`, with its attributes. -/
inductive Object where
  | mk (id : String) (attributes : List (String × Object))

namespace Object

def id : Object → String
  | mk id _ => id

def attributes : Object → List (String × Object)
  | mk _ attributes => attributes

/-- The attribute of a name, if the object has it. Looking for an attribute has no other outcome:
objects whose attributes are computed, and may fail in being so, are left out. -/
def attribute? (o : Object) (name : String) : Option Object := o.attributes.lookup name

end Object

/-- How the import of a module fails, apart from its absence. Imports that fail in any other way
than these two are left out. -/
inductive ImportFailure where
  | value
  | runtime
  deriving DecidableEq, Repr

/-- What an import comes to. A module that is listed may still be absent. -/
inductive Import where
  | loaded (o : Object)
  | absent
  | failing (kind : ImportFailure)

/-- The importable modules and the names that need no import. -/
structure Environment where
  modules : List (String × Import)
  builtins : List (String × Object)

def Environment.load (env : Environment) (name : String) : Import :=
  (env.modules.lookup name).getD .absent

/-- Why a name has no object. -/
inductive Failure where
  /-- The name is empty or has an empty segment. -/
  | invalid (name : String)
  | unresolved (name : String)
  | importing (kind : ImportFailure) (name : String)
  deriving DecidableEq, Repr

def Failure.message : Failure → String
  | .invalid name => s!"Invalid host name '{name}'"
  | .unresolved name => s!"Unable to resolve host name '{name}'"
  | .importing _ name => s!"cannot import {name}"

/-- The course of a resolution: its result, the modules it tried to import in order, and what it
found on the way. -/
structure Resolution where
  result : Except Failure Object
  imports : List String
  findings : List String

def dotted (segments : List String) : String := ".".intercalate segments

def segments (name : String) : List String :=
  (name.toList.splitOn '.').map String.ofList

namespace Environment

/-- Resolution of a name given by its segments, last segment first: the whole name is
imported if it can be, and else its last segment is looked up in what the others resolve to. -/
def resolveReversed (env : Environment) : List String → Resolution
  | [] => ⟨.ok (.mk "builtins" env.builtins), [], []⟩
  | last :: outer =>
    let name := dotted (last :: outer).reverse
    match env.load name with
    | .loaded o =>
      ⟨.ok o, [name], [s!"Resolved host name '{name}' to module <{o.id}>"]⟩
    | .failing kind => ⟨.error (.importing kind name), [name], []⟩
    | .absent =>
      let r := resolveReversed env outer
      let imports := name :: r.imports
      match r.result with
      | .error f => ⟨.error f, imports, r.findings⟩
      | .ok container =>
        match container.attribute? last with
        | none => ⟨.error (.unresolved name), imports, r.findings⟩
        | some o =>
          ⟨.ok o, imports, r.findings ++ [s!"Resolved host name '{name}' to <{o.id}>"]⟩

def resolve (env : Environment) (name : String) : Resolution :=
  if (segments name).contains "" then ⟨.error (.invalid name), [], []⟩
  else env.resolveReversed (segments name).reverse

/-- The environment in force unless another is given. -/
def standard : Environment where
  modules :=
    [("collections", .loaded (.mk "module collections"
        [("OrderedDict", .mk "module collections.OrderedDict"
            [("fromkeys", .mk "module collections.OrderedDict.fromkeys" [])]),
         ("deque", .mk "module collections.deque" [])])),
     ("os", .loaded (.mk "module os"
        [("sep", .mk "module os.sep" []), ("path", .mk "posixpath" [])])),
     ("os.path", .loaded (.mk "posixpath" [("join", .mk "posixpath.join" [])])),
     ("math", .loaded (.mk "module math"
        [("pi", .mk "module math.pi" []), ("inf", .mk "module math.inf" [])]))]
  builtins :=
    [("str", .mk "builtins.str" [("join", .mk "builtins.str.join" [])]),
     ("int", .mk "builtins.int" []), ("len", .mk "builtins.len" []),
     ("ValueError", .mk "builtins.ValueError" [])]

end Environment

/-- A reference to a host object: its identity, and what is known for naming it. -/
structure Ref where
  id : String
  /-- The module that defines it. -/
  home : Option String
  /-- Its dotted name inside that module. -/
  path : Option String
  /-- Its short name. -/
  label : Option String
  /-- How it shows where it has no name. -/
  shown : String
  deriving DecidableEq, Repr

namespace Ref

def ofId (id : String) : Ref := ⟨id, none, none, none, s!"<{id}>"⟩

/-- The name of a host object; names of the builtins module go without it. -/
def title (r : Ref) : String :=
  match r.path, r.home with
  | none, _ => r.label.getD r.shown
  | some path, none => path
  | some path, some home => if home = "builtins" then path else home ++ "." ++ path

end Ref
end Host
end LispForms
