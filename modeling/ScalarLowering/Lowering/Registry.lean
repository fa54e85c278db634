import Std.Data.HashMap
import Std.Data.TreeMap
import ScalarLowering.Lowering.Handler
import ScalarLowering.Vocabulary.Numeric

set_option autoImplicit false

/- Registries of handlers. A handler is found by its name, and a host callable is
an alias of a name. The last registration of a name or an alias counts. -/

namespace ScalarLowering

/-- What a call site calls. -/
inductive Key where
  | name (text : String)
  | host (callable : HostCallable)
deriving DecidableEq, Repr

def Key.text : Key → String
  | .name text => text
  | .host callable => "<host " ++ callable.spelling ++ ">"

structure Registry where
  handlers : Std.TreeMap String Handler := ∅
  aliases : Std.HashMap HostCallable String := ∅

namespace Registry

def empty : Registry := {}

/-- Stores a handler under a name and makes the host callable, if there is one, stand for it. -/
def register (r : Registry) (name : String) (handler : Handler) (callable : Option HostCallable) :
    Registry where
  handlers := r.handlers.insert name handler
  aliases :=
    match callable with
    | some callable => r.aliases.insert callable name
    | none => r.aliases

def lookupName? (r : Registry) (name : String) : Option Handler := r.handlers[name]?

/-- The registered name that a key stands for, with its handler. -/
def resolve? (r : Registry) (key : Key) : Option (String × Handler) := do
  let name ←
    match key with
    | .name text => some text
    | .host callable => r.aliases[callable]?
  return (name, ← r.lookupName? name)

def lookup? (r : Registry) (key : Key) : Option Handler := (r.resolve? key).map (·.2)

/-- The registered names, ascending. -/
def names (r : Registry) : List String := r.handlers.keys

/-- The host callables that stand for a name, in their order. -/
def aliasesOf (r : Registry) (name : String) : List HostCallable :=
  HostCallable.all.filter fun callable => r.aliases[callable]? == some name

def size (r : Registry) : Nat := r.handlers.size

end Registry

/-- Which groups of handlers a registry holds. -/
structure RegistryConfig where
  /-- Host callables stand for the names of their handlers. -/
  hostAliases : Bool := true
  /-- The explicit casts to each scalar type. -/
  numberCasts : Bool := true
  mathFunctions : Bool := true
  helperFunctions : Bool := true
deriving DecidableEq, Repr

/-- A name to register, its handler, and the host callable that may stand for it. -/
structure Registration where
  name : String
  handler : Handler
  callable : Option HostCallable
deriving DecidableEq, Repr

namespace Registration

def ofBuiltin (b : Builtin) : Registration where
  name := b.name
  handler :=
    match b with
    | .bool => .cast .bool
    | .int => .cast .int64
    | .float => .cast .float64
    | .len => .len
    | .min => .extremum .min
    | .max => .extremum .max
    | .abs => .abs
  callable := some (.builtin b)

/-- The explicit casts have no counterpart in the host language. -/
def ofCast (t : NumType) : Registration := ⟨t.castKey, .cast t, none⟩

def ofMath (f : MathFunction) : Registration := ⟨f.key, .math f, some (.math f)⟩

def ofHelper (f : HelperFunction) : Registration := ⟨f.key, .helper f, some (.helper f)⟩

end Registration

namespace RegistryConfig

/-- The registrations of the enabled groups. The builtins are always among them. -/
def registrations (c : RegistryConfig) : List Registration :=
  Builtin.all.map .ofBuiltin ++
    (if c.numberCasts then NumType.all.map .ofCast else []) ++
    (if c.mathFunctions then MathFunction.all.map .ofMath else []) ++
    (if c.helperFunctions then HelperFunction.all.map .ofHelper else [])

end RegistryConfig

namespace Registry

def ofConfig (c : RegistryConfig) : Registry :=
  c.registrations.foldl
    (fun r entry =>
      r.register entry.name entry.handler (if c.hostAliases then entry.callable else none))
    empty

/-- The registry of all handlers. -/
def standard : Registry := ofConfig {}

end Registry

end ScalarLowering
