import Questionnaire.Function.Builtin
import Questionnaire.Names

/-!
# Function libraries

A library knows functions by their names, whatever the case of the letters.  A function that is registered under
a known name takes its place.
-/
namespace Questionnaire

/-- A function under a name, with the counts of arguments it is called with. -/
structure Function where
  name : String
  least : Int
  most : Option Int
  builtin : Builtin
  deriving DecidableEq, Repr

def Builtin.function (f : Builtin) : Function :=
  let (name, least, most) := f.signature
  ⟨name, least, most, f⟩

/-- Refuses a count of arguments that a function is not called with. -/
def Function.checkArity (f : Function) (count : Nat) : Except EvalError Unit :=
  let tooMany := match f.most with
    | some most => most < count
    | none => false
  if (count : Int) < f.least || tooMany then .error (.arity f.name f.least f.most count) else .ok ()

structure Library where
  functions : List Function
  deriving DecidableEq, Repr

namespace Library

/-- The form of a name under which a function is found. -/
def key (name : String) : String := Text.lower name

/-- A library with one more function, in place of the one that had its name. -/
def register (f : Function) (library : Library) : Library :=
  ⟨library.functions.filter (key ·.name != key f.name) ++ [f]⟩

def ofList (functions : List Function) : Library := functions.foldl (fun library f => library.register f) ⟨[]⟩

/-- The library of all built-in functions. -/
def standard : Library := ofList (Builtin.all.map Builtin.function)

def find? (library : Library) (name : String) : Option Function :=
  library.functions.find? (key ·.name == key name)

/-- The function of a name, which has to be known. -/
def require (library : Library) (name : String) : Except EvalError Function :=
  match library.find? name with
  | some f => .ok f
  | none => .error (.unknownFunction name)

/-- The names of all functions, in order. -/
def names (library : Library) : List String := Names.ofList (library.functions.map (·.name))

end Library

end Questionnaire
