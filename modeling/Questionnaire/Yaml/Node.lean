import Questionnaire.Value.Shown
import Questionnaire.Yaml.Plain

/-!
# Nodes

A YAML text is read as a tree of nodes: scalars, sequences, and mappings whose keys are scalars.  Only then are
the plain scalars taken for values.  When a key is given twice the later value counts.  A mapping may take the
fields of other mappings over; they come before its own, which replace them.
-/
namespace Questionnaire.Yaml

/-- Why a text is no YAML document: it does not follow the grammar, or a scalar that looks like a number has no
value. -/
inductive ReadError where
  | malformed
  | fault (f : Fault)
  deriving DecidableEq, Repr

/-- A text, in quotes or plain. -/
structure Scalar where
  plain : Bool
  text : String
  deriving DecidableEq, Repr

/-- A scalar that is not there. -/
def Scalar.missing : Scalar := ⟨true, ""⟩

inductive Node where
  | scalar (s : Scalar)
  | sequence (items : List Node)
  | mapping (entries : List (Scalar × Node))
  deriving Repr

namespace Scalar

/-- The value of a scalar. -/
def value (s : Scalar) : Except ReadError Value :=
  if s.plain then
    match plainValue? s.text with
    | .ok (some v) => .ok v
    | .ok none => .error .malformed
    | .error f => .error (.fault f)
  else .ok (.text s.text)

/-- Whether a scalar is the mark under which a mapping names the mappings whose fields it takes over. -/
def isMerge (s : Scalar) : Bool := s.plain && s.text == "<<"

/-- A scalar as the key of a field.  The mark of a default is a key, the mark that merges mappings is not. -/
def key (s : Scalar) : Except ReadError Key :=
  if s.plain && s.text == "=" then .ok (.text s.text)
  else do
    match (← s.value).key? with
    | some key => return key
    | none => throw .malformed

end Scalar

/-- The fields that a value gives to the mapping that takes it over: its own, or those of the items of a sequence,
of which the first counts most.  Other values have none to give. -/
def fieldsGiven : Value → Except ReadError Fields
  | .structured fields => .ok fields
  | .sequence items => do
    let each ← items.mapM fun
      | .structured fields => pure fields
      | _ => throw .malformed
    return each.reverse.flatten
  | _ => .error .malformed

namespace Node

mutual

/-- The value of a node. -/
def value : Node → Except ReadError Value
  | scalar s => s.value
  | sequence items => do return .sequence (← values items)
  | mapping entries => do return .structured (← addFields (← mergedFields [] entries) entries)

def values : List Node → Except ReadError (List Value)
  | [] => .ok []
  | node :: rest => do
    let first ← value node
    return first :: (← values rest)

/-- The fields that entries take over from other mappings, added to those that come before them. -/
def mergedFields (fields : Fields) : List (Scalar × Node) → Except ReadError Fields
  | [] => .ok fields
  | (name, node) :: rest => do
    if name.isMerge then
      let given ← fieldsGiven (← value node)
      mergedFields (given.foldl (fun fields (key, v) => Table.set key v fields) fields) rest
    else mergedFields fields rest

/-- The fields that entries hold themselves, added to those that come before them. -/
def addFields (fields : Fields) : List (Scalar × Node) → Except ReadError Fields
  | [] => .ok fields
  | (name, node) :: rest => do
    if name.isMerge then addFields fields rest
    else
      let key ← name.key
      addFields (Table.set key (← value node) fields) rest

end

end Node

end Questionnaire.Yaml
