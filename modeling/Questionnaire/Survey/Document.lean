import Questionnaire.Failure
import Questionnaire.Names
import Questionnaire.Survey.Basic
import Questionnaire.Text.LowerCase

/-!
# Definition documents

A definition is read from a document, which is a value as data formats give it, and written back as one.  Reading
checks that survey, pages, questions and triggers are mappings, that everything has a name, and that no two
questions share one; it keeps every other property as it is.
-/
namespace Questionnaire

/-- How reading a definition fails. -/
inductive LoadError where
  | definition (e : DefinitionError)
  | fault (f : Fault)
  deriving DecidableEq, Repr

namespace Document

/-- A result that can only be missing by a fault. -/
def orFault : Except Fault α → Except LoadError α
  | .ok a => .ok a
  | .error f => .error (.fault f)

/-- What a value yields when it is gone through: the items of a sequence, the characters of a text, the field
keys of a structured value. -/
def items : Value → Except Fault (List Value)
  | .sequence vs => .ok vs
  | .text s => .ok (s.toList.map fun c => .text (String.singleton c))
  | .structured fields => .ok (fields.map fun field => field.1.value)
  | _ => .error .wrongType

/-- The items of a property that may be missing or empty. -/
def itemsOf (fields : Fields) (key : String) : Except Fault (List Value) :=
  let v := Fields.get fields key
  if v.truthy then items v else .ok []

/-- A field given as a pair of its key and value. -/
def pair (v : Value) : Except Fault (Key × Value) := do
  match ← items v with
  | [key, value] =>
    match key.key? with
    | some key => return (key, value)
    | none => throw .wrongType
  | _ => throw .badValue

/-- The fields that pairs add to others, one after the other. -/
def addPairs (fields : Fields) : List Value → Except Fault Fields
  | [] => .ok fields
  | v :: rest => do
    let (key, value) ← pair v
    addPairs (Table.set key value fields) rest

/-- A value as fields: those of a structured value, or the pairs that it yields. -/
def mapping : Value → Except Fault Fields
  | .structured fields => .ok fields
  | v => do addPairs [] (← items v)

/-- The fields of a part of a definition, which has to be a mapping. -/
def require (part : String) : Value → Except LoadError Fields
  | .structured fields => .ok fields
  | v => .error (.definition (.notMapping part v.typeName))

/-- The name of a part of a definition, which has to be there. -/
def nameOf (part : String) (fields : Fields) : Except LoadError String :=
  let name := Fields.get fields "name"
  if name.truthy then orFault name.nameText
  else do throw (.definition (.nameless part (← orFault (Value.structured fields).shown)))

/-- The properties that a document gives. -/
def propertiesOf (known : List Property) (fields : Fields) : Properties := fun p =>
  if known.contains p then Fields.get fields p.key else .undefined

/-- The documents of the questions that a question holds.  A question for several texts holds one for each of
its items. -/
def childrenOf (fields : Fields) : Except Fault (List Value) := do
  let several := match Fields.get fields "type" with
    | .text kind => kind == "multipletext" && (Fields.get fields "items").truthy
    | _ => false
  if several then
    (← itemsOf fields "items").mapM fun item => do
      return .structured (Table.set (.text "type") (.text "text") (← mapping item))
  else itemsOf fields "elements"

/-- A question of at most `levels` levels of documents. -/
def questionWithin : (levels : Nat) → Value → Except LoadError Question
  | 0, _ => .error (.fault .wrongType)
  | levels + 1, v => do
    let fields ← require "question" v
    let name ← nameOf "question" fields
    let children ← orFault (childrenOf fields)
    return {
      name
      kind := (Table.find? fields (.text "type")).getD (.text "text")
      isRequired := (Fields.get fields "isRequired").truthy
      properties := propertiesOf Property.ofQuestions fields
      elements := ← children.mapM (questionWithin levels) }

mutual

/-- The levels of nesting in a value. -/
def levels : Value → Nat
  | .sequence vs => 1 + levelsOf vs
  | .structured fields => 1 + levelsOfFields fields
  | _ => 1

def levelsOf : List Value → Nat
  | [] => 0
  | v :: rest => max (levels v) (levelsOf rest)

def levelsOfFields : List (Key × Value) → Nat
  | [] => 0
  | (_, v) :: rest => max (levels v) (levelsOfFields rest)

end

/-- The question that a document describes. -/
def question (v : Value) : Except LoadError Question := questionWithin (levels v + 1) v

/-- The page that a document describes. -/
def page (v : Value) : Except LoadError Page := do
  let fields ← require "page" v
  let name ← nameOf "page" fields
  let elements ← orFault (itemsOf fields "elements")
  return { name, properties := propertiesOf Property.ofPages fields, elements := ← elements.mapM question }

/-- The first of two fields that is there. -/
def firstOf (fields : Fields) (key other : String) : Value :=
  if (Fields.get fields key).isDefined then Fields.get fields key else Fields.get fields other

/-- The trigger that a document describes. -/
def trigger (v : Value) : Except LoadError Trigger := do
  let fields ← require "trigger" v
  let kindName := firstOf fields "type" "operator"
  match TriggerKind.ofName? (Text.lower (← orFault kindName.nameText)) with
  | none => throw (.definition (.unknownTrigger (← orFault kindName.shown)))
  | some kind =>
    let condition := firstOf fields "expression" "condition"
    if !condition.truthy then
      throw (.definition (.unconditionalTrigger (← orFault (Value.structured fields).shown)))
    return {
      kind
      condition := ← orFault condition.nameText
      setToName := firstOf fields "setToName" "to"
      setValue := firstOf fields "setValue" "value"
      fromName := firstOf fields "fromName" "from"
      gotoName := firstOf fields "gotoName" "goto"
      runExpression := Fields.get fields "runExpression" }

/-- The pages of a survey: those it lists, or a single one for the questions it lists instead. -/
def pages (fields : Fields) : Except LoadError (List Page) := do
  if (Fields.get fields "pages").truthy then
    (← orFault (itemsOf fields "pages")).mapM page
  else if (Fields.get fields "elements").truthy then
    let elements ← (← orFault (itemsOf fields "elements")).mapM question
    return [{ name := "page1", properties := fun _ => .undefined, elements }]
  else return []

/-- The names that occur more than once. -/
def duplicates (names : List String) : List String :=
  Names.ofList (names.filter fun name => 1 < names.count name)

end Document

namespace Survey

/-- The survey that a document describes. -/
def ofDocument (document : Value) : Except LoadError Survey := do
  let fields ← Document.require "survey definition" document
  let metadata := Fields.get fields "metadata"
  let metadata ← if metadata.truthy then Document.orFault (Document.mapping metadata) else pure []
  let pages ← Document.pages fields
  let triggers ← (← Document.orFault (Document.itemsOf fields "triggers")).mapM Document.trigger
  let survey : Survey := {
    title := Fields.get fields "title"
    description := Fields.get fields "description"
    completedHtml := Fields.get fields "completedHtml"
    metadata, pages, triggers }
  match Document.duplicates survey.questionNames with
  | [] => return survey
  | names => throw (.definition (.duplicateNames names))

end Survey

namespace Document

/-- A single field. -/
def field (name : String) (v : Value) : Fields := [(.text name, v)]

/-- A field that is left out when its value is undefined. -/
def optional (name : String) (v : Value) : Fields := if v.isDefined then field name v else []

/-- The fields of the properties that were given. -/
def propertyFields (known : List Property) (properties : Properties) : Fields :=
  known.flatMap fun p => optional p.key (properties p)

mutual

/-- The document of a question. -/
def ofQuestion : Question → Value
  | ⟨name, kind, isRequired, properties, elements⟩ =>
    .structured (field "name" (.text name) ++ field "type" kind ++
      (if isRequired then field "isRequired" (.boolean true) else []) ++
      propertyFields Property.ofQuestions properties ++
      (if elements.isEmpty then [] else field "elements" (.sequence (ofQuestions elements))))

def ofQuestions : List Question → List Value
  | [] => []
  | q :: rest => ofQuestion q :: ofQuestions rest

end

/-- The document of a page. -/
def ofPage (p : Page) : Value :=
  .structured (field "name" (.text p.name) ++ propertyFields Property.ofPages p.properties ++
    field "elements" (.sequence (ofQuestions p.elements)))

/-- The document of a trigger. -/
def ofTrigger (t : Trigger) : Value :=
  .structured (field "type" (.text t.kind.name) ++ field "expression" (.text t.condition) ++
    optional "setToName" t.setToName ++ optional "setValue" t.setValue ++ optional "fromName" t.fromName ++
    optional "gotoName" t.gotoName ++ optional "runExpression" t.runExpression)

end Document

/-- The document of a survey. -/
def Survey.toDocument (s : Survey) : Value :=
  .structured (Document.field "pages" (.sequence (s.pages.map Document.ofPage)) ++
    Document.field "triggers" (.sequence (s.triggers.map Document.ofTrigger)) ++
    Document.optional "title" s.title ++ Document.optional "description" s.description ++
    Document.optional "completedHtml" s.completedHtml ++
    (if s.metadata.isEmpty then [] else Document.field "metadata" (.structured s.metadata)))

end Questionnaire
