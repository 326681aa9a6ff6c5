import AccessChecks.Emission.Walk
import AccessChecks.Discovery.Resource

/-!
# Emitting attributes

## Conversion

The kind of a field decides which attribute value its code builds.  Lists and
maps are converted element by element, and map keys become texts.

## Attributes of an instance

An attribute behind a collection gathers its values in one list, and is left out
if there are none.  A field that holds messages has no attribute value.
-/

namespace AccessChecks

namespace Value

def convertKind (kind : Kind) (value : Value) : Option Expr :=
  let build (form : AttributeForm) (e : Expr) : Option Expr :=
    some (.call (.attributeOf form) [e])
  match kind with
  | .message _ => none
  | .enum _ => build .int (.call .toInt [value.copied])
  | .scalar .bool => build .bool value.copied
  | .scalar .int32 | .scalar .int64 =>
      build .int (.call .toInt [value.copied])
  | .scalar .uint32 | .scalar .uint64 =>
      build .uint (.call .toUInt [value.copied])
  | .scalar .float | .scalar .double =>
      build .float (.call .toFloat [value.copied])
  | .scalar .string => build .string (.method value.expr .clone [])
  | .scalar .bytes => build .bytes (.method value.expr .clone [])

def innerKey : String := "k"

def convert (type : FieldType) (value : Value) : Option Expr :=
  let element (kind : Kind) : Option Expr :=
    convertKind kind (ref (.name inner))
  let gathered (parameter : Pattern) (body : Expr) : Expr :=
    .method
      (.method (.method value.expr .iter []) .map [.closure parameter body])
      .collect []
  match type with
  | .single kind => convertKind kind value
  | .list kind =>
      (element kind).map fun e =>
        .call (.attributeOf .list) [gathered (.name inner) e]
  | .map _ kind =>
      (element kind).map fun e =>
        .call (.attributeOf .map)
          [gathered (.pair innerKey inner)
            (.pair (.method (.name innerKey) .toString []) e)]

end Value

namespace Emission

def attributesVariable : String := "attributes"

def valuesVariable : String := "values"

def insertAttribute (name : String) (value : Expr) : Stmt :=
  .eval
    (.method (.name attributesVariable) .insert
      [.call .textFrom [.text name], value])

def insertionOf (name : String) (path : AccessPath) (instance_ : Value) :
    Emission (List Stmt) := do
  match path.leafType with
  | none => return []
  | some type =>
      if !path.crossesCollection then
        let leaf ← instance_.follow path.segments
        let inserted := leaf.whenPresent fun value =>
          (value.convert type).map fun converted =>
            [insertAttribute name converted]
        return inserted.getD []
      else if !type.isAttributeType then
        return []
      else
        let gather (leaf : Option Value) : Emission (List Stmt) :=
          let pushed := leaf.bind fun leaf =>
            leaf.whenPresent fun value =>
              (value.convert type).map fun converted =>
                [.eval (.method (.name valuesVariable) .push [converted])]
          return pushed.getD []
        let collected ← walk true gather path.segments instance_
        let values := Expr.name valuesVariable
        return [.block
          ([.bind true valuesVariable (some .attributeType)
              (.call .newList [])] ++
            collected ++
            [.guard (.unary .not (.method values .isEmpty []))
              [insertAttribute name
                (.call (.attributeOf .list) [values])]])]

def bindAttributes (paths : Entries AccessPath) (instance_ : Option Value) :
    Emission (List Stmt) := do
  let insertions ←
    match instance_ with
    | some value =>
        paths.mapM fun entry => insertionOf entry.1 entry.2 value
    | none => pure []
  let statements := insertions.flatten
  return .bind (!statements.isEmpty) attributesVariable none
    (.call .newAttributes []) :: statements

end Emission

end AccessChecks
