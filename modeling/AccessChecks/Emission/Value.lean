import AccessChecks.AccessPath
import AccessChecks.Code.Basic
import AccessChecks.Code.Name

/-!
# Values along a path

## Emission

Emitting code issues loop variables, which are numbered from one and never used
twice, and may meet a name that is no identifier.  Variables that were issued
before such a name stay issued.

## Shapes

The value reached by a part of a path is a place, a reference or an optional
reference.  A hop to a single value leads from shape to shape; a hop through a
collection becomes the elements of a loop, whose variable is a reference.
-/

namespace AccessChecks

abbrev Emission := ExceptT IllegalName (StateM Nat)

namespace Emission

def nextLoop : Emission String := do
  modify (· + 1)
  return Name.ofLoop (← get)

def fieldName (name : String) : Emission String :=
  liftExcept (Name.ofField name)
where
  liftExcept : Except IllegalName String → Emission String
    | .ok x => pure x
    | .error e => throw e

end Emission

inductive Value where
  | place (e : Expr)
  | ref (e : Expr)
  | maybe (e : Expr)
deriving Repr, Inhabited

namespace Value

def inner : String := "v"

def found : String := "value"

def expr : Value → Expr
  | place e | ref e | maybe e => e

def stepTo (x : String) (hop : Hop) : Value → Value
  | place base | ref base =>
      if hop.isNullable then
        maybe (.method (.field base x) .asRef [])
      else place (.field base x)
  | maybe base =>
      let next := Expr.field (.name inner) x
      if hop.isNullable then
        maybe
          (.method base .andThen
            [.closure (.name inner) (.method next .asRef [])])
      else
        maybe
          (.method base .map
            [.closure (.name inner) (.unary .borrow next)])

/-- The elements behind a collection field of the given identifier. -/
def elementsOf (x : String) (hop : Hop) : Value → Expr
  | place base | ref base => .method (.field base x) (elements hop) []
  | maybe base =>
      .method (.method base .intoIter []) .flatMap
        [.closure (.name inner)
          (.method (.field (.name inner) x) (elements hop) [])]
where
  elements : Hop → MethodName
    | .mapped => .values
    | .field | .optional | .repeated => .iter

def step (value : Value) (s : Segment) : Emission Value := do
  return value.stepTo (← Emission.fieldName s.name) s.hop

def follow (value : Value) (segments : List Segment) : Emission Value :=
  segments.foldlM step value

def fanOut (value : Value) (s : Segment) : Emission Expr := do
  return value.elementsOf (← Emission.fieldName s.name) s.hop

def bindTo (x : String) : Value → Stmt × Value
  | place e => (.bind false x none (.unary .borrow e), ref (.name x))
  | ref e => (.bind false x none e, ref (.name x))
  | maybe e => (.bind false x none e, maybe (.name x))

/-- Statements for the present value.  An absent value skips them. -/
def whenPresent (value : Value) (body : Value → Option (List Stmt)) :
    Option (List Stmt) :=
  match value with
  | maybe e =>
      (body (ref (.name found))).map fun statements =>
        [.unwrap found e statements]
  | value => body value

def copied : Value → Expr
  | place e => e
  | ref e => .unary .deref e
  | maybe e => .method (.method e .copied []) .unwrapOrDefault []

def asText : Value → Expr
  | place e | ref e => .method e .toString []
  | maybe e =>
      .method (.method e .map [.item .toText]) .unwrapOrDefault []

/-- Assigns the text of a key value to a variable, if the value is present and
is neither the empty text nor zero. -/
def assignUnlessZero (kind : Kind) (target : String) : Value → Stmt
  | maybe e =>
      let present := Expr.name found
      let test :=
        if kind = .scalar .string then
          Expr.unary .not (.method present .isEmpty [])
        else
          .binary .differs (.unary .deref (.unary .deref present)) (.number 0)
      .unwrap found (.method e .filter [.closure (.name found) test])
        [.assign target (.method present .toString [])]
  | value =>
      let test :=
        if kind = .scalar .string then
          Expr.unary .not (.method value.expr .isEmpty [])
        else .binary .differs value.copied (.number 0)
      .guard test [.assign target (.method value.expr .toString [])]

end Value

end AccessChecks
