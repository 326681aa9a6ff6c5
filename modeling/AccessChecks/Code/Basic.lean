import AccessChecks.Code.Item

/-!
# Emitted code

## Expressions and statements

The code that computes the checks of a request is a small imperative language:
variables, field accesses, method calls with closures, loops over collections and
guards on optional values.  A body is a list of statements and a result.

## Names

A body is well named if no field that it reads is the placeholder, which is an
identifier but names nothing.
-/

namespace AccessChecks

inductive MethodName where
  | asRef
  | andThen
  | map
  | iter
  | values
  | intoIter
  | flatMap
  | filter
  | isEmpty
  | toString
  | clone
  | collect
  | copied
  | unwrapOrDefault
  | len
  | push
  | insert
deriving DecidableEq, Repr, Inhabited

namespace MethodName

def text : MethodName → String
  | asRef => "as_ref"
  | andThen => "and_then"
  | map => "map"
  | iter => "iter"
  | values => "values"
  | intoIter => "into_iter"
  | flatMap => "flat_map"
  | filter => "filter"
  | isEmpty => "is_empty"
  | toString => "to_string"
  | clone => "clone"
  | collect => "collect"
  | copied => "copied"
  | unwrapOrDefault => "unwrap_or_default"
  | len => "len"
  | push => "push"
  | insert => "insert"

end MethodName

inductive Pattern where
  | name (x : String)
  | pair (x y : String)
deriving DecidableEq, Repr, Inhabited

inductive UnaryOp where
  | not
  | borrow
  | deref
deriving DecidableEq, Repr, Inhabited

namespace UnaryOp

def symbol : UnaryOp → String
  | not => "!"
  | borrow => "&"
  | deref => "*"

end UnaryOp

inductive BinaryOp where
  | differs
  | exceeds
deriving DecidableEq, Repr, Inhabited

namespace BinaryOp

def symbol : BinaryOp → String
  | differs => "!="
  | exceeds => ">"

end BinaryOp

inductive Expr where
  | name (x : String)
  | item (i : Item)
  | text (s : String)
  | number (n : Nat)
  | field (base : Expr) (x : String)
  | method (receiver : Expr) (m : MethodName) (args : List Expr)
  | call (function : Item) (args : List Expr)
  | closure (parameter : Pattern) (body : Expr)
  | pair (a b : Expr)
  | unary (op : UnaryOp) (e : Expr)
  | binary (op : BinaryOp) (a b : Expr)
  | record (type : Item) (fields : List (String × Expr))
  | choice (test yes no : Expr)
deriving Repr, Inhabited

inductive Stmt where
  /-- Binds a variable.  A list that starts empty states its element type. -/
  | bind (mutable : Bool) (x : String) (element : Option Item) (value : Expr)
  | assign (x : String) (value : Expr)
  /-- Runs the body for each element, which is bound if it is needed. -/
  | loop (x : Option String) (elements : Expr) (body : List Stmt)
  | guard (test : Expr) (body : List Stmt)
  | unwrap (x : String) (value : Expr) (body : List Stmt)
  | eval (e : Expr)
  | block (body : List Stmt)
deriving Repr, Inhabited

structure Body where
  statements : List Stmt
  result : Expr
deriving Repr, Inhabited

structure Implementation where
  type : List String
  body : Body
deriving Repr, Inhabited

/-!
## Fields read by code
-/

mutual

def Expr.fieldNames : Expr → List String
  | .name _ | .item _ | .text _ | .number _ => []
  | .field base x => base.fieldNames ++ [x]
  | .method receiver _ args => receiver.fieldNames ++ Expr.fieldNamesAll args
  | .call _ args => Expr.fieldNamesAll args
  | .closure _ body => body.fieldNames
  | .pair a b => a.fieldNames ++ b.fieldNames
  | .unary _ e => e.fieldNames
  | .binary _ a b => a.fieldNames ++ b.fieldNames
  | .record _ fields => Expr.fieldNamesRecord fields
  | .choice test yes no => test.fieldNames ++ yes.fieldNames ++ no.fieldNames

def Expr.fieldNamesAll : List Expr → List String
  | [] => []
  | e :: rest => e.fieldNames ++ Expr.fieldNamesAll rest

def Expr.fieldNamesRecord : List (String × Expr) → List String
  | [] => []
  | (_, e) :: rest => e.fieldNames ++ Expr.fieldNamesRecord rest

end

mutual

def Stmt.fieldNames : Stmt → List String
  | .bind _ _ _ value => value.fieldNames
  | .assign _ value => value.fieldNames
  | .loop _ elements body => elements.fieldNames ++ Stmt.fieldNamesAll body
  | .guard test body => test.fieldNames ++ Stmt.fieldNamesAll body
  | .unwrap _ value body => value.fieldNames ++ Stmt.fieldNamesAll body
  | .eval e => e.fieldNames
  | .block body => Stmt.fieldNamesAll body

def Stmt.fieldNamesAll : List Stmt → List String
  | [] => []
  | s :: rest => s.fieldNames ++ Stmt.fieldNamesAll rest

end

namespace Body

def fieldNames (b : Body) : List String :=
  Stmt.fieldNamesAll b.statements ++ b.result.fieldNames

end Body

end AccessChecks
