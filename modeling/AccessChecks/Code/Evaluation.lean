import AccessChecks.Code.Basic
import AccessChecks.Code.Data

/-!
# Running code

## Expressions

An expression is evaluated in an environment, which lists the variables in scope
with the innermost first.  References are transparent.  An expression that is
applied to the wrong kind of value has no value.

## Statements

A statement changes the environment.  Variables bound inside a block go out of
scope at its end; what the block did to other variables stays.

## Bodies

A body is run on a request, and its result is a configuration of checks.
-/

namespace AccessChecks

abbrev Environment := List (String × Data)

namespace Environment

def update (x : String) (d : Data) : Environment → Environment
  | [] => []
  | (y, old) :: rest =>
      if x = y then (y, d) :: rest else (y, old) :: update x d rest

def leave (size : Nat) (env : Environment) : Environment :=
  env.drop (env.length - size)

end Environment

namespace Pattern

def bindTo (d : Data) (env : Environment) : Pattern → Option Environment
  | name x => some ((x, d) :: env)
  | pair x y =>
      match d with
      | .pair a b => some ((y, b) :: (x, a) :: env)
      | _ => none

end Pattern

namespace Item

def value? : Item → Option Data
  | kind k => some (.kind k)
  | mode m => some (.mode m)
  | defaultTenant => some (.string AccessChecks.defaultTenant)
  | absent => some .absent
  | _ => none

end Item

namespace AttributeForm

def build? (form : AttributeForm) (content : Data) : Option AttributeValue :=
  match form, content with
  | bool, .scalar (.bool b) => some (.bool b)
  | int, .scalar (.int64 i) => some (.int i)
  | uint, .scalar (.uint64 n) => some (.uint n)
  | float, .scalar (.double x) => some (.float x)
  | string, .scalar (.string s) => some (.string s)
  | bytes, .scalar (.bytes bs) => some (.bytes bs)
  | list, .list items => (items.mapM Data.asValue?).map .list
  | map, .list items =>
      (items.mapM Data.asEntry?).map fun pairs => .map (Entries.ofPairs pairs)
  | _, _ => none

end AttributeForm

namespace Data

def apply (function : Item) (args : List Data) : Option Data :=
  match function, args with
  | .newText, [] => some (string "")
  | .newList, [] => some (list [])
  | .newAttributes, [] => some (attributes [])
  | .textFrom, [scalar (.string s)] => some (string s)
  | .present, [d] => some (present d)
  | .toInt, [scalar (.int32 i)] => some (scalar (.int64 i.toInt64))
  | .toInt, [scalar (.int64 i)] => some (scalar (.int64 i))
  | .toUInt, [scalar (.uint32 n)] => some (scalar (.uint64 n.toUInt64))
  | .toUInt, [scalar (.uint64 n)] => some (scalar (.uint64 n))
  | .toFloat, [scalar (.float bits)] =>
      some (scalar (.double (ScalarData.widenFloat bits)))
  | .toFloat, [scalar (.double x)] => some (scalar (.double x))
  | .attributeOf form, [content] => (form.build? content).map value
  | _, _ => none

def invoke (m : MethodName) (receiver : Data) : Option Data :=
  match m, receiver with
  | .asRef, absent => some absent
  | .asRef, present d => some (present d)
  | .iter, list items => some (list items)
  | .iter, map entries =>
      some (list (entries.map fun e => pair (scalar e.1) e.2))
  | .values, map entries => some (list (entries.map Prod.snd))
  | .intoIter, absent => some (list [])
  | .intoIter, present d => some (list [d])
  | .isEmpty, scalar (.string s) => some (bool s.isEmpty)
  | .isEmpty, list items => some (bool items.isEmpty)
  | .toString, scalar s => s.text?.map string
  | .clone, d => some d
  | .collect, list items => some (list items)
  | .unwrapOrDefault, present d => some d
  | .unwrapOrDefault, absent => some (string "")
  | .len, list items => some (count items.length)
  | _, _ => none

def items? : Data → Option (List Data)
  | list items => some items
  | _ => none

def adapt (m : MethodName) (receiver : Data) (f : Data → Option Data) :
    Option Data :=
  match m, receiver with
  | .map, absent => some absent
  | .map, present d => (f d).map present
  | .map, list items => (items.mapM f).map list
  | .andThen, absent => some absent
  | .andThen, present d => f d
  | .filter, absent => some absent
  | .filter, present d =>
      ((f d).bind asBool?).map fun keep => if keep then present d else absent
  | .flatMap, list items =>
      (items.mapM fun d => (f d).bind items?).map fun parts =>
        list parts.flatten
  | _, _ => none

def record (type : Item) (fields : List (String × Data)) : Option Data :=
  match type with
  | .checkedResource =>
      match fields.lookup "resource_type", fields.lookup "id",
        fields.lookup "attributes" with
      | some (scalar (.string type)), some (scalar (.string id)),
        some (attributes entries) => some (resource ⟨type, id, entries⟩)
      | _, _, _ => none
  | .check =>
      match fields.lookup "tenant_id", fields.lookup "permission",
        fields.lookup "resource" with
      | some (scalar (.string tenant)), some (scalar (.string permission)),
        some (resource r) => some (check ⟨tenant, permission, r⟩)
      | _, _, _ => none
  | .checkConfig =>
      match fields.lookup "kind", fields.lookup "mode",
        fields.lookup "checks" with
      | some (kind k), some absent, some (list items) =>
          (items.mapM asCheck?).map fun checks => config ⟨k, none, checks⟩
      | some (kind k), some (present (mode m)), some (list items) =>
          (items.mapM asCheck?).map fun checks => config ⟨k, some m, checks⟩
      | _, _, _ => none
  | _ => none

end Data

/-!
## Evaluation
-/

namespace UnaryOp

def apply (op : UnaryOp) (d : Data) : Option Data :=
  match op with
  | not => d.asBool?.map fun b => .bool !b
  | borrow | deref => some d

end UnaryOp

namespace BinaryOp

def apply (op : BinaryOp) (a b : Data) : Option Data := do
  let m ← a.integer?
  let n ← b.integer?
  match op with
  | differs => return .bool (m != n)
  | exceeds => return .bool (m > n)

end BinaryOp

mutual

def Expr.eval (env : Environment) : Expr → Option Data
  | .name x => env.lookup x
  | .item i => i.value?
  | .text s => some (.string s)
  | .number n => some (.count n)
  | .field base x => (base.eval env).bind (Data.field? x)
  | .method receiver m [] => (receiver.eval env).bind (Data.invoke m)
  | .method receiver m [.closure parameter body] =>
      (receiver.eval env).bind fun d =>
        d.adapt m fun x => (parameter.bindTo x env).bind fun inner =>
          body.eval inner
  | .method receiver m [.item .toText] =>
      (receiver.eval env).bind fun d => d.adapt m (Data.invoke .toString)
  | .method _ _ _ => none
  | .call function args => (Expr.evalAll env args).bind (Data.apply function)
  | .closure _ _ => none
  | .pair a b => (a.eval env).bind fun x => (b.eval env).map (Data.pair x)
  | .unary op e => (e.eval env).bind op.apply
  | .binary op a b =>
      (a.eval env).bind fun x => (b.eval env).bind fun y => op.apply x y
  | .record type fields =>
      (Expr.evalRecord env fields).bind (Data.record type)
  | .choice test yes no =>
      ((test.eval env).bind Data.asBool?).bind fun b =>
        if b then yes.eval env else no.eval env

def Expr.evalAll (env : Environment) : List Expr → Option (List Data)
  | [] => some []
  | e :: rest =>
      (e.eval env).bind fun d => (Expr.evalAll env rest).map (d :: ·)

def Expr.evalRecord (env : Environment) :
    List (String × Expr) → Option (List (String × Data))
  | [] => some []
  | (x, e) :: rest =>
      (e.eval env).bind fun d =>
        (Expr.evalRecord env rest).map ((x, d) :: ·)

end

namespace Expr

def execute (env : Environment) : Expr → Option Environment
  | .method (.name x) .push [e] =>
      match env.lookup x, e.eval env with
      | some (.list items), some d =>
          some (Environment.update x (.list (items ++ [d])) env)
      | _, _ => none
  | .method (.name x) .insert [key, e] =>
      match env.lookup x, key.eval env, e.eval env with
      | some (.attributes entries), some (.scalar (.string label)),
        some (.value v) =>
          let inserted := Entries.insert entries label v
          some (Environment.update x (.attributes inserted) env)
      | _, _, _ => none
  | _ => none

end Expr

mutual

def Stmt.exec (env : Environment) : Stmt → Option Environment
  | .bind _ x _ value => (value.eval env).map fun d => (x, d) :: env
  | .assign x value =>
      (value.eval env).map fun d => Environment.update x d env
  | .loop x elements body =>
      ((elements.eval env).bind Data.items?).bind fun items =>
        items.foldlM
          (fun env d =>
            let inner :=
              match x with
              | some x => (x, d) :: env
              | none => env
            (Stmt.execAll inner body).map (Environment.leave env.length))
          env
  | .guard test body =>
      ((test.eval env).bind Data.asBool?).bind fun b =>
        if b then (Stmt.execAll env body).map (Environment.leave env.length)
        else some env
  | .unwrap x value body =>
      (value.eval env).bind fun d =>
        match d with
        | .present d =>
            (Stmt.execAll ((x, d) :: env) body).map
              (Environment.leave env.length)
        | .absent => some env
        | _ => none
  | .eval e => e.execute env
  | .block body =>
      (Stmt.execAll env body).map (Environment.leave env.length)

def Stmt.execAll (env : Environment) : List Stmt → Option Environment
  | [] => some env
  | s :: rest => (s.exec env).bind fun env => Stmt.execAll env rest

end

namespace Body

/-- The configuration that a body computes for a request. -/
def run (b : Body) (request : Data) : Option CheckConfig :=
  match (Stmt.execAll [("self", request)] b.statements).bind b.result.eval with
  | some (.config c) => some c
  | _ => none

end Body

end AccessChecks
