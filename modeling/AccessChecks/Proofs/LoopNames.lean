import AccessChecks.Emission.Body
import AccessChecks.Proofs.FreshNames

/-!
# Names of loop variables in code

## Occurrences

The variables that occur in an expression include the parameters of its closures.  A
list of names covers others if it has all of them that are names of loop variables.

## Loops

The variables that loops bind are listed in the order of the text, so the variable of a
loop comes before those of the loops inside of it.  A loop that only counts binds none.
Inside of a loop its variable may occur, and outside of it it may not.

## Code of values

Whatever is made of a value reads the loop variables that the value reads and no others.
-/

namespace AccessChecks

namespace Name

def IsLoop (x : String) : Prop :=
  ∃ number, x = ofLoop number

theorem not_isLoop_of_isPlain {x : String} (h : isPlain x = true) : ¬ IsLoop x := by
  intro hloop
  rcases hloop with ⟨number, hx⟩
  exact ofLoop_ne_of_isPlain number h hx.symm

/-- All names of loop variables in the second list are in the first one. -/
def Covers (bound names : List String) : Prop :=
  ∀ x ∈ names, IsLoop x → x ∈ bound

variable {bound names more : List String}

@[simp] theorem covers_nil : Covers bound [] := by
  intro x hx
  cases hx

@[simp] theorem covers_append :
    Covers bound (names ++ more) ↔ Covers bound names ∧ Covers bound more :=
  List.forall_mem_append

theorem covers_cons {x : String} :
    Covers bound (x :: names) ↔ (IsLoop x → x ∈ bound) ∧ Covers bound names :=
  List.forall_mem_cons

@[simp] theorem covers_cons_of_isPlain {x : String} (hx : isPlain x = true) :
    Covers bound (x :: names) ↔ Covers bound names := by
  rw [covers_cons]
  constructor
  · exact And.right
  · intro h
    exact ⟨fun hloop => absurd hloop (not_isLoop_of_isPlain hx), h⟩

theorem Covers.mono (h : Covers bound names) {wider : List String}
    (hwider : bound ⊆ wider) : Covers wider names :=
  fun x hx hloop => hwider (h x hx hloop)

end Name

open Name

/-!
## Occurrences
-/

namespace Pattern

def names : Pattern → List String
  | name x => [x]
  | pair x y => [x, y]

end Pattern

mutual

@[simp] def Expr.names : Expr → List String
  | .name x => [x]
  | .item _ | .text _ | .number _ => []
  | .field base _ => base.names
  | .method receiver _ args => receiver.names ++ Expr.namesAll args
  | .call _ args => Expr.namesAll args
  | .closure parameter body => parameter.names ++ body.names
  | .pair a b => a.names ++ b.names
  | .unary _ e => e.names
  | .binary _ a b => a.names ++ b.names
  | .record _ fields => Expr.namesRecord fields
  | .choice test yes no => test.names ++ yes.names ++ no.names

@[simp] def Expr.namesAll : List Expr → List String
  | [] => []
  | e :: rest => e.names ++ Expr.namesAll rest

@[simp] def Expr.namesRecord : List (String × Expr) → List String
  | [] => []
  | (_, e) :: rest => e.names ++ Expr.namesRecord rest

end

/-!
## Loops
-/

mutual

@[simp] def Stmt.loopNames : Stmt → List String
  | .bind _ _ _ _ | .assign _ _ | .eval _ => []
  | .loop x _ body => x.toList ++ Stmt.loopNamesAll body
  | .guard _ body | .unwrap _ _ body | .block body => Stmt.loopNamesAll body

@[simp] def Stmt.loopNamesAll : List Stmt → List String
  | [] => []
  | s :: rest => s.loopNames ++ Stmt.loopNamesAll rest

end

mutual

/-- Every occurrence of a loop variable in the statement is in the body of a loop that
binds it, or the variable is already bound around the statement. -/
@[simp] def Stmt.Within (bound : List String) : Stmt → Prop
  | .bind _ x _ value | .assign x value => Covers bound (x :: value.names)
  | .loop x elements body =>
      Covers bound elements.names ∧ Stmt.WithinAll (x.toList ++ bound) body
  | .guard test body => Covers bound test.names ∧ Stmt.WithinAll bound body
  | .unwrap x value body =>
      Covers bound (x :: value.names) ∧ Stmt.WithinAll bound body
  | .eval e => Covers bound e.names
  | .block body => Stmt.WithinAll bound body

@[simp] def Stmt.WithinAll (bound : List String) : List Stmt → Prop
  | [] => True
  | s :: rest => s.Within bound ∧ Stmt.WithinAll bound rest

end

namespace Stmt

variable {bound : List String}

@[simp] theorem loopNamesAll_append (front back : List Stmt) :
    loopNamesAll (front ++ back) = loopNamesAll front ++ loopNamesAll back := by
  induction front with
  | nil => rfl
  | cons s rest ih => simp [ih]

@[simp] theorem withinAll_append {front back : List Stmt} :
    WithinAll bound (front ++ back) ↔
      WithinAll bound front ∧ WithinAll bound back := by
  induction front with
  | nil => simp
  | cons s rest ih => simp [ih, and_assoc]

theorem loopNamesAll_flatten (parts : List (List Stmt)) :
    loopNamesAll parts.flatten = parts.flatMap loopNamesAll := by
  induction parts with
  | nil => rfl
  | cons part rest ih => rw [List.flatten_cons, loopNamesAll_append, ih, List.flatMap_cons]

theorem withinAll_flatten {parts : List (List Stmt)}
    (h : ∀ part ∈ parts, WithinAll bound part) : WithinAll bound parts.flatten := by
  induction parts with
  | nil => trivial
  | cons part rest ih =>
      rw [List.flatten_cons, withinAll_append]
      constructor
      · exact h part List.mem_cons_self
      · exact ih fun other hother => h other (List.mem_cons_of_mem part hother)

end Stmt

namespace Body

def loopNames (b : Body) : List String :=
  Stmt.loopNamesAll b.statements

/-- Every occurrence of a loop variable is in the body of a loop that binds it. -/
def LoopsClosed (b : Body) : Prop :=
  Stmt.WithinAll [] b.statements ∧ Covers [] b.result.names

end Body

/-!
## Code of values
-/

namespace Stmt

structure Straight (bound : List String) (code : List Stmt) : Prop where
  loopNames : loopNamesAll code = []
  within : WithinAll bound code

theorem straight_nil (bound : List String) : Straight bound [] :=
  ⟨rfl, trivial⟩

end Stmt

namespace Value

open Stmt

variable {bound : List String}

def ReadsWithin (bound : List String) (value : Value) : Prop :=
  Covers bound value.expr.names

theorem ReadsWithin.mono {value : Value} (h : value.ReadsWithin bound) {wider : List String}
    (hwider : bound ⊆ wider) : value.ReadsWithin wider :=
  Covers.mono h hwider

theorem reads_of_isPlain {x : String} (hx : isPlain x = true) :
    (ref (.name x)).ReadsWithin bound :=
  (covers_cons_of_isPlain hx).mpr covers_nil

theorem reads_stepTo {value : Value} (h : value.ReadsWithin bound) (x : String) (hop : Hop) :
    (value.stepTo x hop).ReadsWithin bound := by
  unfold ReadsWithin at h ⊢
  cases value <;> cases hnull : hop.isNullable <;>
    simpa (disch := decide) [stepTo, hnull, expr, Pattern.names] using h

theorem covers_elementsOf {value : Value} (h : value.ReadsWithin bound) (x : String)
    (hop : Hop) : Covers bound (value.elementsOf x hop).names := by
  unfold ReadsWithin at h
  cases value <;>
    simpa (disch := decide) [elementsOf, expr, Pattern.names] using h

theorem straight_bindTo {value : Value} (h : value.ReadsWithin bound) {x : String}
    (hx : isPlain x = true) :
    (value.bindTo x).1.loopNames = [] ∧ (value.bindTo x).1.Within bound ∧
      (value.bindTo x).2.ReadsWithin bound := by
  unfold ReadsWithin at h ⊢
  cases value <;>
    simpa [bindTo, expr, covers_cons_of_isPlain hx] using h

theorem straight_whenPresent {value : Value} (h : value.ReadsWithin bound)
    {body : Value → Option (List Stmt)}
    (hbody : ∀ v : Value, v.ReadsWithin bound → ∀ code ∈ body v, Straight bound code)
    {code : List Stmt} (hcode : code ∈ value.whenPresent body) :
    Straight bound code := by
  cases value with
  | place e => exact hbody (place e) h code hcode
  | ref e => exact hbody (ref e) h code hcode
  | maybe e =>
      rcases Option.map_eq_some_iff.mp hcode with ⟨inside, hinside, heq⟩
      have hstraight := hbody (ref (.name found)) (reads_of_isPlain (by decide))
        inside hinside
      have hread : Covers bound e.names := h
      rw [← heq]
      constructor
      · simpa using hstraight.loopNames
      · simpa (disch := decide) using And.intro hread hstraight.within

theorem covers_copied {value : Value} (h : value.ReadsWithin bound) :
    Covers bound value.copied.names := by
  cases value <;> simpa [copied, ReadsWithin, expr] using h

theorem covers_asText {value : Value} (h : value.ReadsWithin bound) :
    Covers bound value.asText.names := by
  cases value <;> simpa [asText, ReadsWithin, expr] using h

theorem straight_assignUnlessZero {value : Value} (h : value.ReadsWithin bound)
    (kind : Kind) {x : String} (hx : isPlain x = true) :
    Straight bound [value.assignUnlessZero kind x] := by
  unfold ReadsWithin at h
  constructor
  · cases value <;> rfl
  · cases value <;> by_cases hkind : kind = .scalar .string <;>
      simpa (disch := decide) [assignUnlessZero, hkind, expr, copied, Pattern.names,
        covers_cons_of_isPlain hx] using h

theorem covers_convertKind {value : Value} (h : value.ReadsWithin bound) {kind : Kind}
    {e : Expr} (he : convertKind kind value = some e) : Covers bound e.names := by
  have hcopied := covers_copied h
  unfold ReadsWithin at h
  cases kind with
  | message target => cases he
  | enum name =>
      cases he
      simpa using hcopied
  | scalar s =>
      cases s <;> cases he <;> first | simpa using hcopied | simpa using h

theorem covers_convert {value : Value} (h : value.ReadsWithin bound) {type : FieldType}
    {e : Expr} (he : value.convert type = some e) : Covers bound e.names := by
  cases type with
  | single kind => exact covers_convertKind h he
  | list kind | map _ kind =>
      rcases Option.map_eq_some_iff.mp he with ⟨element, helement, heq⟩
      have hinner : Covers bound element.names :=
        covers_convertKind (reads_of_isPlain (by decide)) helement
      rw [← heq]
      unfold ReadsWithin at h
      simpa (disch := decide) [Pattern.names] using And.intro h hinner

theorem straight_converted {build : Expr → Stmt}
    (hbuild : ∀ e : Expr, Covers bound e.names → Straight bound [build e])
    {leaf : Value} (h : leaf.ReadsWithin bound) (type : FieldType) :
    Straight bound ((leaf.whenPresent fun value =>
      (value.convert type).map fun e => [build e]).getD []) := by
  cases hcode : leaf.whenPresent fun value =>
      (value.convert type).map fun e => [build e] with
  | none => exact straight_nil bound
  | some code =>
      apply straight_whenPresent h _ hcode
      intro v hv inside hinside
      rcases Option.map_eq_some_iff.mp hinside with ⟨e, he, heq⟩
      rw [← heq]
      exact hbuild e (covers_convert hv he)

end Value

end AccessChecks
