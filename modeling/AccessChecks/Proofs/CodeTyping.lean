import AccessChecks.Code.Basic
import AccessChecks.Proofs.FieldShapes

/-!
# Typing of emitted code

## Items and methods

Items and methods have the types that their libraries declare.  Some methods borrow
what they are called on, the others take its value.

## Expressions

Fields and dereferenced references are places.  The value of a place can be taken
only if it is copied, since a request is never moved out of.  Variables are not places
in this sense, and it is not tracked whether their values have been taken.

## Scopes

No name is bound where it is bound already.  So a variable refers to the one binding
of its name around it, and no closure and no loop captures it.  Code is closed if it
has a type in a scope with nothing but the request.
-/

namespace AccessChecks

namespace CodeType

def isCopy : CodeType → Bool
  | bool | int32 | int64 | uint32 | uint64 | float | double | size | byte => true
  | kind | mode | unit | ref _ => true
  | optional τ => τ.isCopy
  | pair σ τ => σ.isCopy && τ.isCopy
  | _ => false

def isClone : CodeType → Bool
  | bool | int32 | int64 | uint32 | uint64 | float | double | size | byte => true
  | text | message _ => true
  | optional τ | list τ => τ.isClone
  | map κ τ => κ.isClone && τ.isClone
  | _ => false

def isInteger : CodeType → Bool
  | int32 | int64 | uint32 | uint64 | size | byte => true
  | _ => false

def hasText : CodeType → Bool
  | bool | int32 | int64 | uint32 | uint64 | float | double | size | byte => true
  | text | slice => true
  | ref τ => τ.hasText
  | _ => false

def hasLength : CodeType → Bool
  | text | slice | list _ | map _ _ | attributes => true
  | ref τ => τ.hasLength
  | _ => false

def hasDefault : CodeType → Bool
  | bool | int32 | int64 | uint32 | uint64 | float | double | size | byte => true
  | text | attributes | optional _ | list _ | map _ _ => true
  | _ => false

def referent : CodeType → CodeType
  | ref τ => τ.referent
  | τ => τ

end CodeType

/-!
## Items and methods
-/

namespace AttributeForm

def content : AttributeForm → CodeType
  | bool => .bool
  | int => .int64
  | uint => .uint64
  | float => .double
  | string => .text
  | bytes => .list .byte
  | list => .list .value
  | map => .attributes

end AttributeForm

namespace Item

def type? : Item → Option CodeType
  | check => some .check
  | checkedResource => some .resource
  | checkConfig => some .config
  | attributeType => some .value
  | _ => none

def fields? : Item → Option (List (String × CodeType))
  | check =>
      some [("tenant_id", .text), ("permission", .text),
        ("resource", .resource)]
  | checkedResource =>
      some [("resource_type", .text), ("id", .text),
        ("attributes", .attributes)]
  | checkConfig =>
      some [("kind", .kind), ("mode", .optional .mode),
        ("checks", .list .check)]
  | _ => none

inductive Is : Item → CodeType → Prop where
  | kind (k : CheckKind) : Is (.kind k) .kind
  | mode (m : BulkMode) : Is (.mode m) .mode
  | defaultTenant : Is .defaultTenant (.ref .slice)
  | absent (τ : CodeType) : Is .absent (.optional τ)
  | toText {τ : CodeType} :
      τ.hasText = true → Is .toText (.function (.ref τ) .text)

inductive Makes : Item → CodeType → Prop where
  | newText : Makes .newText .text
  | newList (τ : CodeType) : Makes .newList (.list τ)
  | newAttributes : Makes .newAttributes .attributes

inductive Turns : Item → CodeType → CodeType → Prop where
  | textFrom : Turns .textFrom (.ref .slice) .text
  | present (τ : CodeType) : Turns .present τ (.optional τ)
  | int32 : Turns .toInt .int32 .int64
  | int64 : Turns .toInt .int64 .int64
  | uint32 : Turns .toUInt .uint32 .uint64
  | uint64 : Turns .toUInt .uint64 .uint64
  | float : Turns .toFloat .float .double
  | double : Turns .toFloat .double .double
  | attributeOf (form : AttributeForm) :
      Turns (.attributeOf form) form.content .value

end Item

namespace MethodName

/-- The method borrows a value of the first type, or of what it refers to, and
returns one of the second. -/
inductive Borrows : MethodName → CodeType → CodeType → Prop where
  | asRef (τ : CodeType) : Borrows .asRef (.optional τ) (.optional (.ref τ))
  | iterList {σ τ : CodeType} :
      σ.referent = .list τ → Borrows .iter σ (.iterator (.ref τ))
  | iterMap {σ κ τ : CodeType} :
      σ.referent = .map κ τ →
      Borrows .iter σ (.iterator (.pair (.ref κ) (.ref τ)))
  | values {σ κ τ : CodeType} :
      σ.referent = .map κ τ → Borrows .values σ (.iterator (.ref τ))
  | isEmpty {σ : CodeType} : σ.hasLength = true → Borrows .isEmpty σ .bool
  | len {σ : CodeType} : σ.hasLength = true → Borrows .len σ .size
  | toString {σ : CodeType} : σ.hasText = true → Borrows .toString σ .text
  | clone {τ : CodeType} : τ.isClone = true → Borrows .clone τ τ
  | cloneRef {τ : CodeType} : τ.isClone = true → Borrows .clone (.ref τ) τ

/-- The method takes a value of the first type and returns one of the second. -/
inductive Takes : MethodName → CodeType → CodeType → Prop where
  | intoIter (τ : CodeType) : Takes .intoIter (.optional τ) (.iterator τ)
  | collectList (τ : CodeType) : Takes .collect (.iterator τ) (.list τ)
  | collectEntries : Takes .collect (.iterator (.pair .text .value)) .attributes
  | copied {τ : CodeType} :
      τ.isCopy = true → Takes .copied (.optional (.ref τ)) (.optional τ)
  | unwrapOrDefault {τ : CodeType} :
      τ.hasDefault = true → Takes .unwrapOrDefault (.optional τ) τ

/-- The method takes a value of the first type and a function of the second, and
returns a value of the third. -/
inductive Adapts : MethodName → CodeType → CodeType → CodeType → Prop where
  | andThen (σ τ : CodeType) :
      Adapts .andThen (.optional σ) (.function σ (.optional τ)) (.optional τ)
  | mapOptional (σ τ : CodeType) :
      Adapts .map (.optional σ) (.function σ τ) (.optional τ)
  | mapIterator (σ τ : CodeType) :
      Adapts .map (.iterator σ) (.function σ τ) (.iterator τ)
  | flatMap (σ τ : CodeType) :
      Adapts .flatMap (.iterator σ) (.function σ (.iterator τ)) (.iterator τ)
  | filter (σ : CodeType) :
      Adapts .filter (.optional σ) (.function (.ref σ) .bool) (.optional σ)

end MethodName

/-!
## Expressions
-/

structure Variable where
  isMutable : Bool
  type : CodeType
deriving DecidableEq, Repr, Inhabited

abbrev Scope := List (String × Variable)

namespace Scope

def Fresh (Γ : Scope) (x : String) : Prop :=
  Γ.lookup x = none

end Scope

namespace Expr

def isPlace : Expr → Bool
  | field _ _ | unary .deref _ => true
  | _ => false

mutual

/-- In the scope, the expression has the type. -/
inductive HasType (s : Schema) : Scope → Expr → CodeType → Prop where
  | name {Γ : Scope} {x : String} {v : Variable} :
      Γ.lookup x = some v → HasType s Γ (.name x) v.type
  | item {Γ : Scope} {i : Item} {τ : CodeType} :
      i.Is τ → HasType s Γ (.item i) τ
  | text (Γ : Scope) (t : String) : HasType s Γ (.text t) (.ref .slice)
  | number {Γ : Scope} {n : Nat} {τ : CodeType} :
      τ.isInteger = true → n < 128 → HasType s Γ (.number n) τ
  | field {Γ : Scope} {base : Expr} {x : String} {σ τ : CodeType}
      {target : MessageRef} :
      HasType s Γ base σ → σ.referent = .message target →
      s.fieldType? target x = some τ → HasType s Γ (.field base x) τ
  | borrowing {Γ : Scope} {e : Expr} {m : MethodName} {σ τ : CodeType} :
      HasType s Γ e σ → m.Borrows σ τ → HasType s Γ (.method e m []) τ
  | taking {Γ : Scope} {e : Expr} {m : MethodName} {σ τ : CodeType} :
      Gives s Γ e σ → m.Takes σ τ → HasType s Γ (.method e m []) τ
  | adapting {Γ : Scope} {e f : Expr} {m : MethodName} {σ φ τ : CodeType} :
      Gives s Γ e σ → HasType s Γ f φ → m.Adapts σ φ τ →
      HasType s Γ (.method e m [f]) τ
  | push {Γ : Scope} {x : String} {e : Expr} {τ : CodeType} :
      Γ.lookup x = some ⟨true, .list τ⟩ → Gives s Γ e τ →
      HasType s Γ (.method (.name x) .push [e]) .unit
  | insert {Γ : Scope} {x : String} {key e : Expr} :
      Γ.lookup x = some ⟨true, .attributes⟩ → Gives s Γ key .text →
      Gives s Γ e .value →
      HasType s Γ (.method (.name x) .insert [key, e]) (.optional .value)
  | making {Γ : Scope} {i : Item} {τ : CodeType} :
      i.Makes τ → HasType s Γ (.call i []) τ
  | turning {Γ : Scope} {i : Item} {e : Expr} {σ τ : CodeType} :
      Gives s Γ e σ → i.Turns σ τ → HasType s Γ (.call i [e]) τ
  | closure {Γ : Scope} {x : String} {body : Expr} {σ τ : CodeType} :
      Γ.Fresh x → Gives s ((x, ⟨false, σ⟩) :: Γ) body τ →
      HasType s Γ (.closure (.name x) body) (.function σ τ)
  | closurePair {Γ : Scope} {x y : String} {body : Expr} {σ ρ τ : CodeType} :
      Γ.Fresh x → Γ.Fresh y → x ≠ y →
      Gives s ((y, ⟨false, ρ⟩) :: (x, ⟨false, σ⟩) :: Γ) body τ →
      HasType s Γ (.closure (.pair x y) body) (.function (.pair σ ρ) τ)
  | pair {Γ : Scope} {a b : Expr} {σ τ : CodeType} :
      Gives s Γ a σ → Gives s Γ b τ → HasType s Γ (.pair a b) (.pair σ τ)
  | not {Γ : Scope} {e : Expr} :
      Gives s Γ e .bool → HasType s Γ (.unary .not e) .bool
  | borrow {Γ : Scope} {e : Expr} {τ : CodeType} :
      HasType s Γ e τ → HasType s Γ (.unary .borrow e) (.ref τ)
  | deref {Γ : Scope} {e : Expr} {τ : CodeType} :
      HasType s Γ e (.ref τ) → HasType s Γ (.unary .deref e) τ
  | binary {Γ : Scope} {op : BinaryOp} {a b : Expr} {τ : CodeType} :
      Gives s Γ a τ → Gives s Γ b τ → τ.isInteger = true →
      HasType s Γ (.binary op a b) .bool
  | record {Γ : Scope} {i : Item} {x y z : String} {a b c : Expr}
      {σ ρ φ τ : CodeType} :
      i.type? = some τ → i.fields? = some [(x, σ), (y, ρ), (z, φ)] →
      Gives s Γ a σ → Gives s Γ b ρ → Gives s Γ c φ →
      HasType s Γ (.record i [(x, a), (y, b), (z, c)]) τ
  | choice {Γ : Scope} {test yes no : Expr} {τ : CodeType} :
      Gives s Γ test .bool → Gives s Γ yes τ → Gives s Γ no τ →
      HasType s Γ (.choice test yes no) τ

/-- In the scope, the expression gives a value of the type. -/
inductive Gives (s : Schema) : Scope → Expr → CodeType → Prop where
  | mk {Γ : Scope} {e : Expr} {τ : CodeType} :
      HasType s Γ e τ → (e.isPlace = true → τ.isCopy = true) → Gives s Γ e τ

end

variable {s : Schema} {Γ : Scope} {e : Expr} {τ : CodeType}

theorem HasType.gives (h : HasType s Γ e τ) (hplace : e.isPlace = false) :
    Gives s Γ e τ :=
  Gives.mk h fun htrue => by
    rw [hplace] at htrue
    cases htrue

theorem HasType.gives_copy (h : HasType s Γ e τ) (hcopy : τ.isCopy = true) :
    Gives s Γ e τ :=
  Gives.mk h fun _ => hcopy

theorem Gives.hasType (h : Gives s Γ e τ) : HasType s Γ e τ := by
  cases h with
  | mk htype _ => exact htype

theorem HasType.exists_variable {x : String} (h : HasType s Γ (.name x) τ) :
    ∃ v, Γ.lookup x = some v ∧ τ = v.type := by
  cases h with
  | name hlookup => exact ⟨_, hlookup, rfl⟩

theorem exists_receiver_type {m : MethodName}
    (h : HasType s Γ (.method e m []) τ) :
    ∃ σ, HasType s Γ e σ ∧ (m.Borrows σ τ ∨ m.Takes σ τ) := by
  cases h with
  | borrowing he hborrows => exact ⟨_, he, Or.inl hborrows⟩
  | taking he htakes => exact ⟨_, he.hasType, Or.inr htakes⟩

theorem exists_map_types {f : Expr}
    (h : HasType s Γ (.method e .map [f]) τ) :
    ∃ σ φ, HasType s Γ e σ ∧ HasType s Γ f φ ∧
      MethodName.map.Adapts σ φ τ := by
  cases h with
  | adapting he hf hadapts => exact ⟨_, _, he.hasType, hf, hadapts⟩

end Expr

/-!
## Statements
-/

namespace Stmt

mutual

/-- The statement is well typed in the first scope and leaves the second one. -/
inductive Typed (s : Schema) : Scope → Stmt → Scope → Prop where
  | bind {Γ : Scope} {isMutable : Bool} {x : String} {element : Option Item}
      {e : Expr} {τ : CodeType} :
      e.Gives s Γ τ → Γ.Fresh x →
      (∀ i ∈ element, ∃ σ, i.type? = some σ ∧ τ = .list σ) →
      Typed s Γ (.bind isMutable x element e) ((x, ⟨isMutable, τ⟩) :: Γ)
  | assign {Γ : Scope} {x : String} {e : Expr} {τ : CodeType} :
      Γ.lookup x = some ⟨true, τ⟩ → e.Gives s Γ τ → Typed s Γ (.assign x e) Γ
  | loop {Γ Δ : Scope} {x : String} {e : Expr} {τ : CodeType}
      {body : List Stmt} :
      e.Gives s Γ (.iterator τ) → Γ.Fresh x →
      TypedAll s ((x, ⟨false, τ⟩) :: Γ) body Δ →
      Typed s Γ (.loop (some x) e body) Γ
  | count {Γ Δ : Scope} {e : Expr} {τ : CodeType} {body : List Stmt} :
      e.Gives s Γ (.iterator τ) → TypedAll s Γ body Δ →
      Typed s Γ (.loop none e body) Γ
  | guard {Γ Δ : Scope} {test : Expr} {body : List Stmt} :
      test.Gives s Γ .bool → TypedAll s Γ body Δ →
      Typed s Γ (.guard test body) Γ
  | unwrap {Γ Δ : Scope} {x : String} {e : Expr} {τ : CodeType}
      {body : List Stmt} :
      e.Gives s Γ (.optional τ) → Γ.Fresh x →
      TypedAll s ((x, ⟨false, τ⟩) :: Γ) body Δ →
      Typed s Γ (.unwrap x e body) Γ
  | eval {Γ : Scope} {e : Expr} {τ : CodeType} :
      e.HasType s Γ τ → Typed s Γ (.eval e) Γ
  | block {Γ Δ : Scope} {body : List Stmt} :
      TypedAll s Γ body Δ → Typed s Γ (.block body) Γ

inductive TypedAll (s : Schema) : Scope → List Stmt → Scope → Prop where
  | nil (Γ : Scope) : TypedAll s Γ [] Γ
  | cons {Γ Δ Ω : Scope} {statement : Stmt} {rest : List Stmt} :
      Typed s Γ statement Δ → TypedAll s Δ rest Ω →
      TypedAll s Γ (statement :: rest) Ω

end

variable {s : Schema} {Γ Δ Ω : Scope}

theorem typed_bind {x : String} {e : Expr} {τ : CodeType}
    (isMutable : Bool) (he : e.Gives s Γ τ) (hx : Γ.Fresh x) :
    Typed s Γ (.bind isMutable x none e) ((x, ⟨isMutable, τ⟩) :: Γ) :=
  Typed.bind he hx fun i hi => by cases hi

theorem typed_bind_newList {x : String} {i : Item} {τ : CodeType}
    (hi : i.type? = some τ) (hx : Γ.Fresh x) :
    Typed s Γ (.bind true x (some i) (.call .newList []))
      ((x, ⟨true, .list τ⟩) :: Γ) := by
  have hnew : (Expr.call .newList []).HasType s Γ (.list τ) :=
    Expr.HasType.making (Item.Makes.newList τ)
  apply Typed.bind (hnew.gives rfl) hx
  intro j hj
  cases hj
  exact ⟨τ, hi, rfl⟩

theorem Typed.alone {statement : Stmt} (h : Typed s Γ statement Δ) :
    TypedAll s Γ [statement] Δ :=
  TypedAll.cons h (TypedAll.nil Δ)

theorem TypedAll.append {front back : List Stmt}
    (hfront : TypedAll s Γ front Δ) (hback : TypedAll s Δ back Ω) :
    TypedAll s Γ (front ++ back) Ω := by
  induction front generalizing Γ with
  | nil =>
      cases hfront
      exact hback
  | cons statement rest ih =>
      cases hfront with
      | cons hstatement hrest => exact TypedAll.cons hstatement (ih hrest)

theorem TypedAll.exists_bound_type {isMutable : Bool} {x : String}
    {element : Option Item} {e : Expr} {rest : List Stmt}
    (h : TypedAll s Γ (.bind isMutable x element e :: rest) Δ) :
    ∃ τ, e.HasType s Γ τ ∧
      TypedAll s ((x, ⟨isMutable, τ⟩) :: Γ) rest Δ := by
  cases h with
  | cons hbind hrest =>
      cases hbind with
      | bind he _ _ => exact ⟨_, he.hasType, hrest⟩

theorem TypedAll.flatten {parts : List (List Stmt)}
    (h : ∀ part ∈ parts, TypedAll s Γ part Γ) :
    TypedAll s Γ parts.flatten Γ := by
  induction parts with
  | nil => exact TypedAll.nil Γ
  | cons part rest ih =>
      rw [List.flatten_cons]
      apply TypedAll.append (h part List.mem_cons_self)
      exact ih fun other hother => h other (List.mem_cons_of_mem part hother)

end Stmt

namespace Body

/-- A body is closed: it refers to a request of the given type and otherwise to
variables of its own. -/
def WellTyped (s : Schema) (target : MessageRef) (b : Body) : Prop :=
  ∃ Γ, Stmt.TypedAll s [("self", ⟨false, .ref (.message target)⟩)]
      b.statements Γ ∧
    b.result.Gives s Γ .config

end Body

end AccessChecks
