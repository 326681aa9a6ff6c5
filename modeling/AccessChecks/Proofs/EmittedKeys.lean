import AccessChecks.Emission.Body
import AccessChecks.Proofs.EmittedValues
import AccessChecks.Proofs.RequestData

/-!
# Emitted keys

## Values of keys

A key is a text, an integer or an enum.  Each has a text, and one test decides
whether it names something: a text is tested for being empty, a number for being
zero.

## Guarded assignments

The guard around the assignment of a key takes a form for each shape of the value.
All of them assign the text of a value that names something and leave the variable
alone otherwise.
-/

namespace AccessChecks

open Reading Stmt

/-- What emitted code computes for a value of a key kind: its text, and whether it
names nothing. -/
structure KeyData (kind : Kind) (d : Data) (text : String) (zero : Bool) :
    Prop where
  toText : Data.invoke .toString d = some (.string text)
  text? : d.text? = some text
  keyText? : d.keyText? = if zero then none else some text
  isEmpty : kind = .scalar .string →
    Data.invoke .isEmpty d = some (.bool zero)
  differs : kind ≠ .scalar .string →
    BinaryOp.differs.apply d (.count 0) = some (.bool (!zero))

theorem keyData_string (s : String) :
    KeyData (.scalar .string) (.scalar (.string s)) s s.isEmpty :=
  { toText := rfl
    text? := rfl
    keyText? := rfl
    isEmpty := fun _ => rfl
    differs := fun h => absurd rfl h }

theorem keyData_integer {kind : Kind} {v : ScalarData} {n : Int}
    (hkind : kind ≠ .scalar .string) (hn : v.integer? = some n)
    (htext : v.text? = some (toString n)) :
    KeyData kind (.scalar v) (toString n) (n == 0) :=
  { toText := by
      cases v <;> simp_all [Data.invoke, ScalarData.integer?]
    text? := htext
    keyText? := by
      cases v <;> simp_all [Data.keyText?, ScalarData.integer?]
    isEmpty := fun h => absurd h hkind
    differs := fun _ => by
      simp [BinaryOp.apply, Data.integer?, hn, bne] }

theorem exists_keyData {s : Schema} {kind : Kind} {d : Data}
    (hid : kind.isId = true) (h : s.Holds kind d) :
    ∃ text zero, KeyData kind d text zero := by
  cases h with
  | unknown => cases hid
  | message => cases hid
  | enum =>
      exact ⟨_, _, keyData_integer (by simp) rfl rfl⟩
  | scalar hholds =>
      rename_i t v
      cases t with
      | bool => cases hid
      | float => cases hid
      | double => cases hid
      | bytes => cases hid
      | string =>
          cases v with
          | string text => exact ⟨_, _, keyData_string text⟩
          | _ => cases hholds
      | int32 =>
          cases v with
          | int32 i => exact ⟨_, _, keyData_integer (by simp) rfl rfl⟩
          | _ => cases hholds
      | int64 =>
          cases v with
          | int64 i => exact ⟨_, _, keyData_integer (by simp) rfl rfl⟩
          | _ => cases hholds
      | uint32 =>
          cases v with
          | uint32 n => exact ⟨_, _, keyData_integer (by simp) rfl rfl⟩
          | _ => cases hholds
      | uint64 =>
          cases v with
          | uint64 n => exact ⟨_, _, keyData_integer (by simp) rfl rfl⟩
          | _ => cases hholds

/-!
## Texts of keys
-/

namespace Value

theorem eval_asText {env : Environment} {value : Value} {v : Option Data}
    (h : value.Denotes env v)
    (hkey : ∀ d ∈ v, ∃ kind text zero, KeyData kind d text zero) :
    value.asText.eval env =
      some (.string ((v.bind Data.text?).getD "")) := by
  have hplain : ∀ {d : Data}, v = some d → ∀ {e : Expr}, e.eval env = some d →
      (Expr.method e .toString []).eval env =
        some (.string ((v.bind Data.text?).getD "")) := by
    rintro d rfl e he
    rcases hkey d rfl with ⟨kind, text, zero, hdata⟩
    rw [Expr.eval, he, Option.bind_some, hdata.toText, Option.bind_some,
      hdata.text?]
    rfl
  cases value with
  | place e =>
      rcases h with ⟨d, hv, he⟩
      exact hplain hv he
  | ref e =>
      rcases h with ⟨d, hv, he⟩
      exact hplain hv he
  | maybe e =>
      change e.eval env = some (Data.optional v) at h
      cases v with
      | none =>
          rw [asText, Expr.eval, Expr.eval, h]
          rfl
      | some d =>
          rcases hkey d rfl with ⟨kind, text, zero, hdata⟩
          rw [asText, Expr.eval, Expr.eval, h, Option.bind_some,
            Option.bind_some, hdata.text?]
          simp only [Data.optional, Data.adapt, hdata.toText]
          rfl

theorem eval_keyTest {env : Environment} {kind : Kind} {receiver copy : Expr}
    {d : Data} {text : String} {zero : Bool}
    (hdata : KeyData kind d text zero) (hreceiver : receiver.eval env = some d)
    (hcopy : copy.eval env = some d) :
    (if kind = .scalar .string then
        Expr.unary .not (.method receiver .isEmpty [])
      else .binary .differs copy (.number 0)).eval env =
      some (.bool (!zero)) := by
  by_cases hkind : kind = .scalar .string
  · rw [if_pos hkind, Expr.eval, Expr.eval, hreceiver, Option.bind_some,
      hdata.isEmpty hkind]
    rfl
  · rw [if_neg hkind, Expr.eval, hcopy, Option.bind_some, Expr.eval]
    exact hdata.differs hkind

theorem exec_guard {env : Environment} {test : Expr} {body : List Stmt}
    {zero : Bool} (htest : test.eval env = some (.bool (!zero))) :
    (Stmt.guard test body).exec env =
      if zero then some env
      else (Stmt.execAll env body).map (Environment.leave env.length) := by
  rw [Stmt.exec, htest]
  cases zero <;> rfl

theorem keyOr_of_keyData {kind : Kind} {d : Data} {text : String} {zero : Bool}
    (hdata : KeyData kind d text zero) (default_ : String) :
    keyOr default_ (some d) = if zero then default_ else text := by
  rw [keyOr, Option.bind_some, hdata.keyText?]
  cases zero <;> rfl

theorem exec_assign_text {env : Environment} {target text : String}
    {e : Expr} {d : Data} (he : e.eval env = some d)
    (htext : Data.invoke .toString d = some (.string text)) :
    execAll env [.assign target (.method e .toString [])] =
      some (env.update target (.string text)) := by
  rw [execAll_singleton, Stmt.exec, Expr.eval, he, Option.bind_some, htext]
  rfl

theorem exec_guard_key {kind : Kind} {target : String} {env : Environment}
    {receiver copy : Expr} {d : Data} {default_ text : String} {zero : Bool}
    (hdata : KeyData kind d text zero)
    (hreceiver :
      receiver.eval ((target, .string default_) :: env) = some d)
    (hcopy : copy.eval ((target, .string default_) :: env) = some d) :
    (Stmt.guard
        (if kind = .scalar .string then
          Expr.unary .not (.method receiver .isEmpty [])
        else .binary .differs copy (.number 0))
        [.assign target (.method receiver .toString [])]).exec
        ((target, .string default_) :: env) =
      some ((target, .string (keyOr default_ (some d))) :: env) := by
  rw [exec_guard (eval_keyTest hdata hreceiver hcopy),
    keyOr_of_keyData hdata]
  cases zero with
  | true => rfl
  | false =>
      rw [if_neg (by decide), exec_assign_text hreceiver hdata.toText,
        Environment.update_cons_self]
      exact congrArg some (Environment.leave_self rfl)

theorem exec_unwrap_key {kind : Kind} {target : String} {env : Environment}
    {e : Expr} {v : Option Data} {default_ : String}
    (htarget : target ≠ found)
    (h : e.eval ((target, .string default_) :: env) =
      some (Data.optional v))
    (hkey : ∀ d ∈ v, ∃ text zero, KeyData kind d text zero) :
    ((maybe e).assignUnlessZero kind target).exec
        ((target, .string default_) :: env) =
      some ((target, .string (keyOr default_ v)) :: env) := by
  rw [assignUnlessZero, Stmt.exec, Expr.eval, h, Option.bind_some]
  cases v with
  | none => rfl
  | some d =>
      rcases hkey d rfl with ⟨text, zero, hdata⟩
      have hfound : (Expr.name found).eval
          ((found, d) :: (target, .string default_) :: env) = some d :=
        Environment.lookup_cons_self found d _
      have hcopy : (Expr.unary .deref (.unary .deref (.name found))).eval
          ((found, d) :: (target, .string default_) :: env) = some d := by
        rw [Expr.eval, Expr.eval, hfound]
        rfl
      have htest := eval_keyTest hdata hfound hcopy
      simp only [Data.optional, Data.adapt, Pattern.bindTo, Option.bind_some,
        htest, keyOr_of_keyData hdata]
      cases zero with
      | true => rfl
      | false =>
          change (execAll ((found, d) :: (target, .string default_) :: env)
            _).map _ = _
          rw [exec_assign_text hfound hdata.toText,
            Environment.update_cons_ne htarget, Environment.update_cons_self]
          exact congrArg some (Environment.leave_append [(found, d)] rfl)

theorem exec_assignUnlessZero {kind : Kind} {target : String}
    {env : Environment} {value : Value} {v : Option Data} {default_ : String}
    (htarget : target ≠ found)
    (h : value.Denotes ((target, .string default_) :: env) v)
    (hkey : ∀ d ∈ v, ∃ text zero, KeyData kind d text zero) :
    (value.assignUnlessZero kind target).exec
        ((target, .string default_) :: env) =
      some ((target, .string (keyOr default_ v)) :: env) := by
  cases value with
  | place e =>
      rcases h with ⟨d, rfl, he⟩
      rcases hkey d rfl with ⟨text, zero, hdata⟩
      exact exec_guard_key hdata he he
  | ref e =>
      rcases h with ⟨d, rfl, he⟩
      rcases hkey d rfl with ⟨text, zero, hdata⟩
      apply exec_guard_key hdata he
      change (Expr.unary .deref e).eval _ = _
      rw [Expr.eval, he]
      rfl
  | maybe e => exact exec_unwrap_key htarget h hkey

end Value

/-!
## Variables of keys
-/

structure InstanceIn (inst : Value) (d : Data) (v : Option Data)
    (env : Environment) : Prop where
  lookup : env.lookup resourceRoot = some d
  kept : inst.KeptIn resourceRoot d v

theorem InstanceIn.cons {inst : Value} {d : Data} {v : Option Data}
    {env : Environment} (h : InstanceIn inst d v env) {x : String}
    (hx : x ≠ resourceRoot) (e : Data) :
    InstanceIn inst d v ((x, e) :: env) :=
  { h with
    lookup := by
      rw [Environment.lookup_cons_ne hx]
      exact h.lookup }

theorem InstanceIn.denotes {inst : Value} {d : Data} {v : Option Data}
    {env : Environment} (h : InstanceIn inst d v env) : inst.Denotes env v :=
  h.kept env h.lookup

def ReadsKey (s : Schema) (p : AccessPath) (v : Option Data) : Prop :=
  ∀ d ∈ v, ∃ kind, p.leafType = some (.single kind) ∧ kind.isId = true ∧
    Fits (s.Holds kind) p.segments d

theorem ReadsKey.eq_none {s : Schema} {p : AccessPath} {v : Option Data}
    (h : ReadsKey s p v) (hleaf : ∀ kind, p.leafType ≠ some (.single kind)) :
    v = none := by
  refine Option.eq_none_iff_forall_not_mem.mpr ?_
  intro d hd
  rcases h d hd with ⟨kind, hkind, _⟩
  exact hleaf kind hkind

theorem ReadsKey.fits {s : Schema} {p : AccessPath} {v : Option Data}
    {kind : Kind} (h : ReadsKey s p v) (hleaf : p.leafType = some (.single kind)) :
    ∀ d ∈ v, Fits (fun e => ∃ text zero, KeyData kind e text zero)
      p.segments d := by
  intro d hd
  rcases h d hd with ⟨other, hother, hid, hfits⟩
  rw [hleaf] at hother
  cases hother
  exact hfits.mono fun e he => exists_keyData hid he

theorem exec_assignment {s : Schema} {x : String} {p : AccessPath}
    {inst leaf : Value} {env : Environment} {d : Data} {v : Option Data}
    {text : String} (hfound : x ≠ Value.found)
    (hfollow : inst.Follows leaf p.segments)
    (hinst : InstanceIn inst d v ((x, .string text) :: env))
    (hreads : ReadsKey s p v) :
    execAll ((x, .string text) :: env)
        (match p.leafType with
        | some (.single kind) => [leaf.assignUnlessZero kind x]
        | some (.list _) | some (.map _ _) | none => []) =
      some ((x, .string (keyAt (some p) text v)) :: env) := by
  -- without a single leaf there is no instance that the path could be read on,
  -- so leaving the default is right
  have hother : (∀ kind, p.leafType ≠ some (.single kind)) →
      execAll ((x, .string text) :: env) [] =
        some ((x, .string (keyAt (some p) text v)) :: env) := by
    intro hleaf
    rw [hreads.eq_none hleaf, keyAt, Option.bind_some, valueAt_none]
    rfl
  cases hleaf : p.leafType with
  | none => exact hother (by simp [hleaf])
  | some type =>
      cases type with
      | single kind =>
          rcases hfollow _ v _ hinst.denotes (hreads.fits hleaf) with
            ⟨hdenotes, hdata⟩
          rw [execAll_singleton]
          exact Value.exec_assignUnlessZero hfound hdenotes hdata
      | list kind => exact hother (by simp [hleaf])
      | map key kind => exact hother (by simp [hleaf])

theorem yields_bindKey {fails : IllegalName → Prop} {x : String}
    {default_ : Expr} {path : Option AccessPath} {instance_ : Option Value}
    (hx : x ≠ resourceRoot) (hfound : x ≠ Value.found)
    (hnone : instance_ = none → path = none)
    (hcross : ∀ p, path = some p → p.crossesCollection = false)
    (hfails : ∀ p, path = some p →
      ∀ e, Emission.Illegal p.segments e → fails e) :
    Emission.Yields fails (Emission.bindKey x default_ path instance_)
      fun body => ∀ s env d v text,
        (∀ inst ∈ instance_, InstanceIn inst d v env) →
        (∀ p, path = some p → ReadsKey s p v) →
        default_.eval env = some (.string text) →
        execAll env body =
          some ((x, .string (keyAt path text v)) :: env) := by
  cases path with
  | none =>
      rw [Emission.bindKey]
      · apply Emission.yields_pure
        intro s env d v text _ _ hdefault
        rw [execAll_singleton, Stmt.exec, hdefault]
        rfl
      · intro _ _ h
        cases h
  | some p =>
      cases instance_ with
      | none => cases hnone rfl
      | some inst =>
          apply Emission.yields_bind
          apply Emission.yields_mono
            (Value.yields_follow (hcross p rfl) (hfails p rfl) inst)
          intro leaf hleaf
          apply Emission.yields_pure
          intro s env d v text hinst hreads hdefault
          rw [execAll, Stmt.exec, hdefault, Option.map_some, Option.bind_some]
          exact exec_assignment hfound hleaf
            ((hinst inst rfl).cons hx (.string text)) (hreads p rfl)

end AccessChecks
