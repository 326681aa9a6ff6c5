import AccessChecks.Proofs.CodeTyping
import AccessChecks.Proofs.Emitting
import AccessChecks.Proofs.Execution

/-!
# Names that emission binds

## Issuing loop variables

Emission goes on from the number of loop variables that were issued before, and
issues none of these again.

## Free names

In a scope the names that code is going to bind are free, and so are all loop
variables that are not issued yet.  Binding one name leaves the others free.
-/

namespace AccessChecks

namespace Emission

variable {α β : Type} {issued : Nat}

/-- Once `issued` loop variables are issued, emission succeeds.  What is emitted
meets `P`, which may refer to the number of variables that are issued then. -/
def Emits (issued : Nat) (emission : Emission α) (P : Nat → α → Prop) :
    Prop :=
  ∃ a later, emission.run.run issued = (.ok a, later) ∧ issued ≤ later ∧
    P later a

theorem emits_pure {P : Nat → α → Prop} {a : α} (h : P issued a) :
    Emits issued (pure a) P :=
  ⟨a, issued, rfl, Nat.le_refl issued, h⟩

theorem emits_bind {P : Nat → β → Prop} {first : Emission α}
    {next : α → Emission β}
    (h : Emits issued first fun mid a => Emits mid (next a) P) :
    Emits issued (first >>= next) P := by
  rcases h with ⟨a, mid, hfirst, hmid, b, later, hnext, hlater, hb⟩
  refine ⟨b, later, ?_, Nat.le_trans hmid hlater, hb⟩
  change (ExceptT.bindCont next (first.run.run issued).1)
    (first.run.run issued).2 = _
  rw [hfirst]
  exact hnext

theorem emits_mono {P Q : Nat → α → Prop} {emission : Emission α}
    (h : Emits issued emission P)
    (himp : ∀ later a, issued ≤ later → P later a → Q later a) :
    Emits issued emission Q := by
  rcases h with ⟨a, later, hrun, hle, ha⟩
  exact ⟨a, later, hrun, hle, himp later a hle ha⟩

theorem emits_map {P : Nat → β → Prop} {emission : Emission α} {f : α → β}
    (h : Emits issued emission fun later a => P later (f a)) :
    Emits issued (do return f (← emission)) P :=
  emits_bind (emits_mono h fun _ _ _ ha => emits_pure ha)

theorem emits_mapM {f : α → Emission β} {P : β → Prop} {l : List α}
    (h : ∀ a ∈ l, ∀ later, issued ≤ later → Emits later (f a) fun _ => P) :
    Emits issued (l.mapM f) fun _ results => ∀ b ∈ results, P b := by
  induction l generalizing issued with
  | nil =>
      rw [List.mapM_nil]
      apply emits_pure
      intro b hb
      cases hb
  | cons a rest ih =>
      rw [List.mapM_cons]
      apply emits_bind
      apply emits_mono (h a List.mem_cons_self issued (Nat.le_refl issued))
      intro mid b hmid hb
      apply emits_bind
      apply emits_mono
        (ih fun c hc later hlater =>
          h c (List.mem_cons_of_mem a hc) later (Nat.le_trans hmid hlater))
      intro later bs _ hbs
      apply emits_pure
      intro c hc
      rcases List.mem_cons.mp hc with rfl | hrest
      · exact hb
      · exact hbs c hrest

theorem emits_fieldName {name x : String} (h : Name.ofField name = .ok x) :
    Emits issued (fieldName name) fun _ y => y = x := by
  rw [fieldName, h]
  exact emits_pure rfl

theorem emits_nextLoop :
    Emits issued nextLoop fun later x =>
      later = issued + 1 ∧ x = Name.ofLoop later :=
  ⟨Name.ofLoop (issued + 1), issued + 1, rfl, Nat.le_succ issued, rfl, rfl⟩

end Emission

/-!
## Free names
-/

namespace Name

theorem eq_of_ofLoop_eq {m n : Nat} (h : ofLoop m = ofLoop n) : m = n := by
  have hlist := congrArg String.toList h
  rw [toList_ofLoop, toList_ofLoop, List.cons.injEq] at hlist
  have hvalue := congrArg (fun l => Nat.ofDigitChars 10 l 0) hlist.2
  rwa [Nat.ofDigitChars_ten_toDigits, Nat.ofDigitChars_ten_toDigits] at hvalue

def isPlain (x : String) : Bool :=
  !x.toList[1]?.any Char.isDigit

theorem ofLoop_ne_of_isPlain (number : Nat) {x : String}
    (h : isPlain x = true) : ofLoop number ≠ x :=
  ofLoop_ne number (by simpa [isPlain] using h)

end Name

namespace Scope

theorem ne_of_fresh {Γ : Scope} {x y : String} {v : Variable}
    (hx : Γ.Fresh x) (hy : Γ.lookup y = some v) : x ≠ y := by
  rintro rfl
  rw [Fresh, hy] at hx
  cases hx

theorem lookup_cons_of_fresh {Γ : Scope} {x y : String} {v w : Variable}
    (hx : Γ.Fresh x) (hy : Γ.lookup y = some v) :
    List.lookup y ((x, w) :: Γ) = some v := by
  rw [Environment.lookup_cons_ne (ne_of_fresh hx hy), hy]

/-- The names in `unbound`, none of them that of a loop variable, are free, and so are
the loop variables that are not issued. -/
structure Free (Γ : Scope) (unbound : List String) (issued : Nat) : Prop where
  names : ∀ x ∈ unbound, Γ.Fresh x
  plain : ∀ x ∈ unbound, Name.isPlain x = true
  loops : ∀ number, issued < number → Γ.Fresh (Name.ofLoop number)

variable {Γ : Scope} {unbound : List String} {issued : Nat}

theorem Free.mono (h : Γ.Free unbound issued) {names : List String}
    (hnames : ∀ x ∈ names, x ∈ unbound) {later : Nat} (hle : issued ≤ later) :
    Γ.Free names later :=
  { names := fun x hx => h.names x (hnames x hx)
    plain := fun x hx => h.plain x (hnames x hx)
    loops := fun number hlt => h.loops number (Nat.lt_of_le_of_lt hle hlt) }

theorem Free.cons (h : Γ.Free unbound issued) {x : String}
    (hx : Name.isPlain x = true) (v : Variable) (names : List String)
    (hnames : ∀ y ∈ names, y ∈ unbound ∧ x ≠ y) :
    Free ((x, v) :: Γ) names issued :=
  { names := by
      intro y hy
      rw [Fresh, Environment.lookup_cons_ne (hnames y hy).2]
      exact h.names y (hnames y hy).1
    plain := fun y hy => h.plain y (hnames y hy).1
    loops := by
      intro number hlt
      rw [Fresh, Environment.lookup_cons_ne
        (Ne.symm (Name.ofLoop_ne_of_isPlain number hx))]
      exact h.loops number hlt }

theorem Free.cons_ofLoop (h : Γ.Free unbound issued) (v : Variable) :
    Free ((Name.ofLoop (issued + 1), v) :: Γ) unbound (issued + 1) :=
  { names := by
      intro y hy
      rw [Fresh, Environment.lookup_cons_ne
        (Name.ofLoop_ne_of_isPlain _ (h.plain y hy))]
      exact h.names y hy
    plain := h.plain
    loops := by
      intro number hlt
      have hne : Name.ofLoop (issued + 1) ≠ Name.ofLoop number := by
        intro heq
        exact absurd (Name.eq_of_ofLoop_eq heq) (Nat.ne_of_lt hlt)
      rw [Fresh, Environment.lookup_cons_ne hne]
      exact h.loops number (Nat.lt_of_succ_lt hlt) }

def Extends (Γ Δ : Scope) : Prop :=
  ∀ x v, Γ.lookup x = some v → Δ.lookup x = some v

theorem Extends.refl (Γ : Scope) : Γ.Extends Γ :=
  fun _ _ h => h

theorem Extends.trans {Δ Ω : Scope} (h : Γ.Extends Δ) (h' : Δ.Extends Ω) :
    Γ.Extends Ω :=
  fun x v hx => h' x v (h x v hx)

theorem extends_cons {x : String} (hx : Γ.Fresh x) (v : Variable) :
    Γ.Extends ((x, v) :: Γ) :=
  fun _ _ hy => lookup_cons_of_fresh hx hy

end Scope

end AccessChecks
