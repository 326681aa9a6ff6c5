import AccessChecks.AccessPath
import AccessChecks.Code.Data
import AccessChecks.Code.Name

/-!
# Reading data along segments

## Hops

A hop to one value reads a field, and a hop through a collection reads each of its
elements in turn.  An optional value that is absent has no fields and no elements.

## What segments reach

Segments without a collection reach at most one value.  Other segments are cut at
their first collection, and from each of its elements the rest goes on.

## Data that a path fits

A path can be read on data that has every field on the way, in the form that its
hop takes it to have.
-/

namespace AccessChecks

namespace Segment

theorem hop_of_not_crosses {s : Segment} (h : s.crossesCollection = false) :
    s.hop = .field ∨ s.hop = .optional := by
  rw [crossesCollection] at h
  cases hhop : s.hop with
  | field => exact Or.inl rfl
  | optional => exact Or.inr rfl
  | repeated => simp [hhop, Hop.crossesCollection] at h
  | mapped => simp [hhop, Hop.crossesCollection] at h

theorem hop_of_crosses {s : Segment} (h : s.crossesCollection = true) :
    s.hop = .repeated ∨ s.hop = .mapped := by
  rw [crossesCollection] at h
  cases hhop : s.hop with
  | field => simp [hhop, Hop.crossesCollection] at h
  | optional => simp [hhop, Hop.crossesCollection] at h
  | repeated => exact Or.inl rfl
  | mapped => exact Or.inr rfl

end Segment

namespace Data

def member? (name : String) (d : Data) : Option Data :=
  match Name.ofField name with
  | .ok x => d.field? x
  | .error _ => none

def present? : Data → Option Data
  | present d => some d
  | _ => none

def behind (s : Segment) (d : Data) : Option Data :=
  (d.member? s.name).bind fun w =>
    if s.hop.isNullable then w.present? else some w

def elements (s : Segment) (d : Data) : List Data :=
  match s.hop, d.member? s.name with
  | .mapped, some (.map entries) => entries.map Prod.snd
  | .repeated, some (.list items) => items
  | _, _ => []

theorem member?_of_ofField {name x : String} (d : Data)
    (h : Name.ofField name = .ok x) : d.member? name = d.field? x := by
  rw [member?, h]

end Data

namespace Reading

def valueAt : List Segment → Option Data → Option Data
  | [], v => v
  | s :: rest, v => valueAt rest (v.bind (Data.behind s))

/-- What segments reach from a value, one after the other.  An absent value has
no elements, but without a collection it is reached as it is. -/
def reached : List Segment → Option Data → List (Option Data)
  | [], v => [v]
  | s :: rest, v =>
      if s.crossesCollection then
        (v.toList.flatMap (Data.elements s)).flatMap fun d =>
          reached rest (some d)
      else reached rest (v.bind (Data.behind s))

@[simp] theorem valueAt_none (segments : List Segment) :
    valueAt segments none = none := by
  induction segments with
  | nil => rfl
  | cons s rest ih => exact ih

theorem reached_eq_singleton {segments : List Segment}
    (h : segments.any Segment.crossesCollection = false) (v : Option Data) :
    reached segments v = [valueAt segments v] := by
  induction segments generalizing v with
  | nil => rfl
  | cons s rest ih =>
      rw [List.any_cons, Bool.or_eq_false_iff] at h
      rw [reached, h.1]
      exact ih h.2 (v.bind (Data.behind s))

theorem reached_cut {front rest : List Segment} {s : Segment}
    (hfront : front.any Segment.crossesCollection = false)
    (hs : s.crossesCollection = true) (v : Option Data) :
    reached (front ++ s :: rest) v =
      match valueAt front v with
      | none => []
      | some d => (d.elements s).flatMap fun e => reached rest (some e) := by
  induction front generalizing v with
  | nil =>
      rw [List.nil_append, reached, if_pos hs]
      cases v with
      | none => rfl
      | some d => simp [valueAt]
  | cons first others ih =>
      rw [List.any_cons, Bool.or_eq_false_iff] at hfront
      rw [List.cons_append, reached, hfront.1]
      exact ih hfront.2 (v.bind (Data.behind first))

end Reading

/-!
## Fitting data
-/

namespace Hop

/-- A field value has the form that the hop takes it to have, with `P` for the
value or the elements behind it. -/
def Fits (P : Data → Prop) : Hop → Data → Prop
  | field, w => P w
  | optional, w => w = .absent ∨ ∃ d, w = .present d ∧ P d
  | repeated, w => ∃ items, w = .list items ∧ ∀ d ∈ items, P d
  | mapped, w => ∃ entries, w = .map entries ∧ ∀ e ∈ entries, P e.2

theorem Fits.mono {P Q : Data → Prop} (h : ∀ d, P d → Q d) {hop : Hop}
    {w : Data} (fits : hop.Fits P w) : hop.Fits Q w := by
  cases hop with
  | field => exact h w fits
  | optional =>
      rcases fits with rfl | ⟨d, rfl, hd⟩
      · exact Or.inl rfl
      · exact Or.inr ⟨d, rfl, h d hd⟩
  | repeated =>
      rcases fits with ⟨items, rfl, hitems⟩
      exact ⟨items, rfl, fun d hd => h d (hitems d hd)⟩
  | mapped =>
      rcases fits with ⟨entries, rfl, hentries⟩
      exact ⟨entries, rfl, fun e he => h e.2 (hentries e he)⟩

end Hop

namespace Reading

/-- Segments can be read on the data, and `P` holds at their end. -/
def Fits (P : Data → Prop) : List Segment → Data → Prop
  | [], d => P d
  | s :: rest, d =>
      ∀ x, Name.ofField s.name = .ok x →
        ∃ w, d.field? x = some w ∧ s.hop.Fits (Fits P rest) w

theorem fits_behind {P : Data → Prop} {s : Segment} {rest : List Segment}
    {d e : Data} (hs : s.crossesCollection = false)
    (h : Fits P (s :: rest) d) (he : d.behind s = some e) : Fits P rest e := by
  rw [Data.behind, Data.member?] at he
  cases hx : Name.ofField s.name with
  | error err =>
      rw [hx] at he
      cases he
  | ok x =>
      rcases h x hx with ⟨w, hw, hfits⟩
      rw [hx] at he
      simp only [hw, Option.bind_some] at he
      rcases Segment.hop_of_not_crosses hs with hhop | hhop
      · rw [hhop] at he hfits
        cases he
        exact hfits
      · rw [hhop] at he hfits
        rcases hfits with rfl | ⟨content, rfl, hcontent⟩
        · cases he
        · cases he
          exact hcontent

theorem fits_elements {P : Data → Prop} {s : Segment} {rest : List Segment}
    {d e : Data} (hs : s.crossesCollection = true)
    (h : Fits P (s :: rest) d) (he : e ∈ d.elements s) : Fits P rest e := by
  rw [Data.elements, Data.member?] at he
  cases hx : Name.ofField s.name with
  | error err =>
      rw [hx] at he
      cases hhop : s.hop <;> rw [hhop] at he <;> cases he
  | ok x =>
      rcases h x hx with ⟨w, hw, hfits⟩
      rw [hx] at he
      simp only [hw] at he
      rcases Segment.hop_of_crosses hs with hhop | hhop
      · rw [hhop] at he hfits
        rcases hfits with ⟨items, rfl, hitems⟩
        exact hitems e he
      · rw [hhop] at he hfits
        rcases hfits with ⟨entries, rfl, hentries⟩
        rcases List.mem_map.mp he with ⟨entry, hentry, rfl⟩
        exact hentries entry hentry

theorem Fits.mono {P Q : Data → Prop} (h : ∀ d, P d → Q d) {segments : List Segment}
    {d : Data} (fits : Fits P segments d) : Fits Q segments d := by
  induction segments generalizing d with
  | nil => exact h d fits
  | cons s rest ih =>
      intro x hx
      rcases fits x hx with ⟨w, hw, hfits⟩
      exact ⟨w, hw, hfits.mono fun e he => ih he⟩

theorem fits_of_mem_reached {P : Data → Prop} {segments : List Segment}
    {v w : Option Data} (h : ∀ d ∈ v, Fits P segments d)
    (hw : w ∈ reached segments v) : ∀ d ∈ w, P d := by
  induction segments generalizing v with
  | nil =>
      rw [reached, List.mem_singleton] at hw
      rw [hw]
      exact h
  | cons s rest ih =>
      rw [reached] at hw
      split at hw
      · rename_i hs
        rcases List.mem_flatMap.mp hw with ⟨e, he, hreached⟩
        rcases List.mem_flatMap.mp he with ⟨d, hd, helement⟩
        apply ih _ hreached
        intro f hf
        rw [← Option.some.inj hf]
        exact fits_elements hs (h d (Option.mem_toList.mp hd)) helement
      · rename_i hs
        apply ih _ hw
        intro e he
        rcases Option.bind_eq_some_iff.mp he with ⟨d, hd, hbehind⟩
        exact fits_behind (by simpa using hs) (h d hd) hbehind

end Reading

end AccessChecks
