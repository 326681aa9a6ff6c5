import AccessChecks.Proofs.ConvertedLists
import AccessChecks.Proofs.DiscoveredPaths

/-!
# Requests with maps in other orders

## Data up to order

Two values are the same up to order if one is the other with the entries of its maps in
other orders, at every level.  Lists keep their order.

## Reading

What a path reads off two values that are the same up to order is the same up to order,
and in the same order unless the path goes through a map.
-/

namespace AccessChecks

open Reading

/-!
## Lists up to order
-/

/-- The items of the first list, in some order, are related to those of the second one. -/
def UpToOrder {α β : Type} (R : α → β → Prop) (l : List α) (m : List β) : Prop :=
  ∃ between, l.Perm between ∧ List.Forall₂ R between m

namespace UpToOrder

section

variable {α β γ δ : Type} {R : α → β → Prop} {S : γ → δ → Prop} {l : List α} {m : List β}

theorem of_forall₂ (h : List.Forall₂ R l m) : UpToOrder R l m :=
  ⟨l, List.Perm.refl l, h⟩

theorem append {l' : List α} {m' : List β} (h : UpToOrder R l m)
    (h' : UpToOrder R l' m') : UpToOrder R (l ++ l') (m ++ m') := by
  rcases h with ⟨between, hperm, hall⟩
  rcases h' with ⟨between', hperm', hall'⟩
  exact ⟨between ++ between', hperm.append hperm', List.rel_append hall hall'⟩

theorem and_left {P : α → Prop} (h : UpToOrder R l m) (hl : ∀ a ∈ l, P a) :
    UpToOrder (fun a b => P a ∧ R a b) l m := by
  rcases h with ⟨between, hperm, hall⟩
  refine ⟨between, hperm, (List.forall₂_and_left _ _).mpr ⟨?_, hall⟩⟩
  intro a ha
  exact hl a (hperm.mem_iff.mpr ha)

theorem flatMap {f : α → List γ} {g : β → List δ} (h : UpToOrder R l m)
    (hfg : ∀ a b, R a b → UpToOrder S (f a) (g b)) :
    UpToOrder S (l.flatMap f) (m.flatMap g) := by
  rcases h with ⟨between, hperm, hall⟩
  have hbetween : UpToOrder S (between.flatMap f) (m.flatMap g) := by
    clear hperm
    induction hall with
    | nil => exact of_forall₂ List.Forall₂.nil
    | cons hab _ ih =>
        rw [List.flatMap_cons, List.flatMap_cons]
        exact (hfg _ _ hab).append ih
  rcases hbetween with ⟨results, hresults, hrelated⟩
  exact ⟨results, (hperm.flatMap_right f).trans hresults, hrelated⟩

theorem map_perm {f : α → γ} {g : β → γ} (h : UpToOrder R l m)
    (hfg : ∀ a b, R a b → f a = g b) : (l.map f).Perm (m.map g) := by
  rcases h with ⟨between, hperm, hall⟩
  have hmap : between.map f = m.map g := by
    rw [← List.forall₂_eq_eq_eq, List.forall₂_map_left_iff, List.forall₂_map_right_iff]
    exact hall.imp hfg
  rw [← hmap]
  exact hperm.map f

theorem flatMap_perm {f : α → List γ} {g : β → List γ} (h : UpToOrder R l m)
    (hfg : ∀ a b, R a b → (f a).Perm (g b)) : (l.flatMap f).Perm (m.flatMap g) := by
  have hresults : UpToOrder (· = ·) (l.flatMap f) (m.flatMap g) :=
    h.flatMap fun a b hab =>
      ⟨g b, hfg a b hab, List.forall₂_same.mpr fun _ _ => rfl⟩
  rcases hresults with ⟨between, hperm, hall⟩
  rw [List.forall₂_eq_eq_eq] at hall
  rw [← hall]
  exact hperm

end

end UpToOrder

/-!
## Data up to order
-/

inductive OnValues {κ : Type} (R : Data → Data → Prop) : κ × Data → κ × Data → Prop where
  | intro (key : κ) {d e : Data} : R d e → OnValues R (key, d) (key, e)

namespace Data

/-- The second value is the first one with its maps gone over in other orders. -/
inductive SameUpToOrder : Data → Data → Prop where
  | same (d : Data) : SameUpToOrder d d
  | present {d e : Data} : SameUpToOrder d e → SameUpToOrder (.present d) (.present e)
  | list {items others : List Data} :
      List.Forall₂ SameUpToOrder items others → SameUpToOrder (.list items) (.list others)
  | message {fields others : List (String × Data)} :
      List.Forall₂ (OnValues SameUpToOrder) fields others →
      SameUpToOrder (.message fields) (.message others)
  | map {entries between others : List (ScalarData × Data)} :
      entries.Perm between → List.Forall₂ (OnValues SameUpToOrder) between others →
      SameUpToOrder (.map entries) (.map others)

namespace SameUpToOrder

theorem rel_refl (v : Option Data) : Option.Rel SameUpToOrder v v := by
  cases v with
  | none => exact Option.Rel.none
  | some d => exact Option.Rel.some (same d)

theorem lookup {fields others : List (String × Data)}
    (h : List.Forall₂ (OnValues SameUpToOrder) fields others) (x : String) :
    Option.Rel SameUpToOrder (fields.lookup x) (others.lookup x) := by
  induction h with
  | nil => exact Option.Rel.none
  | cons hentry _ ih =>
      cases hentry with
      | intro key hvalue =>
          rw [List.lookup_cons, List.lookup_cons]
          cases x == key with
          | true => exact Option.Rel.some hvalue
          | false => exact ih

theorem field? {d e : Data} (h : SameUpToOrder d e) (x : String) :
    Option.Rel SameUpToOrder (d.field? x) (e.field? x) := by
  cases h with
  | same => exact rel_refl _
  | message hfields => exact lookup hfields x
  | _ => exact Option.Rel.none

theorem member? {d e : Data} (h : SameUpToOrder d e) (name : String) :
    Option.Rel SameUpToOrder (d.member? name) (e.member? name) := by
  rw [Data.member?, Data.member?]
  cases Name.ofField name with
  | ok x => exact h.field? x
  | error _ => exact Option.Rel.none

theorem present? {d e : Data} (h : SameUpToOrder d e) :
    Option.Rel SameUpToOrder d.present? e.present? := by
  cases h with
  | same => exact rel_refl _
  | present hcontent => exact Option.Rel.some hcontent
  | _ => exact Option.Rel.none

theorem rel_bind {v w : Option Data} {f : Data → Option Data}
    (h : Option.Rel SameUpToOrder v w)
    (hf : ∀ d e, SameUpToOrder d e → Option.Rel SameUpToOrder (f d) (f e)) :
    Option.Rel SameUpToOrder (v.bind f) (w.bind f) := by
  cases h with
  | none => exact Option.Rel.none
  | some hde => exact hf _ _ hde

theorem behind {d e : Data} (h : SameUpToOrder d e) (s : Segment) :
    Option.Rel SameUpToOrder (d.behind s) (e.behind s) := by
  rw [Data.behind, Data.behind]
  apply rel_bind (h.member? s.name)
  intro w w' hw
  split
  · exact hw.present?
  · exact Option.Rel.some hw

theorem valueAt {v w : Option Data} (h : Option.Rel SameUpToOrder v w)
    (segments : List Segment) :
    Option.Rel SameUpToOrder (Reading.valueAt segments v)
      (Reading.valueAt segments w) := by
  induction segments generalizing v w with
  | nil => exact h
  | cons s rest ih => exact ih (rel_bind h fun d e hde => hde.behind s)

theorem values_of_forall₂ {entries others : List (ScalarData × Data)}
    (h : List.Forall₂ (OnValues SameUpToOrder) entries others) :
    List.Forall₂ SameUpToOrder (entries.map Prod.snd) (others.map Prod.snd) := by
  rw [List.forall₂_map_left_iff, List.forall₂_map_right_iff]
  apply h.imp
  rintro _ _ ⟨_, hvalue⟩
  exact hvalue

theorem forall₂_refl (items : List Data) : List.Forall₂ SameUpToOrder items items :=
  List.forall₂_same.mpr fun d _ => same d

theorem elements_of_unmapped {d e : Data} (h : SameUpToOrder d e) {s : Segment}
    (hs : s.hop ≠ .mapped) :
    List.Forall₂ SameUpToOrder (d.elements s) (e.elements s) := by
  have hmember := h.member? s.name
  rw [Data.elements, Data.elements]
  cases hhop : s.hop with
  | mapped => exact absurd hhop hs
  | repeated =>
      generalize d.member? s.name = v, e.member? s.name = w at hmember
      cases hmember with
      | none => exact List.Forall₂.nil
      | some hvalue =>
          cases hvalue with
          | same => exact forall₂_refl _
          | list hitems => exact hitems
          | _ => exact List.Forall₂.nil
  | _ => exact List.Forall₂.nil

theorem elements {d e : Data} (h : SameUpToOrder d e) (s : Segment) :
    UpToOrder SameUpToOrder (d.elements s) (e.elements s) := by
  by_cases hs : s.hop = .mapped
  · have hmember := h.member? s.name
    rw [Data.elements, Data.elements, hs]
    generalize d.member? s.name = v, e.member? s.name = w at hmember
    cases hmember with
    | none => exact UpToOrder.of_forall₂ List.Forall₂.nil
    | some hvalue =>
        cases hvalue with
        | same => exact UpToOrder.of_forall₂ (forall₂_refl _)
        | map hperm hvalues => exact ⟨_, hperm.map Prod.snd, values_of_forall₂ hvalues⟩
        | _ => exact UpToOrder.of_forall₂ List.Forall₂.nil
  · exact UpToOrder.of_forall₂ (h.elements_of_unmapped hs)

theorem toList {v w : Option Data} (h : Option.Rel SameUpToOrder v w) :
    List.Forall₂ SameUpToOrder v.toList w.toList := by
  cases h with
  | none => exact List.Forall₂.nil
  | some hde => exact List.Forall₂.cons hde List.Forall₂.nil

theorem reached {v w : Option Data} (h : Option.Rel SameUpToOrder v w)
    (segments : List Segment) :
    UpToOrder (Option.Rel SameUpToOrder) (Reading.reached segments v)
      (Reading.reached segments w) := by
  induction segments generalizing v w with
  | nil => exact UpToOrder.of_forall₂ (List.Forall₂.cons h List.Forall₂.nil)
  | cons s rest ih =>
      rw [Reading.reached, Reading.reached]
      split
      · have helements := (UpToOrder.of_forall₂ (toList h)).flatMap
          fun d e hde => hde.elements s
        exact helements.flatMap fun d e hde => ih (Option.Rel.some hde)
      · exact ih (rel_bind h fun d e hde => hde.behind s)

theorem reached_of_unmapped {v w : Option Data} (h : Option.Rel SameUpToOrder v w)
    {segments : List Segment} (unmapped : ∀ s ∈ segments, s.hop ≠ .mapped) :
    List.Forall₂ (Option.Rel SameUpToOrder) (Reading.reached segments v)
      (Reading.reached segments w) := by
  induction segments generalizing v w with
  | nil => exact List.Forall₂.cons h List.Forall₂.nil
  | cons s rest ih =>
      have hrest := fun t ht => unmapped t (List.mem_cons_of_mem s ht)
      rw [Reading.reached, Reading.reached]
      split
      · have helements := List.rel_flatMap (toList h) fun d e hde =>
          elements_of_unmapped hde (unmapped s List.mem_cons_self)
        exact List.rel_flatMap helements fun d e hde => ih (Option.Rel.some hde) hrest
      · exact ih (rel_bind h fun d e hde => hde.behind s) hrest

end SameUpToOrder

end Data

/-!
## Values of a schema
-/

namespace Schema

mutual

theorem Holds.of_sameUpToOrder {s : Schema} {kind : Kind} {d e : Data} :
    s.Holds kind d → d.SameUpToOrder e → s.Holds kind e
  | .scalar hv, h => by
      cases h
      exact .scalar hv
  | .enum, h => by
      cases h
      exact .enum
  | .unknown hnone, _ => .unknown hnone
  | .message content hfound hlookup hholds, h => by
      cases h with
      | same => exact .message content hfound hlookup hholds
      | @message _ others hfields =>
          apply holds_of_holdsMessage hfound
          intro f hf x hx
          have hrel := Data.SameUpToOrder.lookup hfields x
          rw [hlookup f hf x hx] at hrel
          change ∃ w, others.lookup x = some w ∧ s.HoldsField f w
          cases hw : others.lookup x with
          | none =>
              rw [hw] at hrel
              cases hrel
          | some w =>
              rw [hw] at hrel
              cases hrel with
              | some hvalue =>
                  exact ⟨w, rfl, HoldsField.of_sameUpToOrder (hholds f hf x hx) hvalue⟩

theorem HoldsField.of_sameUpToOrder {s : Schema} {f : Field} {d e : Data} :
    s.HoldsField f d → d.SameUpToOrder e → s.HoldsField f e
  | .plain htype hpresence hd, h =>
      .plain htype hpresence (Holds.of_sameUpToOrder hd h)
  | .absent htype hpresence, h => by
      cases h
      exact .absent htype hpresence
  | .present htype hpresence hd, h => by
      cases h with
      | same => exact .present htype hpresence hd
      | present hcontent =>
          exact .present htype hpresence (Holds.of_sameUpToOrder hd hcontent)
  | .list htype hitems, h => by
      cases h with
      | same => exact .list htype hitems
      | list hothers =>
          refine .list htype ?_
          intro e he
          rcases exists_left_of_forall₂ hothers e he with ⟨d, hd, hde⟩
          exact Holds.of_sameUpToOrder (hitems d hd) hde
  | .map htype distinct hkeys hvalues, h => by
      cases h with
      | same => exact .map htype distinct hkeys hvalues
      | @map _ between others hperm hothers =>
          have hkeysEq : between.map Prod.fst = others.map Prod.fst := by
            rw [← List.forall₂_eq_eq_eq, List.forall₂_map_left_iff,
              List.forall₂_map_right_iff]
            apply hothers.imp
            rintro _ _ ⟨_, _⟩
            rfl
          refine .map htype ?_ ?_ ?_
          · rw [← hkeysEq]
            exact (hperm.map Prod.fst).nodup distinct
          · intro e he
            rcases exists_left_of_forall₂ hothers e he with ⟨_, hd, _, _⟩
            have hkey := hkeys _ (hperm.mem_iff.mpr hd)
            exact hkey
          · intro e he
            rcases exists_left_of_forall₂ hothers e he with ⟨_, hd, _, hvalue⟩
            exact Holds.of_sameUpToOrder (hvalues _ (hperm.mem_iff.mpr hd)) hvalue

end

end Schema

end AccessChecks
