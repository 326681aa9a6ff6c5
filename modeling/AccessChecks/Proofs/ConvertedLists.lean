import Mathlib.Data.List.Forall2
import Mathlib.Data.List.Perm.Basic

/-!
# Lists that are converted element by element

## Results

The conversion of a list has a value if that of each element has one, and it is the
list of their values.

## Elements

Each element of the result is the value of an element of the list, in the same order.  A
list in another order is converted to the results in another order.
-/

namespace AccessChecks

variable {α β γ : Type}

theorem mapM_map_of_forall {f : α → β} {g : β → Option γ} {k : α → γ}
    {l : List α} (h : ∀ a ∈ l, g (f a) = some (k a)) :
    (l.map f).mapM g = some (l.map k) := by
  induction l with
  | nil => rfl
  | cons a rest ih =>
      rw [List.map_cons, List.mapM_cons, h a List.mem_cons_self,
        ih fun b hb => h b (List.mem_cons_of_mem a hb)]
      rfl

theorem mapM_map_inverse {f : α → β} {g : β → Option α}
    (h : ∀ a, g (f a) = some a) (l : List α) :
    (l.map f).mapM g = some l := by
  rw [mapM_map_of_forall (k := id) fun a _ => h a, List.map_id]

theorem mapM_map_result {f : α → Option β} {g : α → Option γ} {k : β → γ}
    {l : List α} (h : ∀ a ∈ l, g a = (f a).map k) :
    l.mapM g = (l.mapM f).map (List.map k) := by
  induction l with
  | nil => rfl
  | cons a rest ih =>
      rw [List.mapM_cons, List.mapM_cons, h a List.mem_cons_self,
        ih fun b hb => h b (List.mem_cons_of_mem a hb)]
      cases f a with
      | none => rfl
      | some b => cases rest.mapM f <;> rfl

theorem isSome_mapM {f : α → Option β} {l : List α}
    (h : ∀ a ∈ l, (f a).isSome = true) : (l.mapM f).isSome = true := by
  induction l with
  | nil => rfl
  | cons a rest ih =>
      rcases Option.isSome_iff_exists.mp (h a List.mem_cons_self) with ⟨b, hb⟩
      rcases Option.isSome_iff_exists.mp
        (ih fun c hc => h c (List.mem_cons_of_mem a hc)) with ⟨bs, hbs⟩
      rw [List.mapM_cons, hb, hbs]
      rfl

theorem forall₂_of_mapM {f : α → Option β} {l : List α} {m : List β}
    (h : l.mapM f = some m) : List.Forall₂ (fun a b => f a = some b) l m := by
  induction l generalizing m with
  | nil =>
      cases h
      exact List.Forall₂.nil
  | cons a rest ih =>
      rw [List.mapM_cons] at h
      rcases Option.bind_eq_some_iff.mp h with ⟨b, hb, hrest⟩
      rcases Option.bind_eq_some_iff.mp hrest with ⟨bs, hbs, heq⟩
      cases heq
      exact List.Forall₂.cons hb (ih hbs)

theorem exists_left_of_forall₂ {R : α → β → Prop} {l : List α} {m : List β}
    (h : List.Forall₂ R l m) : ∀ b ∈ m, ∃ a ∈ l, R a b := by
  induction h with
  | nil =>
      intro b hb
      cases hb
  | @cons a b _ _ hab _ ih =>
      intro c hc
      rcases List.mem_cons.mp hc with rfl | hc
      · exact ⟨a, List.mem_cons_self, hab⟩
      · rcases ih c hc with ⟨d, hd, hdc⟩
        exact ⟨d, List.mem_cons_of_mem a hd, hdc⟩

theorem exists_of_mem_mapM {f : α → Option β} {l : List α} {m : List β}
    (h : l.mapM f = some m) : ∀ b ∈ m, ∃ a ∈ l, f a = some b :=
  exists_left_of_forall₂ (forall₂_of_mapM h)

theorem exists_result_of_mapM {f : α → Option β} {l : List α} {m : List β}
    (h : l.mapM f = some m) : ∀ a ∈ l, ∃ b ∈ m, f a = some b :=
  exists_left_of_forall₂ (forall₂_of_mapM h).flip

theorem map_eq_of_mapM {f : α → Option β} {l : List α} {m : List β}
    (h : l.mapM f = some m) {g : α → γ} {g' : β → γ}
    (keeps : ∀ a b, f a = some b → g' b = g a) : m.map g' = l.map g := by
  induction l generalizing m with
  | nil =>
      cases h
      rfl
  | cons a rest ih =>
      rw [List.mapM_cons] at h
      rcases Option.bind_eq_some_iff.mp h with ⟨b, hb, hrest⟩
      rcases Option.bind_eq_some_iff.mp hrest with ⟨bs, hbs, heq⟩
      cases heq
      rw [List.map_cons, List.map_cons, keeps a b hb, ih hbs]

theorem mapM_eq_of_forall₂ {R : α → β → Prop} {f : α → Option γ} {g : β → Option γ}
    {l : List α} {m : List β} (h : List.Forall₂ R l m)
    (hfg : ∀ a b, R a b → f a = g b) : l.mapM f = m.mapM g := by
  induction h with
  | nil => rfl
  | cons hab _ ih => rw [List.mapM_cons, List.mapM_cons, hfg _ _ hab, ih]

theorem mapM_perm {f : α → Option β} {l l' : List α} (h : l.Perm l') :
    (l.mapM f = none ∧ l'.mapM f = none) ∨
      ∃ r r', l.mapM f = some r ∧ l'.mapM f = some r' ∧ r.Perm r' := by
  induction h with
  | nil => exact Or.inr ⟨[], [], rfl, rfl, List.Perm.nil⟩
  | @cons a l l' _ ih =>
      rw [List.mapM_cons, List.mapM_cons]
      cases f a with
      | none => exact Or.inl ⟨rfl, rfl⟩
      | some b =>
          rcases ih with ⟨hl, hl'⟩ | ⟨r, r', hr, hr', hperm⟩
          · rw [hl, hl']
            exact Or.inl ⟨rfl, rfl⟩
          · rw [hr, hr']
            exact Or.inr ⟨b :: r, b :: r', rfl, rfl, hperm.cons b⟩
  | swap a b l =>
      rw [List.mapM_cons, List.mapM_cons, List.mapM_cons, List.mapM_cons]
      cases f a with
      | none =>
          cases f b with
          | none => exact Or.inl ⟨rfl, rfl⟩
          | some d => exact Or.inl ⟨rfl, rfl⟩
      | some c =>
          cases f b with
          | none => exact Or.inl ⟨rfl, rfl⟩
          | some d =>
              cases l.mapM f with
              | none => exact Or.inl ⟨rfl, rfl⟩
              | some r =>
                  exact Or.inr ⟨d :: c :: r, c :: d :: r, rfl, rfl, List.Perm.swap c d r⟩
  | trans _ _ ih ih' =>
      rcases ih with ⟨hl, hm⟩ | ⟨r, r', hr, hr', hperm⟩
      · rcases ih' with ⟨_, hn⟩ | ⟨s, s', hs, _, _⟩
        · exact Or.inl ⟨hl, hn⟩
        · rw [hm] at hs
          cases hs
      · rcases ih' with ⟨hm, _⟩ | ⟨s, s', hs, hs', hperm'⟩
        · rw [hr'] at hm
          cases hm
        · cases hr'.symm.trans hs
          exact Or.inr ⟨r, s', hr, hs', hperm.trans hperm'⟩

end AccessChecks
