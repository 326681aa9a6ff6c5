import Mathlib.Data.List.Flatten
import Mathlib.Data.List.Nodup
import Mathlib.Data.List.Perm.Basic
import AccessChecks.Descriptor.Consistency
import AccessChecks.Proofs.ConvertedLists

/-!
# Pools in another order

## Lists in another order

A search finds the same in a list and in a permutation of it if at most one item passes
the test.

## Declared names

In a pool without a name that is declared twice every name stands for one declaration.
So each lookup by a full name is a search that at most one declaration passes.

## Lookups

Pools of the same files in another order have the same lookups by name, if no name is
declared twice.  They are alike if besides no message has two extensions with one number.
-/

namespace AccessChecks

/-!
## Lists in another order
-/

section

variable {α β κ : Type} {l l' : List α}

theorem find?_eq_some_of_unique {p : α → Bool} {a : α} (ha : a ∈ l) (hp : p a = true)
    (unique : ∀ b ∈ l, p b = true → b = a) : l.find? p = some a := by
  cases hfound : l.find? p with
  | none =>
      have hnone := List.find?_eq_none.mp hfound a ha
      exact absurd hp hnone
  | some b =>
      rw [unique b (List.mem_of_find?_eq_some hfound) (List.find?_some hfound)]

theorem find?_eq_of_perm {p : α → Bool} (h : l.Perm l')
    (unique : ∀ a ∈ l, ∀ b ∈ l, p a = true → p b = true → a = b) :
    l.find? p = l'.find? p := by
  cases hfound : l.find? p with
  | none =>
      symm
      rw [List.find?_eq_none]
      intro a ha
      exact List.find?_eq_none.mp hfound a (h.mem_iff.mpr ha)
  | some a =>
      have ha := List.mem_of_find?_eq_some hfound
      have hp := List.find?_some hfound
      symm
      apply find?_eq_some_of_unique (h.mem_iff.mp ha) hp
      intro b hb hpb
      exact unique b (h.mem_iff.mpr hb) a ha hpb hp

theorem find?_key_eq_of_perm [BEq κ] [LawfulBEq κ] {key : α → κ} (h : l.Perm l')
    (distinct : (l.map key).Nodup) (k : κ) :
    (l.find? fun a => key a == k) = l'.find? fun a => key a == k := by
  apply find?_eq_of_perm h
  intro a ha b hb hka hkb
  apply List.inj_on_of_nodup_map distinct ha hb
  rw [eq_of_beq hka, eq_of_beq hkb]

theorem lookup_eq_find? [BEq κ] [LawfulBEq κ] (l : List (κ × β)) (k : κ) :
    l.lookup k = (l.find? fun entry => entry.1 == k).map Prod.snd := by
  induction l with
  | nil => rfl
  | cons entry rest ih =>
      rcases entry with ⟨key, value⟩
      rw [List.lookup_cons, List.find?_cons, BEq.comm]
      cases key == k with
      | true => rfl
      | false => exact ih

theorem sublist_map_filterMap {f : α → Option β} {key : α → κ} {key' : β → κ}
    (h : ∀ a ∈ l, ∀ b, f a = some b → key' b = key a) :
    ((l.filterMap f).map key').Sublist (l.map key) := by
  induction l with
  | nil => exact List.Sublist.slnil
  | cons a rest ih =>
      have hrest := ih fun b hb => h b (List.mem_cons_of_mem a hb)
      rw [List.map_cons]
      cases hfa : f a with
      | none =>
          rw [List.filterMap_cons_none hfa]
          exact hrest.cons _
      | some b =>
          rw [List.filterMap_cons_some hfa, List.map_cons, h a List.mem_cons_self b hfa]
          exact hrest.cons_cons _

theorem sublist_map_flatMap {f : α → List β} {key : α → κ} {key' : β → κ}
    (h : ∀ a, [key a].Sublist ((f a).map key')) :
    (l.map key).Sublist ((l.flatMap f).map key') := by
  induction l with
  | nil => exact List.Sublist.slnil
  | cons a rest ih =>
      rw [List.map_cons, List.flatMap_cons, List.map_append]
      exact (h a).append ih

end

namespace Descriptor

/-!
## Declared names
-/

def otherNames (names : List DeclaredName) : List String :=
  (names.filter fun d => d.kind != .package).map DeclaredName.name

theorem nodup_otherNames {names : List DeclaredName} (h : namesAgree names = true) :
    (otherNames names).Nodup := by
  rw [namesAgree, Bool.and_eq_true, isDistinct_iff_nodup] at h
  exact h.1

namespace FileDecl

def heads (f : FileDecl) : List String :=
  f.messages.map f.messageName ++ f.enums.map f.enumName ++ f.extensions.map f.extensionName

def otherEntries (entries : List (String × NameKind)) : List String :=
  (entries.filter fun entry => entry.2 != .package).map Prod.fst

theorem otherEntries_append (left right : List (String × NameKind)) :
    otherEntries (left ++ right) = otherEntries left ++ otherEntries right := by
  unfold otherEntries
  rw [List.filter_append, List.map_append]

theorem sublist_otherEntries_flatMap {α : Type} {l : List α} {key : α → String}
    {entries : α → List (String × NameKind)} {kind : NameKind} (hkind : kind ≠ .package)
    (h : ∀ a, ∃ rest, entries a = (key a, kind) :: rest) :
    (l.map key).Sublist (otherEntries (l.flatMap entries)) := by
  unfold otherEntries
  rw [List.filter_flatMap]
  apply sublist_map_flatMap
  intro a
  rcases h a with ⟨rest, hentries⟩
  rw [hentries, List.filter_cons_of_pos (by simpa using hkind), List.map_cons]
  exact (List.nil_sublist _).cons_cons _

theorem heads_sublist (f : FileDecl) : f.heads.Sublist (otherNames f.declaredNames) := by
  have hentries : otherNames f.declaredNames = otherEntries
      ((f.packageNames.map fun name => (name, NameKind.package)) ++
        f.messages.flatMap f.messageNames ++ f.enums.flatMap f.enumNames ++
        (f.extensions.map fun e => (f.extensionName e, NameKind.extension)) ++
        f.services.flatMap f.serviceNames) := by
    unfold otherNames otherEntries declaredNames
    rw [List.filter_map, List.map_map]
    rfl
  have hextensions : otherEntries
      (f.extensions.map fun e => (f.extensionName e, NameKind.extension)) =
        f.extensions.map f.extensionName := by
    unfold otherEntries
    rw [List.filter_map, List.map_map]
    exact congrArg (List.map f.extensionName) (List.filter_eq_self.mpr fun _ _ => rfl)
  have hmessages : (f.messages.map f.messageName).Sublist
      (otherEntries (f.messages.flatMap f.messageNames)) :=
    sublist_otherEntries_flatMap (by decide) fun m => ⟨_, rfl⟩
  have henums : (f.enums.map f.enumName).Sublist
      (otherEntries (f.enums.flatMap f.enumNames)) :=
    sublist_otherEntries_flatMap (by decide) fun e => ⟨_, rfl⟩
  rw [hentries, otherEntries_append, otherEntries_append, otherEntries_append,
    otherEntries_append, hextensions]
  unfold heads
  apply List.Sublist.trans _ (List.sublist_append_left _ _)
  apply List.Sublist.append _ (List.Sublist.refl _)
  apply List.Sublist.append _ henums
  exact hmessages.trans (List.sublist_append_right _ _)

end FileDecl

theorem nodup_heads {files : List FileDecl} (h : namesAgree (namesOf files) = true) :
    (files.flatMap FileDecl.heads).Nodup := by
  have hother : otherNames (namesOf files) =
      files.flatMap fun f => otherNames f.declaredNames := by
    unfold otherNames namesOf
    rw [List.filter_flatMap, List.map_flatMap]
  have hnodup := nodup_otherNames h
  rw [hother] at hnodup
  exact hnodup.sublist (List.Sublist.flatMap_right files fun f _ => f.heads_sublist)

/-!
## Lookups by full names
-/

def placedMessages (files : List FileDecl) : List (FileDecl × MessageDecl) :=
  files.flatMap fun f => f.messages.map fun m => (f, m)

namespace Pool

theorem message?_eq (p : Pool) (fullName : String) :
    p.message? fullName =
      (placedMessages p.files).find? fun placed =>
        placed.1.messageName placed.2 == fullName := by
  unfold message? placedMessages
  rw [List.find?_flatMap]
  congr 1
  funext f
  rw [List.find?_map]
  rfl

end Pool

section

variable {files files' : List FileDecl}

theorem nodup_placedMessages (h : namesAgree (namesOf files) = true) :
    ((placedMessages files).map fun placed => placed.1.messageName placed.2).Nodup := by
  apply List.Nodup.sublist _ (nodup_heads h)
  unfold placedMessages
  rw [List.map_flatMap]
  apply List.Sublist.flatMap_right
  intro f _
  rw [List.map_map]
  unfold FileDecl.heads
  rw [List.append_assoc]
  exact List.sublist_append_left _ _

variable {names names' : List DeclaredName} {visible visible' : List String}
  {fits : NameKind → Bool}

end

/-!
## Lookups
-/

def PlacedExtension.place (e : PlacedExtension) : String × Nat :=
  (e.target, e.decl.field.number)

/-- Files and other names are told apart. -/
structure Pool.NamesApart (p : Pool) : Prop where
  fileNames : (p.files.map FileDecl.name).Nodup
  names : namesAgree p.names = true

def Pool.PlacesApart (p : Pool) : Prop :=
  (p.extensions.map PlacedExtension.place).Nodup

/-- Two pools of the same files, with the same lookups by name. -/
structure Pool.Reordered (p q : Pool) : Prop where
  files : p.files.Perm q.files
  extensions : p.extensions.Perm q.extensions
  file? : p.file? = q.file?
  message? : p.message? = q.message?
  enum? : p.enum? = q.enum?
  extension? : p.extension? = q.extension?
  resolve? : ∀ f (fits : NameKind → Bool) scope name, fits .package = false →
    p.resolve? f fits scope name = q.resolve? f fits scope name

/-- Lookups by number give the same as well. -/
structure Pool.Alike (p q : Pool) : Prop extends Pool.Reordered p q where
  places : p.PlacesApart

namespace Pool

namespace Reordered

variable {p q : Pool}

theorem resolveMessage? (h : p.Reordered q) : p.resolveMessage? = q.resolveMessage? := by
  funext f scope name
  unfold Pool.resolveMessage?
  rw [h.resolve? f (· == .message) scope name rfl]

theorem kindOf? (h : p.Reordered q) : p.kindOf? = q.kindOf? := by
  funext f scope d
  have hresolve : ∀ name, p.resolve? f NameKind.isType scope name =
      q.resolve? f NameKind.isType scope name :=
    fun name => h.resolve? f NameKind.isType scope name rfl
  unfold Pool.kindOf?
  simp only [hresolve]

theorem extensionsOf_perm (h : p.Reordered q) (fullName : String) :
    (p.extensionsOf fullName).Perm (q.extensionsOf fullName) :=
  h.extensions.filter _

end Reordered

theorem nodup_extensionsOf {p : Pool} (apart : p.PlacesApart) (fullName : String) :
    ((p.extensionsOf fullName).map fun e => e.decl.field.number).Nodup := by
  have hplaces : ((p.extensionsOf fullName).map PlacedExtension.place).Nodup :=
    List.Nodup.sublist ((List.filter_sublist).map PlacedExtension.place) apart
  apply List.Nodup.of_map fun number => (fullName, number)
  rw [List.map_map]
  have heq : (p.extensionsOf fullName).map PlacedExtension.place =
      (p.extensionsOf fullName).map
        ((fun number => (fullName, number)) ∘ fun e => e.decl.field.number) := by
    apply List.map_congr_left
    intro e he
    have htarget := eq_of_beq (List.mem_filter.mp he).2
    show (e.target, e.decl.field.number) = (fullName, e.decl.field.number)
    rw [htarget]
  rw [← heq]
  exact hplaces

end Pool

end Descriptor

end AccessChecks
