import AccessChecks.Proofs.EmittedConversions
import AccessChecks.Proofs.FiniteRequests

/-!
# Attributes that are maps

## Texts of keys

Two keys of one scalar type with the same text are the same key.

## Maps in key order

Entries under distinct keys are all kept, and they make the same map in any order.

## Conversion

The attribute value of a map has an entry for each entry of the map, under the text of its
key.  It does not depend on the order in which the map is gone over.
-/

namespace AccessChecks

/-!
## Texts of keys
-/

namespace ScalarData

theorem eq_of_text?_eq {t : Scalar} {v w : ScalarData} (hv : t.holds v = true)
    (hw : t.holds w = true) (hkey : v.isMapKey = true) (h : v.text? = w.text?) :
    v = w := by
  -- each type of keys has texts of its own kind, which are told apart there
  cases t with
  | bool =>
      cases v with
      | bool b =>
          cases w with
          | bool c =>
              -- the texts of the two truth values differ
              cases b <;> cases c <;> simp [text?] at h ⊢
          | _ => cases hw
      | _ => cases hv
  | int32 =>
      cases v with
      | int32 i =>
          cases w with
          | int32 j =>
              have hint := Int.repr_injective (Option.some.inj h)
              rw [Int32.toInt_inj.mp hint]
          | _ => cases hw
      | _ => cases hv
  | int64 =>
      cases v with
      | int64 i =>
          cases w with
          | int64 j =>
              have hint := Int.repr_injective (Option.some.inj h)
              rw [Int64.toInt_inj.mp hint]
          | _ => cases hw
      | _ => cases hv
  | uint32 =>
      cases v with
      | uint32 n =>
          cases w with
          | uint32 k =>
              have hnat := Nat.repr_inj.mp (Option.some.inj h)
              rw [UInt32.toNat_inj.mp hnat]
          | _ => cases hw
      | _ => cases hv
  | uint64 =>
      cases v with
      | uint64 n =>
          cases w with
          | uint64 k =>
              have hnat := Nat.repr_inj.mp (Option.some.inj h)
              rw [UInt64.toNat_inj.mp hnat]
          | _ => cases hw
      | _ => cases hv
  | string =>
      cases v with
      | string a =>
          cases w with
          | string b => rw [Option.some.inj h]
          | _ => cases hw
      | _ => cases hv
  | float =>
      cases v with
      | float bits => cases hkey
      | _ => cases hv
  | double =>
      cases v with
      | double x => cases hkey
      | _ => cases hv
  | bytes =>
      cases v with
      | bytes bs => cases hkey
      | _ => cases hv

end ScalarData

/-!
## Maps in key order
-/

namespace Entries

variable {α : Type} {entries pairs others : List (String × α)}

theorem insert_perm_cons {key : String} {value : α} (fresh : key ∉ keys entries) :
    (insert entries key value).Perm ((key, value) :: entries) := by
  induction entries with
  | nil => exact List.Perm.refl _
  | cons e rest ih =>
      obtain ⟨k, v⟩ := e
      have hne : key ≠ k := fun heq => fresh (heq ▸ List.mem_cons_self)
      have hrest : key ∉ keys rest := fun hmem => fresh (List.mem_cons_of_mem k hmem)
      rw [insert, if_neg hne]
      split
      · exact List.Perm.refl _
      · exact ((ih hrest).cons _).trans (List.Perm.swap _ _ _)

theorem keys_perm (h : pairs.Perm others) : (keys pairs).Perm (keys others) :=
  h.map Prod.fst

theorem ofPairs_perm (distinct : (keys pairs).Nodup) : (ofPairs pairs).Perm pairs := by
  have hfold : ∀ (back front : List (String × α)), (keys (front ++ back)).Nodup →
      (back.foldl (fun entries pair => insert entries pair.1 pair.2) front).Perm
        (front ++ back) := by
    intro back
    induction back with
    | nil =>
        intro front _
        rw [List.foldl_nil, List.append_nil]
    | cons e rest ih =>
        intro front hnodup
        have hmiddle : (front ++ e :: rest).Perm (e :: front ++ rest) :=
          List.perm_middle
        have hnodup' := (keys_perm hmiddle).nodup hnodup
        have hfresh : e.1 ∉ keys front := by
          intro hmem
          apply (List.nodup_cons.mp hnodup').1
          change e.1 ∈ keys (front ++ rest)
          rw [keys, List.map_append]
          exact List.mem_append_left _ hmem
        have hinsert : (insert front e.1 e.2).Perm (e :: front) :=
          insert_perm_cons hfresh
        rw [List.foldl_cons]
        refine (ih (insert front e.1 e.2) ?_).trans ?_
        · exact (keys_perm (hinsert.append_right rest)).symm.nodup hnodup'
        · exact (hinsert.append_right rest).trans hmiddle.symm
  exact hfold pairs [] distinct

theorem ofPairs_eq_of_perm (distinct : (keys pairs).Nodup) (h : pairs.Perm others) :
    ofPairs pairs = ofPairs others := by
  have hothers : (keys others).Nodup := (keys_perm h).nodup distinct
  have hordered : ∀ l : List (String × α),
      (ofPairs l).Pairwise fun a b => a.1 < b.1 := by
    intro l
    exact List.pairwise_map.mp (pairwise_keys_ofPairs l)
  apply List.Perm.eq_of_pairwise _ (hordered pairs) (hordered others)
  · exact (ofPairs_perm distinct).trans (h.trans (ofPairs_perm hothers).symm)
  · intro a b _ _ hab hba
    exact absurd (String.lt_trans hab hba) (String.lt_irrefl _)

theorem get?_of_mem {key : String} {value : α} (distinct : (keys entries).Nodup)
    (h : (key, value) ∈ entries) : get? entries key = some value := by
  induction entries with
  | nil => cases h
  | cons e rest ih =>
      obtain ⟨k, v⟩ := e
      have hnodup := List.nodup_cons.mp distinct
      rw [get?]
      rcases List.mem_cons.mp h with hhead | htail
      · cases hhead
        rw [if_pos rfl]
      · have hne : k ≠ key := by
          intro heq
          have hkey : key ∈ keys rest := List.mem_map_of_mem (f := Prod.fst) htail
          exact hnodup.1 (heq ▸ hkey)
        rw [if_neg hne]
        exact ih hnodup.2 htail

end Entries

/-!
## Conversion
-/

/-- The entries of a map from a scalar to a kind, in the order in which it is gone over. -/
structure Schema.HoldsEntries (s : Schema) (key : Scalar) (kind : Kind)
    (entries : List (ScalarData × Data)) : Prop where
  distinct : (entries.map Prod.fst).Nodup
  keys : ∀ e ∈ entries, key.holds e.1 = true ∧ e.1.isMapKey = true
  values : ∀ e ∈ entries, s.Holds kind e.2

/-- The attributes are the entries of a map: each is under the text of its key, with the
attribute value that the kind gives its value. -/
structure Kind.KeepsEntries (kind : Kind) (entries : List (ScalarData × Data))
    (built : Attributes) : Prop where
  length : built.length = entries.length
  ordered : (Entries.keys built).Pairwise (· < ·)
  entry : ∀ e ∈ entries, ∃ text a, e.1.text? = some text ∧
    kind.attribute? e.2 = some a ∧ Entries.get? built text = some a
  only : ∀ name ∈ Entries.keys built, ∃ e ∈ entries, e.1.text? = some name

section

variable {s : Schema} {key : Scalar} {kind : Kind} {entries others : List (ScalarData × Data)}
  {pairs : List (String × AttributeValue)}

theorem Schema.HoldsField.holdsEntries {f : Field} (htype : f.type = .map key kind)
    (h : s.HoldsField f (.map entries)) : s.HoldsEntries key kind entries := by
  cases h with
  | plain hsingle => rw [htype] at hsingle; cases hsingle
  | map hmap distinct keys values =>
      rw [htype] at hmap
      cases hmap
      exact ⟨distinct, keys, values⟩

theorem Schema.HoldsEntries.of_perm (h : s.HoldsEntries key kind entries)
    (hperm : entries.Perm others) : s.HoldsEntries key kind others :=
  { distinct := (hperm.map Prod.fst).nodup h.distinct
    keys := fun e he => h.keys e (hperm.mem_iff.mpr he)
    values := fun e he => h.values e (hperm.mem_iff.mpr he) }

theorem attributeEntry?_eq_some_iff {e : ScalarData × Data} {pair : String × AttributeValue} :
    kind.attributeEntry? e = some pair ↔
      e.1.text? = some pair.1 ∧ kind.attribute? e.2 = some pair.2 := by
  obtain ⟨text, a⟩ := pair
  simp only [Kind.attributeEntry?, Option.bind_eq_some_iff, Option.map_eq_some_iff,
    Prod.mk.injEq]
  constructor
  · rintro ⟨_, htext, _, ha, rfl, rfl⟩
    exact ⟨htext, ha⟩
  · rintro ⟨htext, ha⟩
    exact ⟨text, htext, a, ha, rfl, rfl⟩

theorem nodup_keys_of_mapM (h : s.HoldsEntries key kind entries)
    (hpairs : entries.mapM kind.attributeEntry? = some pairs) :
    (Entries.keys pairs).Nodup := by
  have htexts : pairs.map (fun pair => some pair.1) = entries.map fun e => e.1.text? :=
    map_eq_of_mapM hpairs fun e pair hpair =>
      (attributeEntry?_eq_some_iff.mp hpair).1.symm
  have hnodup : (entries.map fun e => e.1.text?).Nodup := by
    have hkeys : (entries.map fun e => e.1.text?) =
        (entries.map Prod.fst).map ScalarData.text? := by
      rw [List.map_map]
      rfl
    rw [hkeys]
    apply List.Nodup.map_on _ h.distinct
    intro v hv w hw heq
    rcases List.mem_map.mp hv with ⟨e, he, rfl⟩
    rcases List.mem_map.mp hw with ⟨f, hf, rfl⟩
    exact ScalarData.eq_of_text?_eq (h.keys e he).1 (h.keys f hf).1 (h.keys e he).2 heq
  rw [← htexts] at hnodup
  apply List.Nodup.of_map some
  rw [Entries.keys, List.map_map]
  exact hnodup

theorem exists_mapM_attributeEntry? (hkind : kind.message? = none)
    (h : s.HoldsEntries key kind entries) :
    ∃ pairs, entries.mapM kind.attributeEntry? = some pairs := by
  apply Option.isSome_iff_exists.mp
  apply isSome_mapM
  intro e he
  exact isSome_attributeEntry_of_holds hkind (h.keys e he).2 (h.values e he)

theorem keepsEntries_ofPairs (distinct : (Entries.keys pairs).Nodup)
    (hpairs : entries.mapM kind.attributeEntry? = some pairs) :
    kind.KeepsEntries entries (Entries.ofPairs pairs) := by
  have hperm := Entries.ofPairs_perm distinct
  constructor
  · rw [hperm.length_eq, (forall₂_of_mapM hpairs).length_eq]
  · exact Entries.pairwise_keys_ofPairs pairs
  · intro e he
    rcases exists_result_of_mapM hpairs e he with ⟨⟨text, a⟩, hpair, hentry⟩
    rcases attributeEntry?_eq_some_iff.mp hentry with ⟨htext, ha⟩
    exact ⟨text, a, htext, ha, Entries.get?_of_mem (Entries.pairwise_keys_ofPairs pairs).nodup
      (hperm.mem_iff.mpr hpair)⟩
  · intro name hname
    rcases List.mem_map.mp hname with ⟨pair, hpair, rfl⟩
    rcases exists_of_mem_mapM hpairs pair (hperm.mem_iff.mp hpair) with
      ⟨e, he, hentry⟩
    exact ⟨e, he, (attributeEntry?_eq_some_iff.mp hentry).1⟩

theorem attribute?_map_eq_of_perm (h : s.HoldsEntries key kind entries)
    (hperm : entries.Perm others) :
    (FieldType.map key kind).attribute? (.map entries) =
      (FieldType.map key kind).attribute? (.map others) := by
  rw [FieldType.attribute?, FieldType.attribute?]
  rcases mapM_perm (f := kind.attributeEntry?) hperm with
    ⟨hnone, hnone'⟩ | ⟨pairs, pairs', hpairs, hpairs', hpermPairs⟩
  · rw [hnone, hnone']
  · rw [hpairs, hpairs', Option.map_some, Option.map_some,
      Entries.ofPairs_eq_of_perm (nodup_keys_of_mapM h hpairs) hpermPairs]

/-- The conversion of a map field builds one attribute value for all orders in which the
map can be gone over, and it has the entries of the map and no others. -/
theorem convert_map_keeps_entries {f : Field} (htype : f.type = .map key kind)
    (hkind : kind.message? = none) (value : Value) :
    ∃ e, value.convert f.type = some e ∧
      ∀ entries, s.HoldsField f (.map entries) →
        ∃ built, kind.KeepsEntries entries built ∧
          ∀ env others, entries.Perm others →
            value.expr.eval env = some (.map others) →
            e.eval env = some (.value (.map built)) := by
  have hsome : (value.convert f.type).isSome = true := by
    rw [Value.isSome_convert, htype, FieldType.isAttributeType,
      FieldType.messageTarget, FieldType.valueKind, hkind]
    rfl
  rcases Option.isSome_iff_exists.mp hsome with ⟨e, he⟩
  refine ⟨e, he, ?_⟩
  intro entries hfield
  have hentries := hfield.holdsEntries htype
  rcases exists_mapM_attributeEntry? hkind hentries with ⟨pairs, hpairs⟩
  have hattribute : (FieldType.map key kind).attribute? (.map entries) =
      some (.map (Entries.ofPairs pairs)) := by
    rw [FieldType.attribute?, hpairs]
    rfl
  refine ⟨Entries.ofPairs pairs,
    keepsEntries_ofPairs (nodup_keys_of_mapM hentries hpairs) hpairs, ?_⟩
  intro env others hperm heval
  have hothers := hentries.of_perm hperm
  rw [htype] at he
  rw [Value.eval_convert_map
      (fun entry hentry => (hothers.keys entry hentry).2) hothers.values hkind heval he,
    ← attribute?_map_eq_of_perm hentries hperm, hattribute]
  rfl

end

/-!
## A map of levels
-/

namespace Sample

def levels : Field :=
  { name := "levels", type := .map .int32 (.enum "Level") }

def levelEntries : List (ScalarData × Data) :=
  [(.int32 (-1), .scalar (.int32 3)), (.int32 10, .scalar (.int32 0))]

def levelsBackwards : Environment :=
  [("levels", .map levelEntries.reverse)]

theorem holdsField_levels : ({} : Schema).HoldsField levels (.map levelEntries) := by
  refine Schema.HoldsField.map rfl (by decide) (by decide) ?_
  intro e he
  rcases List.mem_pair.mp he with rfl | rfl
  · exact Schema.Holds.enum
  · exact Schema.Holds.enum

end Sample

theorem convert_levels_keeps_entries :
    ∃ e, (Value.ref (.name "levels")).convert Sample.levels.type = some e ∧
      (Kind.enum "Level").KeepsEntries Sample.levelEntries
        [("-1", .int 3), ("10", .int 0)] ∧
      e.eval Sample.levelsBackwards =
        some (.value (.map [("-1", .int 3), ("10", .int 0)])) := by
  have htype : Sample.levels.type = .map .int32 (.enum "Level") := rfl
  rcases convert_map_keeps_entries (s := {}) htype rfl (.ref (.name "levels")) with
    ⟨e, he, hkeeps⟩
  rcases hkeeps Sample.levelEntries Sample.holdsField_levels with ⟨built, hbuilt, heval⟩
  have hbackwards := heval Sample.levelsBackwards Sample.levelEntries.reverse
    (List.reverse_perm _).symm rfl
  have hvalue : e.eval Sample.levelsBackwards =
      some (.value (.map [("-1", .int 3), ("10", .int 0)])) := by
    cases he
    rfl
  rw [hvalue] at hbackwards
  cases hbackwards
  exact ⟨e, he, hbuilt, hvalue⟩

end AccessChecks
