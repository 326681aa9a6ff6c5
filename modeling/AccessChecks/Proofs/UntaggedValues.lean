import AccessChecks.Check.Json
import AccessChecks.Proofs.ConvertedLists
import AccessChecks.Proofs.DoubleText
import AccessChecks.Proofs.JsonText

/-!
# Attribute values without tags

## Normal forms

A value is written without its form, so some forms are not told apart when it is
read.  An unsigned integer comes back signed where that is possible, a list of
integers that are bytes comes back as bytes, and a floating-point number comes back
as the number that its shortest decimal is read as.

## Reading back

A value with finite numbers and with maps in key order is read back in its normal
form, if it is not nested too deeply.
-/

namespace AccessChecks

namespace Double

def reread (x : Double) : Double :=
  match Json.Number.ofSpelling? (Json.doubleSpelling x) with
  | some (.float y) => y
  | _ => x

theorem ofSpelling?_eq_reread {x : Double} (h : x.isFinite = true) :
    Json.Number.ofSpelling? (Json.doubleSpelling x) =
      some (.float x.reread) := by
  rcases Json.exists_ofSpelling?_double h with ⟨y, hy⟩
  rw [reread, hy]

end Double

namespace AttributeValue

mutual

def normal : AttributeValue → AttributeValue
  | bool b => bool b
  | int i => int i
  | uint n => ofNumber (.unsigned n)
  | float x => float x.reread
  | string s => string s
  | bytes bs => bytes bs
  | list items => ofItems (normalAll items)
  | map entries => map (normalEntries entries)

def normalAll : List AttributeValue → List AttributeValue
  | [] => []
  | v :: rest => v.normal :: normalAll rest

def normalEntries :
    List (String × AttributeValue) → List (String × AttributeValue)
  | [] => []
  | (name, v) :: rest => (name, v.normal) :: normalEntries rest

end

theorem normalAll_eq_map (items : List AttributeValue) :
    normalAll items = items.map normal := by
  induction items with
  | nil => rfl
  | cons v rest ih => rw [normalAll, ih, List.map_cons]

theorem normalEntries_eq_map (entries : List (String × AttributeValue)) :
    normalEntries entries = entries.map fun e => (e.1, e.2.normal) := by
  induction entries with
  | nil => rfl
  | cons e rest ih => rw [normalEntries, ih, List.map_cons]

/-- The value has finite numbers and maps in key order, and is nested at most to a
depth. -/
inductive Serializes : Nat → AttributeValue → Prop where
  | bool {depth : Nat} (b : Bool) : Serializes depth (.bool b)
  | int {depth : Nat} (i : Int64) : Serializes depth (.int i)
  | uint {depth : Nat} (n : UInt64) : Serializes depth (.uint n)
  | float {depth : Nat} {x : Double} :
      x.isFinite = true → Serializes depth (.float x)
  | string {depth : Nat} (s : String) : Serializes depth (.string s)
  | bytes {depth : Nat} (bs : List UInt8) : Serializes (depth + 1) (.bytes bs)
  | list {depth : Nat} {items : List AttributeValue} :
      (∀ v ∈ items, Serializes depth v) → Serializes (depth + 1) (.list items)
  | map {depth : Nat} {entries : Attributes} :
      (Entries.keys entries).Pairwise (· < ·) →
      (∀ e ∈ entries, Serializes depth e.2) →
      Serializes (depth + 1) (.map entries)

end AttributeValue

/-!
## Lists and entries
-/

namespace Entries

variable {α : Type}

theorem insert_of_keys_lt {entries : Entries α} {key : String} {value : α}
    (h : ∀ k ∈ keys entries, k < key) :
    insert entries key value = entries ++ [(key, value)] := by
  induction entries with
  | nil => rfl
  | cons e rest ih =>
      obtain ⟨k, v⟩ := e
      have hlt : k < key := h k List.mem_cons_self
      have hne : key ≠ k := by
        intro heq
        rw [heq] at hlt
        exact Std.lt_irrefl hlt
      have hnot : ¬ key < k := fun hgt => Std.lt_irrefl (String.lt_trans hlt hgt)
      rw [insert, if_neg hne, if_neg hnot,
        ih fun other hother => h other (List.mem_cons_of_mem k hother),
        List.cons_append]

theorem ofPairs_of_pairwise {entries : Entries α}
    (h : (keys entries).Pairwise (· < ·)) : ofPairs entries = entries := by
  have hfold : ∀ (back front : Entries α),
      (keys (front ++ back)).Pairwise (· < ·) →
        back.foldl (fun entries pair => insert entries pair.1 pair.2) front =
          front ++ back := by
    intro back
    induction back with
    | nil =>
        intro front _
        rw [List.foldl_nil, List.append_nil]
    | cons e rest ih =>
        intro front hsorted
        have hlt : ∀ k ∈ keys front, k < e.1 := by
          rw [keys, List.map_append, List.pairwise_append] at hsorted
          intro k hk
          exact hsorted.2.2 k hk e.1 List.mem_cons_self
        have hsplit : front ++ e :: rest = (front ++ [e]) ++ rest := by
          rw [List.append_assoc, List.singleton_append]
        rw [hsplit] at hsorted ⊢
        rw [List.foldl_cons, insert_of_keys_lt hlt]
        exact ih (front ++ [e]) hsorted
  exact hfold entries [] h

theorem keys_map_value {β : Type} (f : α → β) (entries : Entries α) :
    keys (entries.map fun e => (e.1, f e.2)) = keys entries := by
  rw [keys, List.map_map]
  rfl

end Entries

namespace AttributeValue

theorem toJsonAll_eq_map (items : List AttributeValue) :
    toJsonAll items = items.map toJson := by
  induction items with
  | nil => rfl
  | cons v rest ih => rw [toJsonAll, ih, List.map_cons]

theorem toJsonEntries_eq_map (entries : List (String × AttributeValue)) :
    toJsonEntries entries =
      entries.map fun e => (Json.spell e.1.toList, e.2.toJson) := by
  induction entries with
  | nil => rfl
  | cons e rest ih => rw [toJsonEntries, ih, List.map_cons]

/-!
## Written values
-/

theorem isWritten_ofNat (n : Nat) : (Json.ofNat n).IsWritten := by
  rw [Json.ofNat, Json.naturalSpelling_eq]
  exact Json.IsWritten.number (Json.wellFormed_integerParts false n)

theorem isWritten_ofInt (i : Int) : (Json.ofInt i).IsWritten := by
  rw [Json.ofInt, Json.integerSpelling_eq]
  exact Json.IsWritten.number (Json.wellFormed_integerParts _ _)

theorem isWritten_ofDouble (x : Double) : (Json.ofDouble x).IsWritten := by
  rw [Json.ofDouble]
  split
  · rw [← Json.spelling_doubleParts]
    exact Json.IsWritten.number (Json.wellFormed_doubleParts x)
  · exact Json.IsWritten.null

theorem isWritten_toJson {depth : Nat} {v : AttributeValue}
    (h : v.Serializes depth) : v.toJson.IsWritten := by
  induction h with
  | bool b => exact Json.IsWritten.bool b
  | int i => exact isWritten_ofInt i.toInt
  | uint n => exact isWritten_ofNat n.toNat
  | float hx => exact isWritten_ofDouble _
  | string s => exact Json.IsWritten.text s.toList
  | bytes bs =>
      rw [toJson]
      apply Json.IsWritten.array
      intro j hj
      rcases List.mem_map.mp hj with ⟨b, hb, rfl⟩
      exact isWritten_ofNat b.toNat
  | list hitems ih =>
      rw [toJson, toJsonAll_eq_map]
      apply Json.IsWritten.array
      intro j hj
      rcases List.mem_map.mp hj with ⟨v, hv, rfl⟩
      exact ih v hv
  | map hsorted hentries ih =>
      rw [toJson, toJsonEntries_eq_map]
      apply Json.IsWritten.object
      · intro m hm
        rcases List.mem_map.mp hm with ⟨e, he, rfl⟩
        exact ⟨e.1.toList, rfl⟩
      · intro m hm
        rcases List.mem_map.mp hm with ⟨e, he, rfl⟩
        exact ih e he

/-!
## Read values
-/

theorem ofJson?_ofNat (depth : Nat) (n : UInt64) :
    ofJson? depth (Json.ofNat n.toNat) = some (ofNumber (.unsigned n)) := by
  rw [Json.ofNat, ofJson?, Json.ofSpelling?_natural]
  rfl

theorem ofJson?_ofInt (depth : Nat) (i : Int64) :
    ofJson? depth (Json.ofInt i.toInt) = some (int i) := by
  rw [Json.ofInt, ofJson?]
  rcases Int.lt_or_le i.toInt 0 with hneg | hpos
  · rw [Json.ofSpelling?_negative hneg]
    rfl
  · have hlt : i.toInt < 2 ^ 63 := i.toInt_lt
    have hmod : i.toInt.natAbs % 2 ^ 64 = i.toInt.natAbs := by omega
    have hsmall : i.toInt.natAbs < Nat.pow 2 63 := by
      have hpow : Nat.pow 2 63 = 2 ^ 63 := rfl
      omega
    rw [Json.ofSpelling?_nonnegative hpos, Option.map_some, ofNumber,
      UInt64.toNat_ofNat', hmod, if_pos hsmall, Int.natAbs_of_nonneg hpos,
      Int64.ofInt_toInt]

theorem ofJson?_byte (depth : Nat) (b : UInt8) :
    ofJson? depth (Json.ofNat b.toNat) = some (int (Int64.ofInt b.toNat)) := by
  have hb : b.toNat < 256 := b.toNat_lt
  have hword : (UInt64.ofNat b.toNat).toNat = b.toNat := by
    rw [UInt64.toNat_ofNat']
    omega
  have hsmall : b.toNat < Nat.pow 2 63 := by
    have hpow : Nat.pow 2 63 = 2 ^ 63 := rfl
    omega
  have hread := ofJson?_ofNat depth (UInt64.ofNat b.toNat)
  rw [ofNumber, hword, if_pos hsmall] at hread
  exact hread

theorem asByte?_byte (b : UInt8) :
    asByte? (int (Int64.ofInt b.toNat)) = some b := by
  have hb : b.toNat < 256 := b.toNat_lt
  have hvalue : (Int64.ofInt (b.toNat : Int)).toInt = b.toNat :=
    Int64.toInt_ofInt_of_le (by omega) (by omega)
  have hrange : (decide (0 ≤ (b.toNat : Int)) &&
      decide ((b.toNat : Int) ≤ 255)) = true := by
    rw [Bool.and_eq_true, decide_eq_true_iff, decide_eq_true_iff]
    omega
  rw [asByte?, hvalue, if_pos hrange, Int.toNat_natCast, UInt8.ofNat_toNat]

theorem ofJsonAll?_map {α : Type} {depth : Nat} {f : α → Json}
    {g : α → AttributeValue} {l : List α}
    (h : ∀ a ∈ l, ofJson? depth (f a) = some (g a)) :
    ofJsonAll? depth (l.map f) = some (l.map g) := by
  induction l with
  | nil => rw [List.map_nil, ofJsonAll?, List.map_nil]
  | cons a rest ih =>
      rw [List.map_cons, ofJsonAll?, h a List.mem_cons_self,
        ih fun b hb => h b (List.mem_cons_of_mem a hb), List.map_cons]

theorem ofJsonMembers?_map {depth : Nat} {g : AttributeValue → AttributeValue}
    {entries : List (String × AttributeValue)}
    (h : ∀ e ∈ entries, ofJson? depth e.2.toJson = some (g e.2)) :
    ofJsonMembers? depth
        (entries.map fun e => (Json.spell e.1.toList, e.2.toJson)) =
      some (entries.map fun e => (e.1, g e.2)) := by
  induction entries with
  | nil => rw [List.map_nil, ofJsonMembers?, List.map_nil]
  | cons e rest ih =>
      rw [List.map_cons, ofJsonMembers?, Json.unspell?_spell,
        h e List.mem_cons_self,
        ih fun other hother => h other (List.mem_cons_of_mem e hother)]
      dsimp only
      rw [String.ofList_toList, List.map_cons]

theorem ofItems_bytes (bs : List UInt8) :
    ofItems (bs.map fun b => int (Int64.ofInt b.toNat)) = bytes bs := by
  rw [ofItems, mapM_map_inverse asByte?_byte]

theorem ofJson?_toJson {depth : Nat} {v : AttributeValue}
    (h : v.Serializes depth) : ofJson? depth v.toJson = some v.normal := by
  induction h with
  | bool b => rw [toJson, ofJson?, normal]
  | int i => exact ofJson?_ofInt _ i
  | uint n => exact ofJson?_ofNat _ n
  | float hx =>
      rw [toJson, Json.ofDouble, if_pos hx, ofJson?,
        Double.ofSpelling?_eq_reread hx, normal]
      rfl
  | string s =>
      rw [toJson, Json.ofString, ofJson?, Json.unspell?_spell, Option.map_some,
        String.ofList_toList, normal]
  | bytes bs =>
      rw [toJson, ofJson?, if_neg (Nat.succ_ne_zero _), Nat.add_sub_cancel,
        ofJsonAll?_map fun b _ => ofJson?_byte _ b, Option.map_some,
        ofItems_bytes, normal]
  | list hitems ih =>
      rw [toJson, toJsonAll_eq_map, ofJson?, if_neg (Nat.succ_ne_zero _),
        Nat.add_sub_cancel, ofJsonAll?_map ih, Option.map_some, normal,
        normalAll_eq_map]
  | map hsorted hentries ih =>
      rw [toJson, toJsonEntries_eq_map, ofJson?, if_neg (Nat.succ_ne_zero _),
        Nat.add_sub_cancel, ofJsonMembers?_map ih, Option.map_some, normal,
        normalEntries_eq_map, Entries.ofPairs_of_pairwise]
      rw [Entries.keys_map_value]
      exact hsorted

end AttributeValue

end AccessChecks
