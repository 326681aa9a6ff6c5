import AccessChecks.Proofs.UntaggedValues

/-!
# Normal forms without floating-point numbers

## Normal forms

What is read back from the text of a value is described on the values alone.  Small
unsigned integers become signed, lists of bytes become bytes, and lists and maps are
changed element by element.

## Texts

A value and its normal form have the same text, and a normal form is its own normal
form.
-/

namespace AccessChecks

namespace AttributeValue

def byte? : AttributeValue → Option UInt8
  | int i =>
      if 0 ≤ i.toInt && i.toInt ≤ 255 then some (UInt8.ofNat i.toInt.toNat)
      else none
  | uint n => if n.toNat ≤ 255 then some (UInt8.ofNat n.toNat) else none
  | _ => none

mutual

/-- The value with its integers signed where that is possible, and with bytes in the
place of every list of integers that are bytes. -/
def untagged : AttributeValue → AttributeValue
  | bool b => bool b
  | int i => int i
  | uint n =>
      if (n.toNat : Int) ≤ Int64.maxValue.toInt then int (Int64.ofInt n.toNat)
      else uint n
  | float x => float x
  | string s => string s
  | bytes bs => bytes bs
  | list items =>
      match items.mapM byte? with
      | some bs => bytes bs
      | none => list (untaggedAll items)
  | map entries => map (untaggedEntries entries)

def untaggedAll : List AttributeValue → List AttributeValue
  | [] => []
  | v :: rest => v.untagged :: untaggedAll rest

def untaggedEntries :
    List (String × AttributeValue) → List (String × AttributeValue)
  | [] => []
  | (name, v) :: rest => (name, v.untagged) :: untaggedEntries rest

end

theorem untaggedAll_eq_map (items : List AttributeValue) :
    untaggedAll items = items.map untagged := by
  induction items with
  | nil => rfl
  | cons v rest ih => rw [untaggedAll, ih, List.map_cons]

theorem untaggedEntries_eq_map (entries : List (String × AttributeValue)) :
    untaggedEntries entries = entries.map fun e => (e.1, e.2.untagged) := by
  induction entries with
  | nil => rfl
  | cons e rest ih => rw [untaggedEntries, ih, List.map_cons]

@[elab_as_elim]
theorem nested_induction {motive : AttributeValue → Prop}
    (bool : ∀ b, motive (bool b)) (int : ∀ i, motive (int i))
    (uint : ∀ n, motive (uint n)) (float : ∀ x, motive (float x))
    (string : ∀ s, motive (string s)) (bytes : ∀ bs, motive (bytes bs))
    (list : ∀ items, (∀ v ∈ items, motive v) → motive (list items))
    (map : ∀ entries, (∀ e ∈ entries, motive e.2) → motive (map entries))
    (v : AttributeValue) : motive v := by
  refine @AttributeValue.rec motive (fun items => ∀ v ∈ items, motive v)
    (fun entries => ∀ e ∈ entries, motive e.2) (fun e => motive e.2)
    bool int uint float string bytes list map ?_ ?_ ?_ ?_ ?_ v
  · exact List.forall_mem_nil _
  · exact fun v rest hv hrest => List.forall_mem_cons.mpr ⟨hv, hrest⟩
  · exact List.forall_mem_nil _
  · exact fun e rest he hrest => List.forall_mem_cons.mpr ⟨he, hrest⟩
  · exact fun _ _ hv => hv

/-- No floating-point number is a part of the value. -/
inductive HasNoFloat : AttributeValue → Prop where
  | bool (b : Bool) : HasNoFloat (.bool b)
  | int (i : Int64) : HasNoFloat (.int i)
  | uint (n : UInt64) : HasNoFloat (.uint n)
  | string (s : String) : HasNoFloat (.string s)
  | bytes (bs : List UInt8) : HasNoFloat (.bytes bs)
  | list {items : List AttributeValue} :
      (∀ v ∈ items, HasNoFloat v) → HasNoFloat (.list items)
  | map {entries : Attributes} :
      (∀ e ∈ entries, HasNoFloat e.2) → HasNoFloat (.map entries)

/-!
## Integers
-/

theorem untagged_uint (n : UInt64) : (uint n).untagged = ofNumber (.unsigned n) := by
  have hmax : Int64.maxValue.toInt = 2 ^ 63 - 1 := rfl
  have hpow : Nat.pow 2 63 = 2 ^ 63 := rfl
  rw [untagged, ofNumber, hmax, hpow]
  by_cases hsmall : n.toNat < 2 ^ 63
  · rw [if_pos hsmall, if_pos (by omega)]
  · rw [if_neg hsmall, if_neg (by omega)]

theorem toJson_untagged_uint (n : UInt64) : (uint n).untagged.toJson = (uint n).toJson := by
  have hmax : Int64.maxValue.toInt = 2 ^ 63 - 1 := rfl
  rw [untagged, hmax]
  split
  · next hsmall =>
      have hvalue : (Int64.ofInt (n.toNat : Int)).toInt = n.toNat :=
        Int64.toInt_ofInt_of_le (by omega) (by omega)
      rw [toJson, toJson, hvalue, Json.ofInt, Json.ofNat, Json.integerSpelling,
        if_neg (by omega), Int.natAbs_natCast]
      rfl
  · rfl

theorem toJson_of_byte? {v : AttributeValue} {b : UInt8} (h : v.byte? = some b) :
    v.toJson = Json.ofNat b.toNat := by
  cases v with
  | int i =>
      rw [byte?] at h
      split at h
      · next hrange =>
          rw [Bool.and_eq_true, decide_eq_true_iff, decide_eq_true_iff] at hrange
          cases h
          have hbyte : (UInt8.ofNat i.toInt.toNat).toNat = i.toInt.toNat := by
            rw [UInt8.toNat_ofNat']
            omega
          have habs : i.toInt.natAbs = i.toInt.toNat := by omega
          rw [toJson, hbyte, Json.ofInt, Json.ofNat, Json.integerSpelling,
            if_neg (by omega), habs]
          rfl
      · cases h
  | uint n =>
      rw [byte?] at h
      split at h
      · next hrange =>
          cases h
          have hbyte : (UInt8.ofNat n.toNat).toNat = n.toNat := by
            rw [UInt8.toNat_ofNat']
            omega
          rw [toJson, hbyte]
      · cases h
  | _ => cases h

theorem byte?_ofNumber (n : UInt64) : (ofNumber (.unsigned n)).byte? = (uint n).byte? := by
  have hpow : Nat.pow 2 63 = 2 ^ 63 := rfl
  rw [ofNumber, hpow]
  split
  · next hsmall =>
      have hvalue : (Int64.ofInt (n.toNat : Int)).toInt = n.toNat :=
        Int64.toInt_ofInt_of_le (by omega) (by omega)
      rw [byte?, byte?, hvalue, Int.toNat_natCast]
      by_cases hbyte : n.toNat ≤ 255
      · rw [if_pos hbyte, if_pos (by simp; omega)]
      · rw [if_neg hbyte, if_neg (by simp; omega)]
  · rfl

theorem asByte?_normal (v : AttributeValue) : asByte? v.normal = v.byte? := by
  cases v with
  | uint n =>
      have hpow : Nat.pow 2 63 = 2 ^ 63 := rfl
      rw [normal, ← byte?_ofNumber, ofNumber, hpow]
      split
      · rfl
      · next hlarge =>
          rw [byte?, if_neg (by omega)]
          rfl
  | list items =>
      rw [normal, ofItems]
      split
      · rfl
      · rfl
  | _ => rfl

theorem byte?_untagged (v : AttributeValue) : v.untagged.byte? = v.byte? := by
  cases v with
  | uint n => rw [untagged_uint, byte?_ofNumber]
  | list items =>
      rw [untagged]
      split
      · rfl
      · rfl
  | _ => rfl

/-!
## Normal forms
-/

theorem mapM_map_of_eq {f : AttributeValue → AttributeValue}
    {g : AttributeValue → Option UInt8} (h : ∀ v, g (f v) = v.byte?)
    (items : List AttributeValue) : (items.map f).mapM g = items.mapM byte? := by
  rw [List.mapM_map]
  exact congrArg (fun k => items.mapM k) (funext h)

theorem normal_eq_untagged {v : AttributeValue} (h : v.HasNoFloat) :
    v.normal = v.untagged := by
  induction h with
  | uint n => rw [normal, untagged_uint]
  | @list items _ ih =>
      rw [normal, untagged, ofItems, normalAll_eq_map, untaggedAll_eq_map,
        mapM_map_of_eq asByte?_normal]
      cases items.mapM byte? with
      | some bs => rfl
      | none => exact congrArg list (List.map_congr_left ih)
  | @map entries _ ih =>
      have hentries : ∀ e ∈ entries, (e.1, e.2.normal) = (e.1, e.2.untagged) := by
        intro e he
        rw [ih e he]
      rw [normal, untagged, normalEntries_eq_map, untaggedEntries_eq_map,
        List.map_congr_left hentries]
  | _ => rfl

theorem toJson_untagged (v : AttributeValue) : v.untagged.toJson = v.toJson := by
  induction v using nested_induction with
  | uint n => exact toJson_untagged_uint n
  | list items ih =>
      rw [untagged]
      split
      · next bs hbytes =>
          rw [toJson, toJson, toJsonAll_eq_map,
            map_eq_of_mapM hbytes fun v b hb => (toJson_of_byte? hb).symm]
      · rw [toJson, toJson, toJsonAll_eq_map, toJsonAll_eq_map, untaggedAll_eq_map,
          List.map_map]
        exact congrArg Json.array (List.map_congr_left ih)
  | map entries ih =>
      rw [untagged, toJson, toJson, toJsonEntries_eq_map, toJsonEntries_eq_map,
        untaggedEntries_eq_map, List.map_map]
      refine congrArg Json.object (List.map_congr_left fun e he => ?_)
      rw [Function.comp_apply, ih e he]
  | _ => rfl

theorem untagged_untagged (v : AttributeValue) : v.untagged.untagged = v.untagged := by
  induction v using nested_induction with
  | uint n =>
      rw [untagged]
      split
      · rfl
      · next hlarge => rw [untagged, if_neg hlarge]
  | list items ih =>
      rw [untagged]
      split
      · rfl
      · next hlist =>
          rw [untagged, untaggedAll_eq_map, mapM_map_of_eq byte?_untagged, hlist,
            untaggedAll_eq_map, List.map_map]
          exact congrArg list (List.map_congr_left ih)
  | map entries ih =>
      rw [untagged, untagged, untaggedEntries_eq_map, untaggedEntries_eq_map,
        List.map_map]
      refine congrArg map (List.map_congr_left fun e he => ?_)
      rw [Function.comp_apply, ih e he]
  | _ => rfl

/-!
## Texts
-/

def serialize (v : AttributeValue) : List Char :=
  v.toJson.write

def deserialize? (text : List Char) : Option AttributeValue :=
  (Json.read? text).bind (ofJson? depthLimit)

/-- The text of a value without floating-point numbers is read as its normal form.  The
normal form has the same text, and it is its own normal form. -/
theorem deserialize?_serialize_untagged {v : AttributeValue} (hfloat : v.HasNoFloat)
    (hdepth : v.Serializes depthLimit) :
    deserialize? v.serialize = some v.untagged ∧
      v.untagged.serialize = v.serialize ∧
      v.untagged.untagged = v.untagged := by
  refine ⟨?_, ?_, untagged_untagged v⟩
  · rw [deserialize?, serialize, Json.read?_write (isWritten_toJson hdepth),
      Option.bind_some, ofJson?_toJson hdepth, normal_eq_untagged hfloat]
  · rw [serialize, serialize, toJson_untagged]

end AttributeValue

/-!
## A map of lists
-/

namespace Sample

def counters : AttributeValue :=
  .map
    [("bytes", .list [.uint 255, .int 0]),
      ("empty", .list []),
      ("mixed", .list [.uint 256, .list [.int 7]]),
      ("signed", .uint 9223372036854775807),
      ("unsigned", .uint 9223372036854775808)]

def countersRead : AttributeValue :=
  .map
    [("bytes", .bytes [255, 0]),
      ("empty", .bytes []),
      ("mixed", .list [.int 256, .bytes [7]]),
      ("signed", .int 9223372036854775807),
      ("unsigned", .uint 9223372036854775808)]

theorem hasNoFloat_counters : counters.HasNoFloat := by
  refine AttributeValue.HasNoFloat.map ?_
  simp only [List.forall_mem_cons]
  refine ⟨.list ?_, .list ?_, .list ?_, .uint _, .uint _, List.forall_mem_nil _⟩
  · exact List.forall_mem_cons.mpr ⟨.uint _, List.forall_mem_singleton.mpr (.int _)⟩
  · exact List.forall_mem_nil _
  · refine List.forall_mem_cons.mpr ⟨.uint _, List.forall_mem_singleton.mpr ?_⟩
    exact .list (List.forall_mem_singleton.mpr (.int _))

theorem serializes_counters (depth : Nat) : counters.Serializes (depth + 3) := by
  refine AttributeValue.Serializes.map (by decide) ?_
  simp only [List.forall_mem_cons]
  refine ⟨.list ?_, .list ?_, .list ?_, .uint _, .uint _, List.forall_mem_nil _⟩
  · exact List.forall_mem_cons.mpr ⟨.uint _, List.forall_mem_singleton.mpr (.int _)⟩
  · exact List.forall_mem_nil _
  · refine List.forall_mem_cons.mpr ⟨.uint _, List.forall_mem_singleton.mpr ?_⟩
    exact .list (List.forall_mem_singleton.mpr (.int _))

end Sample

theorem deserialize?_serialize_counters :
    AttributeValue.deserialize? Sample.counters.serialize = some Sample.countersRead ∧
      Sample.countersRead.serialize = Sample.counters.serialize ∧
      Sample.countersRead.untagged = Sample.countersRead := by
  have hnormal : Sample.counters.untagged = Sample.countersRead := by rfl
  have hread := AttributeValue.deserialize?_serialize_untagged
    Sample.hasNoFloat_counters (Sample.serializes_counters 124)
  rw [hnormal] at hread
  exact hread

end AccessChecks
