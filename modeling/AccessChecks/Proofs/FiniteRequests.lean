import AccessChecks.Proofs.CheckText
import AccessChecks.Proofs.EmittedBodies

/-!
# Requests with finite numbers

## Finite numbers

A number of 32 bits that is finite stays finite with 64 bits.  What is reached in a
request with finite numbers has finite numbers as well.

## Attributes

An attribute value that is read off such a request has finite numbers, its maps are
in key order, and it is nested at most three deep: a gathered list of lists or maps
of bytes.
-/

namespace AccessChecks

open Reading

namespace Double

theorem pow_lt_overflow : (2 : ℚ) ^ (1000 : ℕ) < overflow := by
  have hnat : (2 : ℕ) ^ 1000 + 2 ^ 970 < 2 ^ 1024 := by decide +kernel
  have hcast : (2 : ℚ) ^ (1000 : ℕ) + 2 ^ (970 : ℤ) < 2 ^ (1024 : ℤ) := by
    exact_mod_cast hnat
  exact lt_sub_iff_add_lt.mpr hcast

theorem isFinite_ofQuotient_of_lt (negative : Bool) {num den : Nat}
    (hden : 0 < den) (h : num < 2 ^ 1000) :
    (ofQuotient negative num den).isFinite = true := by
  apply isFinite_ofQuotient negative hden
  have hone : (1 : ℚ) ≤ den := by exact_mod_cast hden
  have hnum : (num : ℚ) < 2 ^ (1000 : ℕ) := by exact_mod_cast h
  exact ((div_le_self (Nat.cast_nonneg num) hone).trans_lt hnum).trans
    pow_lt_overflow

end Double

namespace ScalarData

def isFinite : ScalarData → Bool
  | float bits => bits.toNat / Nat.pow 2 23 % Nat.pow 2 8 != 255
  | double x => x.isFinite
  | _ => true

theorem isFinite_widenFloat {bits : UInt32} (h : (float bits).isFinite = true) :
    (widenFloat bits).isFinite = true := by
  have hfield : bits.toNat / Nat.pow 2 23 % Nat.pow 2 8 < 256 :=
    Nat.mod_lt _ (by decide)
  have hfraction : bits.toNat % Nat.pow 2 23 < 2 ^ 23 := Nat.mod_lt _ (by decide)
  have hne : bits.toNat / Nat.pow 2 23 % Nat.pow 2 8 ≠ 255 := bne_iff_ne.mp h
  rw [widenFloat]
  dsimp only
  rw [if_neg hne]
  split
  · apply Double.isFinite_ofQuotient_of_lt _ (Nat.pow_pos (by decide))
    exact hfraction.trans (by decide +kernel)
  · apply Double.isFinite_ofQuotient_of_lt _ (Nat.pow_pos (by decide))
    calc (Nat.pow 2 23 + bits.toNat % Nat.pow 2 23) *
          Nat.pow 2 (bits.toNat / Nat.pow 2 23 % Nat.pow 2 8)
        < 2 ^ 24 * 2 ^ 256 := by
          apply Nat.mul_lt_mul'' _
          · exact Nat.pow_lt_pow_right (by decide) hfield
          · have hpow : Nat.pow 2 23 = 2 ^ 23 := rfl
            omega
      _ < 2 ^ 1000 := by decide +kernel

end ScalarData

namespace Data

/-- All floating-point numbers of a request are finite. -/
inductive HasFiniteNumbers : Data → Prop where
  | scalar {v : ScalarData} :
      v.isFinite = true → HasFiniteNumbers (.scalar v)
  | absent : HasFiniteNumbers .absent
  | present {d : Data} : HasFiniteNumbers d → HasFiniteNumbers (.present d)
  | list {items : List Data} :
      (∀ d ∈ items, HasFiniteNumbers d) → HasFiniteNumbers (.list items)
  | map {entries : List (ScalarData × Data)} :
      (∀ e ∈ entries, HasFiniteNumbers e.2) → HasFiniteNumbers (.map entries)
  | message {fields : List (String × Data)} :
      (∀ f ∈ fields, HasFiniteNumbers f.2) → HasFiniteNumbers (.message fields)

theorem hasFiniteNumbers_member {name : String} {d w : Data}
    (h : d.HasFiniteNumbers) (hw : d.member? name = some w) :
    w.HasFiniteNumbers := by
  rw [member?] at hw
  split at hw
  · rename_i x hx
    cases h with
    | message hfields =>
        rcases List.lookup_eq_some_iff.mp hw with ⟨front, back, rfl, _⟩
        exact hfields (x, w) (by simp)
    | _ => cases hw
  · cases hw

theorem hasFiniteNumbers_behind {s : Segment} {d e : Data}
    (h : d.HasFiniteNumbers) (he : d.behind s = some e) : e.HasFiniteNumbers := by
  rw [behind] at he
  rcases Option.bind_eq_some_iff.mp he with ⟨w, hw, hvalue⟩
  have hfinite := hasFiniteNumbers_member h hw
  split at hvalue
  · cases hfinite with
    | present hcontent =>
        cases hvalue
        exact hcontent
    | _ => cases hvalue
  · cases hvalue
    exact hfinite

theorem hasFiniteNumbers_elements {s : Segment} {d e : Data}
    (h : d.HasFiniteNumbers) (he : e ∈ d.elements s) : e.HasFiniteNumbers := by
  rw [elements] at he
  split at he
  · rename_i entries hw
    cases hasFiniteNumbers_member h hw with
    | map hentries =>
        rcases List.mem_map.mp he with ⟨entry, hentry, rfl⟩
        exact hentries entry hentry
  · rename_i items hw
    cases hasFiniteNumbers_member h hw with
    | list hitems => exact hitems e he
  · cases he

end Data

namespace Reading

theorem hasFiniteNumbers_valueAt {segments : List Segment} {v : Option Data}
    (h : ∀ d ∈ v, d.HasFiniteNumbers) :
    ∀ d ∈ valueAt segments v, d.HasFiniteNumbers := by
  induction segments generalizing v with
  | nil => exact h
  | cons s rest ih =>
      apply ih
      intro e he
      rcases Option.bind_eq_some_iff.mp he with ⟨d, hd, hbehind⟩
      exact Data.hasFiniteNumbers_behind (h d hd) hbehind

theorem hasFiniteNumbers_reached {segments : List Segment} {v w : Option Data}
    (h : ∀ d ∈ v, d.HasFiniteNumbers) (hw : w ∈ reached segments v) :
    ∀ d ∈ w, d.HasFiniteNumbers := by
  induction segments generalizing v with
  | nil =>
      rw [reached, List.mem_singleton] at hw
      rw [hw]
      exact h
  | cons s rest ih =>
      rw [reached] at hw
      split at hw
      · rcases List.mem_flatMap.mp hw with ⟨e, he, hreached⟩
        rcases List.mem_flatMap.mp he with ⟨d, hd, helement⟩
        apply ih _ hreached
        intro f hf
        rw [← Option.some.inj hf]
        exact Data.hasFiniteNumbers_elements (h d (Option.mem_toList.mp hd))
          helement
      · apply ih _ hw
        intro e he
        rcases Option.bind_eq_some_iff.mp he with ⟨d, hd, hbehind⟩
        exact Data.hasFiniteNumbers_behind (h d hd) hbehind

end Reading

/-!
## Attributes
-/

namespace Entries

variable {α : Type}

theorem ofPairs_induction {P : Entries α → Prop} {pairs : List (String × α)}
    (start : P [])
    (step : ∀ entries, P entries → ∀ e ∈ pairs, P (insert entries e.1 e.2)) :
    P (ofPairs pairs) := by
  have hfold : ∀ (l : List (String × α)), (∀ e ∈ l, e ∈ pairs) →
      ∀ entries, P entries →
        P (l.foldl (fun entries pair => insert entries pair.1 pair.2) entries) := by
    intro l
    induction l with
    | nil => exact fun _ _ h => h
    | cons e rest ih =>
        intro hmem entries h
        exact ih (fun other hother => hmem other (List.mem_cons_of_mem e hother)) _
          (step entries h e (hmem e List.mem_cons_self))
  exact hfold pairs (fun e he => he) [] start

theorem pairwise_keys_ofPairs (pairs : List (String × α)) :
    (keys (ofPairs pairs)).Pairwise (· < ·) :=
  ofPairs_induction (P := fun entries => (keys entries).Pairwise (· < ·))
    List.Pairwise.nil fun _ h e _ => pairwise_keys_insert e.1 e.2 h

theorem mem_of_mem_ofPairs {pairs : List (String × α)} {e : String × α}
    (h : e ∈ ofPairs pairs) : e ∈ pairs := by
  have hall : ∀ e ∈ ofPairs pairs, e ∈ pairs := by
    refine ofPairs_induction (P := fun entries => ∀ e ∈ entries, e ∈ pairs) ?_ ?_
    · intro e he
      cases he
    · intro entries hentries new hnew e he
      rcases mem_entries_insert he with rfl | hold
      · exact hnew
      · exact hentries e hold
  exact hall e h

end Entries

theorem serializes_ofPairs {depth : Nat}
    {pairs : List (String × AttributeValue)}
    (h : ∀ e ∈ pairs, e.2.Serializes depth) :
    (AttributeValue.map (Entries.ofPairs pairs)).Serializes (depth + 1) :=
  AttributeValue.Serializes.map (Entries.pairwise_keys_ofPairs pairs)
    fun e he => h e (Entries.mem_of_mem_ofPairs he)

theorem serializes_attribute_of_kind {kind : Kind} {d : Data}
    {a : AttributeValue} (hd : d.HasFiniteNumbers)
    (ha : kind.attribute? d = some a) (depth : Nat) :
    a.Serializes (depth + 1) := by
  rw [Kind.attribute?.eq_def] at ha
  split at ha
  all_goals cases ha
  · exact AttributeValue.Serializes.bool _
  · exact AttributeValue.Serializes.int _
  · exact AttributeValue.Serializes.int _
  · exact AttributeValue.Serializes.uint _
  · exact AttributeValue.Serializes.uint _
  · cases hd with
    | scalar hfinite =>
        exact AttributeValue.Serializes.float
          (ScalarData.isFinite_widenFloat hfinite)
  · cases hd with
    | scalar hfinite => exact AttributeValue.Serializes.float hfinite
  · exact AttributeValue.Serializes.string _
  · exact AttributeValue.Serializes.bytes _
  · exact AttributeValue.Serializes.int _

theorem serializes_attribute_of_type {type : FieldType} {d : Data}
    {a : AttributeValue} (hd : d.HasFiniteNumbers)
    (ha : type.attribute? d = some a) (depth : Nat) :
    a.Serializes (depth + 2) := by
  rw [FieldType.attribute?.eq_def] at ha
  split at ha
  · exact serializes_attribute_of_kind hd ha (depth + 1)
  · rename_i kind items
    rcases Option.map_eq_some_iff.mp ha with ⟨values, hvalues, rfl⟩
    cases hd with
    | list hitems =>
        apply AttributeValue.Serializes.list
        intro v hv
        rcases exists_of_mem_mapM hvalues v hv with ⟨item, hitem, hconverted⟩
        exact serializes_attribute_of_kind (hitems item hitem) hconverted depth
  · rename_i key kind entries
    rcases Option.map_eq_some_iff.mp ha with ⟨pairs, hpairs, rfl⟩
    cases hd with
    | map hentries =>
        apply serializes_ofPairs
        intro e he
        rcases exists_of_mem_mapM hpairs e he with ⟨entry, hentry, hconverted⟩
        rw [Kind.attributeEntry?] at hconverted
        rcases Option.bind_eq_some_iff.mp hconverted with ⟨text, htext, hvalue⟩
        rcases Option.map_eq_some_iff.mp hvalue with ⟨v, hv, rfl⟩
        exact serializes_attribute_of_kind (hentries entry hentry) hv depth
  · cases ha

theorem serializes_attributeAt {p : AccessPath} {v : Option Data}
    {a : AttributeValue} (hv : ∀ d ∈ v, d.HasFiniteNumbers)
    (ha : p.attributeAt v = some a) (depth : Nat) :
    a.Serializes (depth + 3) := by
  rw [AccessPath.attributeAt] at ha
  rcases Option.bind_eq_some_iff.mp ha with ⟨type, htype, hvalue⟩
  split at hvalue
  · cases hvalue
  · split at hvalue
    · split at hvalue
      · cases hvalue
      · cases hvalue
        apply AttributeValue.Serializes.list
        intro b hb
        rw [AccessPath.gathered, List.mem_filterMap] at hb
        rcases hb with ⟨leaf, hleaf, hb⟩
        rcases Option.bind_eq_some_iff.mp hb with ⟨d, hd, hconverted⟩
        exact serializes_attribute_of_type
          (hasFiniteNumbers_reached hv hleaf d hd) hconverted depth
    · rcases Option.bind_eq_some_iff.mp hvalue with ⟨d, hd, hconverted⟩
      exact serializes_attribute_of_type (hasFiniteNumbers_valueAt hv d hd)
        hconverted (depth + 1)

theorem serializes_of_mem_checksIn {r : Resource} {permission : String}
    {d : Data} (hd : d.HasFiniteNumbers) {c : Check}
    (hc : c ∈ r.checksIn permission d) (depth : Nat) :
    c.Serializes (depth + 4) := by
  rcases List.mem_flatMap.mp hc with ⟨v, hv, hcheck⟩
  rcases List.mem_map.mp hcheck with ⟨id, hid, rfl⟩
  have hfinite : ∀ e ∈ v, e.HasFiniteNumbers := by
    apply hasFiniteNumbers_reached _ hv
    intro e he
    rw [← Option.some.inj he]
    exact hd
  apply serializes_ofPairs
  intro e he
  rw [List.mem_filterMap] at he
  rcases he with ⟨entry, hentry, he⟩
  rcases Option.map_eq_some_iff.mp he with ⟨a, ha, rfl⟩
  exact serializes_attributeAt hfinite ha depth

end AccessChecks
