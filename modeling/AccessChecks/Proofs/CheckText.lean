import AccessChecks.Proofs.UntaggedValues

/-!
# Check configurations and their texts

## Records

A record is written with all its fields under different names, so each of them is
found again.

## Configurations

What is read from the text of a configuration has its kind and mode, and its checks
with their keys and names.  Only the values of attributes are in normal form.
-/

namespace AccessChecks

namespace Json

theorem isWritten_ofString (s : String) : (ofString s).IsWritten :=
  IsWritten.text s.toList

theorem isWritten_ofMembers {members : List (String × Json)}
    (h : ∀ m ∈ members, m.2.IsWritten) : (ofMembers members).IsWritten := by
  rw [ofMembers]
  apply IsWritten.object
  · intro m hm
    rcases List.mem_map.mp hm with ⟨n, hn, rfl⟩
    exact ⟨n.1.toList, rfl⟩
  · intro m hm
    rcases List.mem_map.mp hm with ⟨n, hn, rfl⟩
    exact h n hn

theorem asString?_ofString (s : String) : (ofString s).asString? = some s := by
  rw [ofString, asString?, unspell?_spell, Option.map_some, String.ofList_toList]

theorem filter_name_eq {members : List (String × Json)}
    (distinct : (members.map Prod.fst).Nodup) :
    ∀ m ∈ members, (members.filter fun n => n.1 == m.1) = [m] := by
  induction members with
  | nil =>
      intro m hm
      cases hm
  | cons first rest ih =>
      rw [List.map_cons, List.nodup_cons] at distinct
      intro m hm
      rcases List.mem_cons.mp hm with rfl | hrest
      · have hnone : (rest.filter fun n => n.1 == m.1) = [] := by
          rw [List.filter_eq_nil_iff]
          intro n hn heq
          rw [← beq_iff_eq.mp heq] at distinct
          exact distinct.1 (List.mem_map_of_mem hn)
        rw [List.filter_cons, beq_self_eq_true, if_pos rfl, hnone]
      · have hne : (first.1 == m.1) = false := by
          rw [beq_eq_false_iff_ne]
          intro heq
          exact distinct.1 (heq ▸ List.mem_map_of_mem hrest)
        rw [List.filter_cons, hne, if_neg (by decide)]
        exact ih distinct.2 m hrest

theorem fields?_ofMembers {names : List String}
    {members : List (String × Json)} (hnames : members.map Prod.fst = names)
    (distinct : names.Nodup) :
    fields? names (ofMembers members) =
      some (members.map fun m => some m.2) := by
  subst hnames
  have hnamed : (members.map fun m => (spell m.1.toList, m.2)).mapM
      (fun m => (unspell? m.1).map fun key => (String.ofList key, m.2)) =
        some members := by
    apply mapM_map_inverse
    intro m
    rw [unspell?_spell, Option.map_some, String.ofList_toList]
  rw [ofMembers, fields?]
  simp only [hnamed]
  apply mapM_map_of_forall
  intro m hm
  rw [filter_name_eq distinct m hm]

end Json

/-!
## Names of kinds and modes
-/

theorem CheckKind.ofJson?_name (depth : Nat) (k : CheckKind) :
    CheckKind.ofJson? depth (Json.ofString k.name) = some k := by
  have hfind : (CheckKind.all.find? fun c => c.name == k.name) = some k := by
    cases k <;> decide
  rw [CheckKind.ofJson?, Json.ofString, Json.choice?, Json.choice?.find?,
    Json.unspell?_spell]
  simp only [String.ofList_toList, hfind]

theorem BulkMode.ofJson?_name (depth : Nat) (m : BulkMode) :
    BulkMode.ofJson? depth (Json.ofString m.name) = some m := by
  have hfind : (BulkMode.all.find? fun c => c.name == m.name) = some m := by
    cases m <;> decide
  rw [BulkMode.ofJson?, Json.ofString, Json.choice?, Json.choice?.find?,
    Json.unspell?_spell]
  simp only [String.ofList_toList, hfind]

/-!
## Records
-/

namespace CheckedResource

def normal (r : CheckedResource) : CheckedResource :=
  { r with attributes := AttributeValue.normalEntries r.attributes }

/-- The attributes of the resource can be written and read. -/
def Serializes (depth : Nat) (r : CheckedResource) : Prop :=
  (AttributeValue.map r.attributes).Serializes depth

theorem isWritten_toJson {depth : Nat} {r : CheckedResource}
    (h : r.Serializes depth) : r.toJson.IsWritten := by
  apply Json.isWritten_ofMembers
  intro m hm
  have hattributes := AttributeValue.isWritten_toJson h
  rw [AttributeValue.toJson] at hattributes
  rcases List.mem_cons.mp hm with rfl | hm
  · exact Json.isWritten_ofString _
  · rcases List.mem_cons.mp hm with rfl | hm
    · exact Json.isWritten_ofString _
    · rw [List.mem_singleton.mp hm]
      exact hattributes

theorem ofJson?_toJson {depth : Nat} {r : CheckedResource}
    (h : r.Serializes depth) :
    ofJson? (depth + 1) r.toJson = some r.normal := by
  have hattributes := AttributeValue.ofJson?_toJson h
  rw [AttributeValue.toJson, AttributeValue.normal] at hattributes
  rw [ofJson?, if_neg (Nat.succ_ne_zero depth), toJson,
    Json.fields?_ofMembers (by rfl) (by decide)]
  simp only [List.map_cons, List.map_nil, Option.bind_eq_bind,
    Option.bind_some, Nat.add_sub_cancel, hattributes, Json.asString?_ofString]
  rfl

end CheckedResource

namespace Check

def normal (c : Check) : Check :=
  { c with resource := c.resource.normal }

def Serializes (depth : Nat) (c : Check) : Prop :=
  c.resource.Serializes depth

theorem isWritten_toJson {depth : Nat} {c : Check} (h : c.Serializes depth) :
    c.toJson.IsWritten := by
  apply Json.isWritten_ofMembers
  intro m hm
  rcases List.mem_cons.mp hm with rfl | hm
  · exact Json.isWritten_ofString _
  · rcases List.mem_cons.mp hm with rfl | hm
    · exact Json.isWritten_ofString _
    · rw [List.mem_singleton.mp hm]
      exact CheckedResource.isWritten_toJson h

theorem ofJson?_toJson {depth : Nat} {c : Check} (h : c.Serializes depth) :
    ofJson? (depth + 2) c.toJson = some c.normal := by
  rw [ofJson?, if_neg (Nat.succ_ne_zero _), toJson,
    Json.fields?_ofMembers (by rfl) (by decide)]
  simp only [List.map_cons, List.map_nil, Option.bind_eq_bind,
    Option.bind_some, Nat.add_one_sub_one, Json.asString?_ofString,
    CheckedResource.ofJson?_toJson h]
  rfl

theorem listOfJson?_map {depth : Nat} {checks : List Check}
    (h : ∀ c ∈ checks, c.Serializes depth) :
    listOfJson? (depth + 3) (.array (checks.map toJson)) =
      some (checks.map normal) := by
  rw [listOfJson?, if_neg (Nat.succ_ne_zero _), Nat.add_one_sub_one]
  exact mapM_map_of_forall fun c hc => ofJson?_toJson (h c hc)

end Check

/-!
## Configurations
-/

namespace CheckConfig

def serialize (c : CheckConfig) : List Char :=
  c.toJson.write

def deserialize? (text : List Char) : Option CheckConfig :=
  (Json.read? text).bind (ofJson? AttributeValue.depthLimit)

def normal (c : CheckConfig) : CheckConfig :=
  { c with checks := c.checks.map Check.normal }

theorem modeOfJson?_name (depth : Nat) (m : BulkMode) :
    modeOfJson? depth (some (Json.ofString m.name)) = some (some m) := by
  change (BulkMode.ofJson? depth (Json.ofString m.name)).map some = _
  rw [BulkMode.ofJson?_name]
  rfl

theorem isWritten_toJson {depth : Nat} {c : CheckConfig}
    (h : ∀ check ∈ c.checks, check.Serializes depth) : c.toJson.IsWritten := by
  apply Json.isWritten_ofMembers
  intro m hm
  rcases List.mem_cons.mp hm with rfl | hm
  · exact Json.isWritten_ofString _
  · rcases List.mem_cons.mp hm with rfl | hm
    · cases c.mode with
      | none => exact Json.IsWritten.null
      | some mode => exact Json.isWritten_ofString _
    · rw [List.mem_singleton.mp hm]
      apply Json.IsWritten.array
      intro j hj
      rcases List.mem_map.mp hj with ⟨check, hcheck, rfl⟩
      exact Check.isWritten_toJson (h check hcheck)

theorem ofJson?_toJson {depth : Nat} {c : CheckConfig}
    (h : ∀ check ∈ c.checks, check.Serializes depth) :
    ofJson? (depth + 4) c.toJson = some c.normal := by
  obtain ⟨kind, mode, checks⟩ := c
  rw [ofJson?, if_neg (Nat.succ_ne_zero _), toJson,
    Json.fields?_ofMembers (by rfl) (by decide)]
  cases mode with
  | none =>
      simp only [List.map_cons, List.map_nil, Option.bind_eq_bind,
        Option.bind_some, Nat.add_one_sub_one, CheckKind.ofJson?_name,
        Check.listOfJson?_map h]
      rfl
  | some m =>
      simp only [List.map_cons, List.map_nil, Option.bind_eq_bind,
        Option.bind_some, Nat.add_one_sub_one, CheckKind.ofJson?_name,
        modeOfJson?_name, Check.listOfJson?_map h]
      rfl

theorem deserialize?_serialize {c : CheckConfig}
    (h : ∀ check ∈ c.checks, check.Serializes 123) :
    deserialize? c.serialize = some c.normal := by
  rw [deserialize?, serialize, Json.read?_write (isWritten_toJson h)]
  exact ofJson?_toJson h

end CheckConfig

end AccessChecks
