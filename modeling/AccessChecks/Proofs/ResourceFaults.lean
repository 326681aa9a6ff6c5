import AccessChecks.Discovery.Resource
import Mathlib.Data.List.Induction

/-!
# Faults of a resource

## Attributes

The search visits attributes one after the other.  A visited field that holds
messages is a fault, and so is a name that was visited before: its report names the
two visits that follow each other.

## Keys

The id and the tenant that were found have to be texts, integers or enums.  A
resource without a fault has suitable keys and attributes with names of their own.
-/

namespace AccessChecks

theorem nodup_map_iff_forall_split {α β : Type} (f : α → β) (l : List α) :
    (l.map f).Nodup ↔
      ∀ before a after, l = before ++ a :: after → f a ∉ before.map f := by
  constructor
  · rintro hnodup before a after rfl hmem
    rw [List.map_append, List.nodup_append] at hnodup
    exact hnodup.2.2 (f a) hmem (f a) List.mem_cons_self rfl
  · intro hsplit
    induction l using List.reverseRecOn with
    | nil => exact List.nodup_nil
    | append_singleton front a ih =>
        have hfront : (front.map f).Nodup := by
          apply ih
          rintro before b after rfl
          exact hsplit before b (after ++ [a]) (by simp)
        rw [List.map_append, List.map_singleton, List.nodup_append]
        refine ⟨hfront, by simp, ?_⟩
        rintro b hb _ hlast rfl
        rw [List.mem_singleton.mp hlast] at hb
        exact hsplit front a [] rfl hb

namespace AttributeField

/-- The last of the attributes visited before that has the name. -/
def lastNamed? (visited : List AttributeField) (name : String) :
    Option AttributeField :=
  visited.reverse.find? fun a => a.name == name

theorem lastNamed?_concat (visited : List AttributeField) (a : AttributeField)
    (name : String) :
    lastNamed? (visited ++ [a]) name =
      if a.name = name then some a else lastNamed? visited name := by
  rw [lastNamed?, List.reverse_append, List.reverse_singleton,
    List.singleton_append, List.find?_cons]
  by_cases h : a.name = name
  · simp [h]
  · have hne : (a.name == name) = false := by simpa using h
    rw [hne, if_neg h]
    rfl

theorem lastNamed?_eq_none_iff {visited : List AttributeField}
    {name : String} :
    lastNamed? visited name = none ↔ name ∉ visited.map AttributeField.name := by
  simp [lastNamed?, List.find?_eq_none]

def Recorded (recorded : Entries AccessPath) (visited : List AttributeField) :
    Prop :=
  ∀ name, Entries.get? recorded name = (lastNamed? visited name).map path

theorem recorded_nil : Recorded [] [] :=
  fun _ => rfl

theorem Recorded.concat {recorded : Entries AccessPath}
    {visited : List AttributeField} (h : Recorded recorded visited)
    (a : AttributeField) :
    Recorded (Entries.insert recorded a.name a.path) (visited ++ [a]) := by
  intro name
  rw [Entries.get?_insert, lastNamed?_concat]
  split
  · rfl
  · exact h name

/-- A visited attribute of the resource is at fault: its field holds messages, or
its name was visited before. -/
inductive Fault (resource : Message) (visited : List AttributeField)
    (a : AttributeField) : Diagnostic → Prop where
  | type :
      a.field.type.messageTarget.isSome = true →
      Fault resource visited a
        (.invalidAttributeFieldType a.owner.fullName a.field.name a.name
          a.field.type.describe)
  | name {first : AttributeField} :
      lastNamed? visited a.name = some first →
      Fault resource visited a
        (.duplicateAttributeName resource.fullName a.name first.path.render
          a.path.render)

theorem mem_faults_iff {resource : Message} {recorded : Entries AccessPath}
    {visited : List AttributeField} (h : Recorded recorded visited)
    (a : AttributeField) (d : Diagnostic) :
    d ∈ a.typeFaults ++ a.nameFaults resource recorded ↔
      Fault resource visited a d := by
  rw [List.mem_append, typeFaults, nameFaults, h a.name]
  constructor
  · rintro (htype | hname)
    · cases hkind : a.field.type.messageTarget with
      | none => simp [FieldType.isAttributeType, hkind] at htype
      | some target =>
          rw [FieldType.isAttributeType, hkind, Option.isNone_some,
            if_neg (by decide), List.mem_singleton] at htype
          rw [htype]
          exact Fault.type (by rw [hkind]; rfl)
    · cases hlast : lastNamed? visited a.name with
      | none => simp [hlast] at hname
      | some first =>
          rw [hlast] at hname
          rw [List.mem_singleton.mp hname]
          exact Fault.name hlast
  · intro hfault
    cases hfault with
    | type hkind =>
        apply Or.inl
        simp [FieldType.isAttributeType, Option.isNone_iff_eq_none,
          Option.isSome_iff_ne_none.mp hkind]
    | name hlast =>
        apply Or.inr
        rw [hlast]
        exact List.mem_singleton_self _

def FaultIn (resource : Message) (found : List AttributeField)
    (d : Diagnostic) : Prop :=
  ∃ before a after, found = before ++ a :: after ∧ Fault resource before a d

theorem faultIn_iff_of_visited (resource : Message)
    (visited : List AttributeField) (a : AttributeField)
    (rest : List AttributeField) (d : Diagnostic) :
    (∃ before b after, a :: rest = before ++ b :: after ∧
        Fault resource (visited ++ before) b d) ↔
      Fault resource visited a d ∨
        ∃ before b after, rest = before ++ b :: after ∧
          Fault resource (visited ++ [a] ++ before) b d := by
  constructor
  · rintro ⟨before, b, after, hsplit, hfault⟩
    cases before with
    | nil =>
        cases hsplit
        rw [List.append_nil] at hfault
        exact Or.inl hfault
    | cons c others =>
        cases hsplit
        refine Or.inr ⟨others, b, after, rfl, ?_⟩
        rwa [List.append_assoc]
  · rintro (hfault | ⟨before, b, after, rfl, hfault⟩)
    · refine ⟨[], a, rest, rfl, ?_⟩
      rwa [List.append_nil]
    · refine ⟨a :: before, b, after, rfl, ?_⟩
      rwa [List.append_assoc] at hfault

theorem mem_recordAttributes_faults_iff (resource : Message)
    {recorded : Entries AccessPath} {visited : List AttributeField}
    (h : Recorded recorded visited) (found : List AttributeField)
    (d : Diagnostic) :
    d ∈ (recordAttributes resource recorded found).2 ↔
      ∃ before a after, found = before ++ a :: after ∧
        Fault resource (visited ++ before) a d := by
  induction found generalizing recorded visited with
  | nil => simp [recordAttributes]
  | cons a rest ih =>
      rw [faultIn_iff_of_visited, recordAttributes, List.mem_append,
        mem_faults_iff h, ih (h.concat a)]

theorem mem_recordAttributes_iff_faultIn (resource : Message)
    (found : List AttributeField) (d : Diagnostic) :
    d ∈ (recordAttributes resource [] found).2 ↔ FaultIn resource found d := by
  rw [mem_recordAttributes_faults_iff resource recorded_nil]
  rfl

theorem forall_not_faultIn_iff (resource : Message)
    (found : List AttributeField) :
    (∀ d, ¬ FaultIn resource found d) ↔
      (∀ a ∈ found, a.field.type.messageTarget = none) ∧
        (found.map AttributeField.name).Nodup := by
  rw [nodup_map_iff_forall_split]
  constructor
  · intro hnone
    constructor
    · intro a ha
      rcases List.append_of_mem ha with ⟨before, after, hsplit⟩
      cases hkind : a.field.type.messageTarget with
      | none => rfl
      | some target =>
          have hfault : Fault resource before a _ :=
            Fault.type (by rw [hkind]; rfl)
          exact absurd ⟨before, a, after, hsplit, hfault⟩ (hnone _)
    · intro before a after hsplit
      rw [← lastNamed?_eq_none_iff]
      cases hlast : lastNamed? before a.name with
      | none => rfl
      | some first =>
          exact absurd ⟨before, a, after, hsplit, Fault.name hlast⟩ (hnone _)
  · rintro ⟨hkinds, hnames⟩ d ⟨before, a, after, hsplit, hfault⟩
    cases hfault with
    | type hkind =>
        have hmem : a ∈ found := by
          rw [hsplit]
          exact List.mem_append_right before List.mem_cons_self
        rw [hkinds a hmem] at hkind
        cases hkind
    | name hlast =>
        rw [lastNamed?_eq_none_iff.mpr (hnames before a after hsplit)] at hlast
        cases hlast

end AttributeField

/-!
## Keys
-/

namespace KeyField

def report (key : Key) (k : KeyField) : Diagnostic :=
  match key with
  | .id =>
      .invalidIdFieldType k.owner.fullName k.field.name k.field.type.describe
  | .tenant =>
      .invalidTenantFieldType k.owner.fullName k.field.name
        k.field.type.describe

theorem mem_faults_iff (key : Key) (k : KeyField) (d : Diagnostic) :
    d ∈ k.faults key ↔
      k.field.type.valueKind.isId = false ∧ d = k.report key := by
  rw [faults]
  cases k.field.type.valueKind.isId with
  | true => simp
  | false => cases key <;> simp [report]

end KeyField

namespace ResourceSite

def keyIn (s : Schema) (site : ResourceSite) (key : Key) : Option KeyField :=
  findKey s key ⟨resourceRoot, []⟩ site.message

def attributesIn (s : Schema) (site : ResourceSite) : List AttributeField :=
  findAttributes s ⟨resourceRoot, []⟩ site.message

inductive Fault (s : Schema) (site : ResourceSite) : Diagnostic → Prop where
  | key {key : Key} {k : KeyField} :
      site.keyIn s key = some k → k.field.type.valueKind.isId = false →
      Fault s site (k.report key)
  | visit {d : Diagnostic} :
      AttributeField.FaultIn site.message (site.attributesIn s) d →
      Fault s site d

theorem mem_describe_iff_fault (s : Schema) (site : ResourceSite)
    (d : Diagnostic) : d ∈ (site.describe s).2 ↔ site.Fault s d := by
  have hkey : ∀ key, d ∈ (site.keyIn s key).toList.flatMap
      (KeyField.faults key) ↔
        ∃ k, site.keyIn s key = some k ∧
          k.field.type.valueKind.isId = false ∧ d = k.report key := by
    intro key
    simp only [List.mem_flatMap, Option.mem_toList,
      KeyField.mem_faults_iff]
  change d ∈ (site.keyIn s .id).toList.flatMap (KeyField.faults .id) ++
    (site.keyIn s .tenant).toList.flatMap (KeyField.faults .tenant) ++
      (recordAttributes site.message [] (site.attributesIn s)).2 ↔ _
  rw [List.mem_append, List.mem_append, hkey, hkey,
    AttributeField.mem_recordAttributes_iff_faultIn]
  constructor
  · rintro ((⟨k, hfound, hkind, rfl⟩ | ⟨k, hfound, hkind, rfl⟩) | hattribute)
    · exact Fault.key hfound hkind
    · exact Fault.key hfound hkind
    · exact Fault.visit hattribute
  · intro hfault
    cases hfault with
    | visit hattribute => exact Or.inr hattribute
    | @key key k hfound hkind =>
        cases key with
        | id => exact Or.inl (Or.inl ⟨k, hfound, hkind, rfl⟩)
        | tenant => exact Or.inl (Or.inr ⟨k, hfound, hkind, rfl⟩)

/-- The keys of the resource are suitable, and its attributes hold no messages and
have distinct names. -/
structure WellFormed (s : Schema) (site : ResourceSite) : Prop where
  id : ∀ k, site.keyIn s .id = some k → k.field.type.valueKind.isId = true
  tenant : ∀ k, site.keyIn s .tenant = some k →
    k.field.type.valueKind.isId = true
  attributes : ∀ a ∈ site.attributesIn s, a.field.type.messageTarget = none
  names : ((site.attributesIn s).map AttributeField.name).Nodup

theorem wellFormed_iff_forall_not_fault {s : Schema} {site : ResourceSite} :
    site.WellFormed s ↔ ∀ d, ¬ site.Fault s d := by
  constructor
  · intro hwell d hfault
    cases hfault with
    | @key key k hfound hkind =>
        cases key with
        | id =>
            rw [hwell.id k hfound] at hkind
            cases hkind
        | tenant =>
            rw [hwell.tenant k hfound] at hkind
            cases hkind
    | visit hattribute =>
        exact (AttributeField.forall_not_faultIn_iff _ _).mpr
          ⟨hwell.attributes, hwell.names⟩ d hattribute
  · intro hnone
    have hkeys : ∀ key k, site.keyIn s key = some k →
        k.field.type.valueKind.isId = true := by
      intro key k hfound
      cases hkind : k.field.type.valueKind.isId with
      | true => rfl
      | false => exact absurd (Fault.key hfound hkind) (hnone _)
    have hattributes := (AttributeField.forall_not_faultIn_iff site.message
      (site.attributesIn s)).mp fun d hd => hnone d (Fault.visit hd)
    exact
      { id := hkeys .id
        tenant := hkeys .tenant
        attributes := hattributes.1
        names := hattributes.2 }

end ResourceSite

end AccessChecks
