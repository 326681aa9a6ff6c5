import AccessChecks.Proofs.Reading

/-!
# Request values of a schema

## Shapes

A value of a schema has the shape that its kind and its field give it.  A field
with presence is optional, a list field holds a list, and a map field holds the
entries of a map in the order in which it is gone over.  Nothing is known about
the values of a message that is not registered.

## Values of fields

Messages keep their fields under identifiers.  A field whose name makes no
identifier has no place in a message.
-/

namespace AccessChecks

namespace Scalar

def holds : Scalar → ScalarData → Bool
  | bool, .bool _ => true
  | int32, .int32 _ => true
  | int64, .int64 _ => true
  | uint32, .uint32 _ => true
  | uint64, .uint64 _ => true
  | float, .float _ => true
  | double, .double _ => true
  | string, .string _ => true
  | bytes, .bytes _ => true
  | _, _ => false

end Scalar

namespace ScalarData

def isMapKey (v : ScalarData) : Bool :=
  v.text?.isSome

end ScalarData

namespace Schema

mutual

/-- The data that values of a kind are. -/
inductive Holds (s : Schema) : Kind → Data → Prop where
  | scalar {t : Scalar} {v : ScalarData} :
      t.holds v = true → Holds s (.scalar t) (.scalar v)
  | enum {name : String} {i : Int32} :
      Holds s (.enum name) (.scalar (.int32 i))
  | unknown {target : MessageRef} {d : Data} :
      s.message? target = none → Holds s (.message target) d
  | message {target : MessageRef} {m : Message}
      {fields : List (String × Data)} (content : Field → Data) :
      s.message? target = some m →
      (∀ f ∈ m.fields, ∀ x, Name.ofField f.name = .ok x →
        fields.lookup x = some (content f)) →
      (∀ f ∈ m.fields, ∀ x, Name.ofField f.name = .ok x →
        HoldsField s f (content f)) →
      Holds s (.message target) (.message fields)

inductive HoldsField (s : Schema) : Field → Data → Prop where
  | plain {f : Field} {kind : Kind} {d : Data} :
      f.type = .single kind → f.presence = false →
      Holds s kind d → HoldsField s f d
  | absent {f : Field} {kind : Kind} :
      f.type = .single kind → f.presence = true → HoldsField s f .absent
  | present {f : Field} {kind : Kind} {d : Data} :
      f.type = .single kind → f.presence = true →
      Holds s kind d → HoldsField s f (.present d)
  | list {f : Field} {kind : Kind} {items : List Data} :
      f.type = .list kind →
      (∀ d ∈ items, Holds s kind d) → HoldsField s f (.list items)
  | map {f : Field} {key : Scalar} {kind : Kind}
      {entries : List (ScalarData × Data)} :
      f.type = .map key kind →
      (entries.map Prod.fst).Nodup →
      (∀ e ∈ entries, key.holds e.1 = true ∧ e.1.isMapKey = true) →
      (∀ e ∈ entries, Holds s kind e.2) → HoldsField s f (.map entries)

end

/-- The data has a value for every field of the message. -/
def HoldsMessage (s : Schema) (m : Message) (d : Data) : Prop :=
  ∀ f ∈ m.fields, ∀ x, Name.ofField f.name = .ok x →
    ∃ w, d.field? x = some w ∧ s.HoldsField f w

theorem holdsMessage_of_holds {s : Schema} {target : MessageRef} {m : Message}
    {d : Data} (registered : s.message? target = some m)
    (h : s.Holds (.message target) d) : s.HoldsMessage m d := by
  cases h with
  | unknown hnone =>
      rw [registered] at hnone
      cases hnone
  | message content hfound hlookup hholds =>
      rw [registered] at hfound
      cases hfound
      intro f hf x hx
      exact ⟨content f, hlookup f hf x hx, hholds f hf x hx⟩

theorem holds_of_holdsMessage {s : Schema} {target : MessageRef} {m : Message}
    {fields : List (String × Data)} (registered : s.message? target = some m)
    (h : s.HoldsMessage m (.message fields)) :
    s.Holds (.message target) (.message fields) := by
  let content (f : Field) : Data :=
    ((Data.message fields).member? f.name).getD .absent
  have hcontent : ∀ f ∈ m.fields, ∀ x, Name.ofField f.name = .ok x →
      fields.lookup x = some (content f) ∧ s.HoldsField f (content f) := by
    intro f hf x hx
    rcases h f hf x hx with ⟨w, hw, hfield⟩
    have hcontent : content f = w := by
      simp only [content, Data.member?_of_ofField _ hx, hw, Option.getD_some]
    rw [hcontent]
    exact ⟨hw, hfield⟩
  exact Holds.message content registered
    (fun f hf x hx => (hcontent f hf x hx).1)
    (fun f hf x hx => (hcontent f hf x hx).2)

end Schema

end AccessChecks
