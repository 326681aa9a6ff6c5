import AccessChecks.Discovery.Branch

/-!
# The three searches

All searches run over the fields of a message in declaration order and depth
first.  They differ in the fields that they enter and in what they look for.

## Resource search

The first message with a resource type ends the search.
-/

namespace AccessChecks

open Schema

structure ResourceSite where
  message : Message
  label : String
  path : AccessPath
deriving Repr, Inhabited

def ownResource (path : AccessPath) (message : Message) : Option ResourceSite :=
  message.resourceType.map fun label => ⟨message, label, path⟩

def resourceBelow (schema : Schema) (branch : List String) (path : AccessPath) :
    List Field → Option ResourceSite
  | [] => none
  | field :: rest =>
      match _h : field.resourceTarget.bind (schema.enter branch) with
      | none => resourceBelow schema branch path rest
      | some message =>
          let here := path.append (Segment.traverse field)
          ((ownResource here message).orElse fun _ =>
              resourceBelow schema (message.fullName :: branch) here
                message.fields).orElse fun _ =>
            resourceBelow schema branch path rest
termination_by fields => (schema.room branch, fields.length)
decreasing_by
  · exact Prod.Lex.right _ (by simp)
  · obtain ⟨_, _, entered⟩ := Option.bind_eq_some_iff.mp _h
    exact Prod.Lex.left _ _ (room_lt_of_enter entered)
  · exact Prod.Lex.right _ (by simp)

/-- The resource that a request leads to: itself, or the first one below it. -/
def findResource (schema : Schema) (path : AccessPath) (request : Message) :
    Option ResourceSite :=
  (ownResource path request).orElse fun _ =>
    resourceBelow schema [request.fullName] path request.fields

/-!
## Key search

A key is a marked field of the resource.  At each message its own fields come
before everything below it.  Only messages held as one value are entered, so a
key path can fan out at its last segment at most.
-/

inductive Key where
  | id
  | tenant
deriving DecidableEq, Repr, Inhabited

namespace Key

/-- The field is marked for the key.  A collection cannot name one tenant. -/
def accepts : Key → Field → Bool
  | id, field => field.marks.resourceId
  | tenant, field => field.marks.tenantId && !field.type.isCollection

end Key

structure KeyField where
  owner : Message
  field : Field
  path : AccessPath
deriving Repr, Inhabited

def ownKey (key : Key) (path : AccessPath) (message : Message) :
    Option KeyField :=
  (message.fields.find? key.accepts).map fun field =>
    ⟨message, field, path.append (Segment.traverse field)⟩

def keyBelow (schema : Schema) (key : Key) (branch : List String)
    (path : AccessPath) : List Field → Option KeyField
  | [] => none
  | field :: rest =>
      match _h : field.keyTarget.bind (schema.enter branch) with
      | none => keyBelow schema key branch path rest
      | some message =>
          let here := path.append (Segment.traverse field)
          ((ownKey key here message).orElse fun _ =>
              keyBelow schema key (message.fullName :: branch) here
                message.fields).orElse fun _ =>
            keyBelow schema key branch path rest
termination_by fields => (schema.room branch, fields.length)
decreasing_by
  · exact Prod.Lex.right _ (by simp)
  · obtain ⟨_, _, entered⟩ := Option.bind_eq_some_iff.mp _h
    exact Prod.Lex.left _ _ (room_lt_of_enter entered)
  · exact Prod.Lex.right _ (by simp)

def findKey (schema : Schema) (key : Key) (path : AccessPath)
    (resource : Message) : Option KeyField :=
  (ownKey key path resource).orElse fun _ =>
    keyBelow schema key [resource.fullName] path resource.fields

/-!
## Attribute search

Every field with an attribute name is visited, in every message that can be
entered from the resource.  A field that is an attribute is not entered itself.
-/

structure AttributeField where
  owner : Message
  field : Field
  name : String
  path : AccessPath
deriving Repr, Inhabited

def attributesBelow (schema : Schema) (branch : List String)
    (path : AccessPath) (owner : Message) : List Field → List AttributeField
  | [] => []
  | field :: rest =>
      let own :=
        match field.marks.attributeName with
        | some name =>
            [⟨owner, field, name, path.append (Segment.read field)⟩]
        | none => []
      let below :=
        match _h : field.attributeTarget.bind (schema.enter branch) with
        | none => []
        | some message =>
            attributesBelow schema (message.fullName :: branch)
              (path.append (Segment.traverse field)) message message.fields
      own ++ below ++ attributesBelow schema branch path owner rest
termination_by fields => (schema.room branch, fields.length)
decreasing_by
  · obtain ⟨_, _, entered⟩ := Option.bind_eq_some_iff.mp _h
    exact Prod.Lex.left _ _ (room_lt_of_enter entered)
  · exact Prod.Lex.right _ (by simp)

def findAttributes (schema : Schema) (path : AccessPath) (resource : Message) :
    List AttributeField :=
  attributesBelow schema [resource.fullName] path resource resource.fields

end AccessChecks
