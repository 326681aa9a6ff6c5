import AccessChecks.Schema.FieldType

/-!
# Schemas

## Annotated messages and services

A schema holds every known message and the files to generate code for.  Messages
carry access annotations on themselves and on their fields; methods say who may
call them.

## Registry

Messages are found by reference.  Adding a message under a reference that is
taken replaces the earlier one, so a reference never finds two messages.
-/

namespace AccessChecks

structure Annotations where
  resourceId : Bool := false
  tenantId : Bool := false
  attributeName : Option String := none
deriving DecidableEq, Repr, Inhabited

structure Field where
  name : String
  type : FieldType
  /-- Declared with the keyword `optional`. -/
  optional : Bool := false
  /-- Absence of the value can be told apart from its zero. -/
  presence : Bool := type.singleMessage.isSome
  marks : Annotations := {}
deriving DecidableEq, Repr, Inhabited

namespace Field

def asOptional (f : Field) : Field :=
  { f with optional := true, presence := !f.type.isCollection }

end Field

structure Message where
  package : String
  /-- Names of the enclosing messages, outermost first. -/
  parents : List String := []
  name : String
  resourceType : Option String := none
  fields : List Field := []
deriving DecidableEq, Repr, Inhabited

namespace Message

/-- Package parts, enclosing names and the name itself, joined by dots.  Empty
package parts are left out. -/
def fullName (m : Message) : String :=
  let parts := (m.package.splitOn ".").filter fun part => !part.isEmpty
  ".".intercalate (parts ++ m.parents ++ [m.name])

def reference (m : Message) : MessageRef :=
  MessageRef.ofName m.fullName

end Message

inductive BulkMode where
  | allOf
  | anyOf
deriving DecidableEq, Repr, Inhabited

structure Method where
  name : String
  input : MessageRef
  isPublic : Bool := false
  permission : Option String := none
  mode : Option BulkMode := none
deriving DecidableEq, Repr, Inhabited

structure Service where
  name : String
  methods : List Method := []
deriving DecidableEq, Repr, Inhabited

structure SchemaFile where
  name : String
  package : String
  services : List Service := []
deriving DecidableEq, Repr, Inhabited

structure Schema where
  messages : List Message := []
  files : List SchemaFile := []
deriving Repr, Inhabited

namespace Schema

def message? (s : Schema) (target : MessageRef) : Option Message :=
  s.messages.find? fun m => m.reference == target

/-- Registers a message in place of any earlier one with its reference. -/
def addMessage (s : Schema) (m : Message) : Schema :=
  { s with
    messages := (s.messages.filter fun n => n.reference != m.reference) ++ [m] }

def addFile (s : Schema) (f : SchemaFile) : Schema :=
  { s with files := s.files ++ [f] }

def ofMessages (messages : List Message) (files : List SchemaFile) : Schema :=
  let registered := messages.foldl addMessage {}
  { registered with files := files }

def sortedMessages (s : Schema) : List Message :=
  s.messages.mergeSort fun m n => m.reference.name ≤ n.reference.name

theorem message?_addMessage (s : Schema) (m : Message) (target : MessageRef) :
    (s.addMessage m).message? target =
      if m.reference = target then some m else s.message? target := by
  unfold message? addMessage
  rw [List.find?_append, List.find?_filter]
  by_cases h : m.reference = target
  · rw [if_pos h, List.find?_eq_none.mpr (by intro n _; simp [h])]
    simp [h]
  · have same : ∀ n : Message,
        decide ((n.reference != m.reference) = true ∧
          (n.reference == target) = true) = (n.reference == target) := by
      intro n
      by_cases hn : n.reference = target
      · simp [hn, Ne.symm h]
      · simp [hn]
    rw [if_neg h, funext same]
    simp [h]

theorem reference_of_message? {s : Schema} {target : MessageRef} {m : Message}
    (h : s.message? target = some m) : m.reference = target := by
  simpa using List.find?_some h

theorem mem_of_message? {s : Schema} {target : MessageRef} {m : Message}
    (h : s.message? target = some m) : m ∈ s.messages :=
  List.mem_of_find?_eq_some h

end Schema

end AccessChecks
