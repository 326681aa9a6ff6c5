import AccessChecks.Proofs.AgreeingSchemas
import AccessChecks.Proofs.ResourceReachability

/-!
# Discovery within reach

## Messages in reach

A request reaches the message that it refers to, and with every message all those that
its fields refer to, whatever the shapes of the fields.

## Schemas that differ elsewhere

Two schemas answer a request alike if they do so for its own reference and for those in
all fields of the messages in reach.  This is the case exactly if no message in reach is
registered, replaced or removed between them.  Then discovery, the resolution of methods
and their bodies are the same in both.
-/

namespace AccessChecks

namespace Schema

inductive Reaches (s : Schema) (request : MessageRef) : Message → Prop where
  | request {m : Message} : s.message? request = some m → Reaches s request m
  | field {m n : Message} {f : Field} {target : MessageRef} :
      Reaches s request m → f ∈ m.fields → f.type.messageTarget = some target →
      s.message? target = some n → Reaches s request n

/-- The schemas look up alike what can be looked up from a request. -/
structure AnswersAlike (s s' : Schema) (request : MessageRef) : Prop where
  start : s.message? request = s'.message? request
  field {m : Message} {f : Field} {target : MessageRef} :
    s.Reaches request m → f ∈ m.fields → f.type.messageTarget = some target →
      s.message? target = s'.message? target

/-- Where the schemas differ, neither of them has a message in reach of the request. -/
def DiffersOutOfReach (s s' : Schema) (request : MessageRef) : Prop :=
  ∀ target, s.message? target ≠ s'.message? target →
    (∀ m, s.message? target = some m → ¬ s.Reaches request m) ∧
    ∀ m, s'.message? target = some m → ¬ s'.Reaches request m

variable {s s' : Schema} {request : MessageRef}

namespace AnswersAlike

theorem agreeOn (alike : AnswersAlike s s' request) :
    AgreeOn s s' (s.Reaches request) :=
  { lookup := alike.field
    closed := fun hm hf htarget found => Reaches.field hm hf htarget found }

theorem reaches_iff (alike : AnswersAlike s s' request) {m : Message} :
    s.Reaches request m ↔ s'.Reaches request m := by
  constructor
  · intro h
    induction h with
    | request found =>
        rw [alike.start] at found
        exact Reaches.request found
    | field hm hf htarget found ih =>
        rw [alike.field hm hf htarget] at found
        exact Reaches.field ih hf htarget found
  · intro h
    induction h with
    | request found =>
        rw [← alike.start] at found
        exact Reaches.request found
    | field _ hf htarget found ih =>
        rw [← alike.field ih hf htarget] at found
        exact Reaches.field ih hf htarget found

theorem message?_reference (alike : AnswersAlike s s' request) {m : Message}
    (h : s.Reaches request m) :
    s.message? m.reference = s'.message? m.reference := by
  cases h with
  | request found =>
      rw [reference_of_message? found]
      exact alike.start
  | field hm hf htarget found =>
      rw [reference_of_message? found]
      exact alike.field hm hf htarget

theorem differsOutOfReach (alike : AnswersAlike s s' request) :
    DiffersOutOfReach s s' request := by
  intro target hdiffer
  constructor
  · intro m found reached
    have hsame := alike.message?_reference reached
    rw [reference_of_message? found] at hsame
    exact hdiffer hsame
  · intro m found reached
    have hsame := alike.message?_reference (alike.reaches_iff.mpr reached)
    rw [reference_of_message? found] at hsame
    exact hdiffer hsame

theorem resolve_eq (alike : AnswersAlike s s' request) {method : Method}
    (hinput : method.input = request) (service : String) :
    method.resolve s service = method.resolve s' service := by
  subst hinput
  exact alike.agreeOn.resolve_eq alike.start (fun _ => Reaches.request) service

end AnswersAlike

namespace DiffersOutOfReach

theorem message?_eq (differs : DiffersOutOfReach s s' request) {target : MessageRef}
    (h : ∀ m, s.message? target = some m → s.Reaches request m)
    (h' : ∀ m, s'.message? target = some m → s'.Reaches request m) :
    s.message? target = s'.message? target := by
  apply Classical.byContradiction
  intro hdiffer
  have hnone : s.message? target = none := by
    apply Option.eq_none_iff_forall_ne_some.mpr
    intro m found
    exact (differs target hdiffer).1 m found (h m found)
  have hnone' : s'.message? target = none := by
    apply Option.eq_none_iff_forall_ne_some.mpr
    intro m found
    exact (differs target hdiffer).2 m found (h' m found)
  exact hdiffer (hnone.trans hnone'.symm)

theorem message?_request (differs : DiffersOutOfReach s s' request) :
    s.message? request = s'.message? request :=
  differs.message?_eq (fun _ => Reaches.request) (fun _ => Reaches.request)

theorem reaches (differs : DiffersOutOfReach s s' request) {m : Message}
    (h : s.Reaches request m) : s'.Reaches request m := by
  induction h with
  | request found =>
      rw [differs.message?_request] at found
      exact Reaches.request found
  | field hm hf htarget found ih =>
      have hsame := differs.message?_eq
        (fun _ => Reaches.field hm hf htarget) (fun _ => Reaches.field ih hf htarget)
      rw [hsame] at found
      exact Reaches.field ih hf htarget found

theorem answersAlike (differs : DiffersOutOfReach s s' request) :
    AnswersAlike s s' request :=
  { start := differs.message?_request
    field := fun hm hf htarget => differs.message?_eq
      (fun _ => Reaches.field hm hf htarget)
      (fun _ => Reaches.field (differs.reaches hm) hf htarget) }

end DiffersOutOfReach

theorem differsOutOfReach_addMessage {m : Message}
    (hnew : ¬ (s.addMessage m).Reaches request m)
    (hold : ∀ old, s.message? m.reference = some old → ¬ s.Reaches request old) :
    DiffersOutOfReach s (s.addMessage m) request := by
  intro target hdiffer
  rw [message?_addMessage] at hdiffer
  by_cases hreference : m.reference = target
  · subst hreference
    refine ⟨hold, ?_⟩
    intro n found
    rw [message?_addMessage, if_pos rfl] at found
    cases found
    exact hnew
  · rw [if_neg hreference] at hdiffer
    exact absurd rfl hdiffer

theorem mem_messages_of_reaches {m : Message} (h : s.Reaches request m) :
    m ∈ s.messages := by
  cases h with
  | request found => exact mem_of_message? found
  | field _ _ _ found => exact mem_of_message? found

theorem answersAlike_addMessage {m : Message} (hrequest : request ≠ m.reference)
    (hfields : ∀ n ∈ s.messages, ∀ f ∈ n.fields,
      f.type.messageTarget ≠ some m.reference) :
    AnswersAlike s (s.addMessage m) request := by
  have hlookup : ∀ target, target ≠ m.reference →
      s.message? target = (s.addMessage m).message? target := by
    intro target hne
    rw [message?_addMessage, if_neg hne.symm]
  constructor
  · exact hlookup request hrequest
  · intro n f target hn hf htarget
    apply hlookup
    intro hsame
    rw [hsame] at htarget
    exact hfields n (mem_messages_of_reaches hn) f hf htarget

end Schema

open Schema in
/-- What is discovered for a request and reported on the way depends on the messages in
its reach alone.  So do its methods and their bodies.  Schemas that differ out of its
reach only cannot be told apart, and one of them may be the other with one message more. -/
theorem discover_is_local (s s' : Schema) (request : MessageRef) :
    (s.AnswersAlike s' request ↔ s.DiffersOutOfReach s' request) ∧
    (s.AnswersAlike s' request →
      discover s request = discover s' request ∧
      ∀ service (method : Method), method.input = request →
        method.resolve s service = method.resolve s' service ∧
        (method.resolve s service).1.body = (method.resolve s' service).1.body) ∧
    ∀ m, ¬ (s.addMessage m).Reaches request m →
      (∀ old, s.message? m.reference = some old → ¬ s.Reaches request old) →
      s.AnswersAlike (s.addMessage m) request := by
  refine ⟨⟨AnswersAlike.differsOutOfReach, DiffersOutOfReach.answersAlike⟩, ?_, ?_⟩
  · intro alike
    constructor
    · exact alike.agreeOn.discover_eq alike.start (fun _ => Reaches.request)
    · intro service method hinput
      have hresolve := alike.resolve_eq hinput service
      exact ⟨hresolve, by rw [hresolve]⟩
  · intro m hnew hold
    exact (differsOutOfReach_addMessage hnew hold).answersAlike

namespace Sample

def auditMessage : Message :=
  { package := "", name := "Audit", resourceType := some "audit"
    fields := [⟨"folder", .single (.message ⟨"Folder"⟩), false, true, {}⟩] }

def getMethod : Method :=
  { name := "Get", input := ⟨"Get"⟩, permission := some "view" }

theorem answersAlike_audit :
    folderSchema.AnswersAlike (folderSchema.addMessage auditMessage) ⟨"Get"⟩ := by
  have hreference : auditMessage.reference = ⟨"Audit"⟩ := by
    cbv
  apply Schema.answersAlike_addMessage
  · rw [hreference]
    decide
  · intro m hm f hf
    rw [hreference]
    revert f
    revert m
    decide

end Sample

theorem discover_is_local_audit :
    folderSchema.AnswersAlike (folderSchema.addMessage Sample.auditMessage) ⟨"Get"⟩ ∧
      discover folderSchema ⟨"Get"⟩ =
        discover (folderSchema.addMessage Sample.auditMessage) ⟨"Get"⟩ ∧
      Sample.getMethod.resolve folderSchema "Folders" =
        Sample.getMethod.resolve (folderSchema.addMessage Sample.auditMessage)
          "Folders" := by
  have alike := Sample.answersAlike_audit
  rcases (discover_is_local _ _ _).2.1 alike with ⟨hdiscover, hmethods⟩
  exact ⟨alike, hdiscover, (hmethods "Folders" Sample.getMethod rfl).1⟩

end AccessChecks
