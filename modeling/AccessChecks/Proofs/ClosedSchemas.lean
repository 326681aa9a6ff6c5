import AccessChecks.Proofs.DeclarationOrder
import AccessChecks.Proofs.LinkedReferences
import AccessChecks.Proofs.QualifiedNames
import AccessChecks.Proofs.ReorderedRequests

/-!
# Closed schemas

## References

The type of a field and the input of a method name messages of the pool.  The values of
a map are messages that its entry names.

## Registry

A schema has every message of its pool under the full name of its declaration, but no
entry of a map.  Different declarations have different names.

## Closed schemas

So every reference in a schema leads to the message that the declaration names, unless
that is an entry of a map.
-/

namespace AccessChecks

namespace Descriptor

namespace Pool

/-!
## References
-/

structure NamesMessage (p : Pool) (f : FileDecl) (fits : NameKind → Bool)
    (scope name : String) (g : FileDecl) (n : MessageDecl) : Prop where
  file : g ∈ p.files
  message : n ∈ g.messages
  resolved : p.resolve? f fits scope name = some ⟨g.messageName n, .message, g.name⟩

def HasMessageType (p : Pool) (f : FileDecl) (scope : String) (d : FieldDecl)
    (g : FileDecl) (n : MessageDecl) : Prop :=
  ∃ name, d.typeName = some name ∧
    p.NamesMessage f NameKind.isType scope name g n

/-- What the values of a field are messages of.  The values of a map are those of the
second field of its entries. -/
inductive HoldsMessagesOf (p : Pool) (f : FileDecl) (scope : String) (d : FieldDecl)
    (g : FileDecl) (n : MessageDecl) : FieldType → Prop where
  | single {kind : Kind} :
      p.HasMessageType f scope d g n → HoldsMessagesOf p f scope d g n (.single kind)
  | list {kind : Kind} :
      p.HasMessageType f scope d g n → HoldsMessagesOf p f scope d g n (.list kind)
  | map {key : Scalar} {kind : Kind} {h : FileDecl} {entry : MessageDecl}
      {value : FieldDecl} :
      p.HasMessageType f scope d h entry → entry.isMapEntry = true →
      value ∈ entry.fields → value.number = 2 →
      p.HasMessageType h (h.messageName entry) value g n →
      HoldsMessagesOf p f scope d g n (.map key kind)

variable {p : Pool} {f : FileDecl} {scope : String} {d : FieldDecl}

theorem exists_namesMessage {fits : NameKind → Bool} {name : String}
    {found : DeclaredName} (h : p.resolve? f fits scope name = some found)
    (hkind : found.kind = .message) :
    ∃ g n, p.NamesMessage f fits scope name g n := by
  rcases mem_of_resolveName? h with ⟨hmem, _⟩
  rw [p.names_eq] at hmem
  rcases exists_placed_of_mem_namesOf hmem hkind with ⟨g, hg, n, hn, rfl⟩
  exact ⟨g, n, hg, hn, h⟩

theorem eq_message_of_isType {kind : NameKind} (h : kind.isType = true)
    (henum : kind ≠ .enum) : kind = .message := by
  cases kind with
  | message => rfl
  | enum => exact absurd rfl henum
  | package => cases h
  | service => cases h
  | extension => cases h
  | member => cases h

theorem kindOf_of_typeName_eq_none (h : d.typeName = none) :
    (p.kindOf f scope d).message? = none := by
  rw [kindOf, kindOf?, h]
  cases d.kind <;> rfl

theorem kindOf_of_resolve? {name : String} {found : DeclaredName}
    (htype : d.typeName = some name)
    (hfound : p.resolve? f NameKind.isType scope name = some found) :
    p.kindOf f scope d =
      if found.kind = .enum then .enum found.name
      else .message (.ofName found.name) := by
  rw [kindOf, kindOf?, htype]
  simp only [hfound, Option.map_some, DeclaredKind.named]
  by_cases henum : found.kind = .enum
  · rw [if_pos henum, if_pos henum]
  · rw [if_neg henum, if_neg henum]
    by_cases hgroup : d.kind = .group
    · rw [if_pos hgroup]
    · rw [if_neg hgroup]

theorem exists_hasMessageType {target : MessageRef}
    (h : (p.kindOf f scope d).message? = some target) :
    ∃ g n, p.HasMessageType f scope d g n ∧ target = .ofName (g.messageName n) := by
  cases htype : d.typeName with
  | none =>
      rw [kindOf_of_typeName_eq_none htype] at h
      cases h
  | some name =>
      cases hfound : p.resolve? f NameKind.isType scope name with
      | none =>
          rw [kindOf, kindOf?, htype] at h
          simp only [hfound, Option.map_none] at h
          cases h
      | some found =>
          rw [kindOf_of_resolve? htype hfound] at h
          split at h
          · cases h
          · rename_i henum
            have hkind := eq_message_of_isType (mem_of_resolveName? hfound).2 henum
            rcases exists_namesMessage hfound hkind with ⟨g, n, hnames⟩
            refine ⟨g, n, ⟨name, htype, hnames⟩, ?_⟩
            cases hfound.symm.trans hnames.resolved
            cases h
            rfl

theorem typeOf_of_not_repeated (h : d.label ≠ .repeated) :
    p.typeOf f scope d = .single (p.kindOf f scope d) := by
  rw [typeOf]
  cases hlabel : d.label with
  | optional => rfl
  | required => rfl
  | repeated => exact absurd hlabel h

theorem typeOf_of_repeated (h : d.label = .repeated) :
    p.typeOf f scope d = .list (p.kindOf f scope d) ∨
      ∃ target g n, (p.kindOf f scope d).message? = some target ∧
        p.message? target.name = some (g, n) ∧
        p.mapOf? g n = some (p.typeOf f scope d) := by
  have htypeOf : p.typeOf f scope d =
      (((p.kindOf f scope d).message?.bind fun target => p.message? target.name).bind
        fun declared => p.mapOf? declared.1 declared.2).getD
          (.list (p.kindOf f scope d)) := by
    rw [typeOf, h]
  cases hmap : ((p.kindOf f scope d).message?.bind fun target =>
      p.message? target.name).bind fun declared => p.mapOf? declared.1 declared.2 with
  | none =>
      rw [hmap] at htypeOf
      exact Or.inl htypeOf
  | some type =>
      rw [hmap, Option.getD_some] at htypeOf
      rcases Option.bind_eq_some_iff.mp hmap with ⟨⟨g, n⟩, hentry, htype⟩
      rcases Option.bind_eq_some_iff.mp hentry with ⟨target, htarget, hfound⟩
      exact Or.inr ⟨target, g, n, htarget, hfound, htypeOf ▸ htype⟩

theorem exists_value_of_mapOf? {g : FileDecl} {n : MessageDecl} {type : FieldType}
    (h : p.mapOf? g n = some type) :
    n.isMapEntry = true ∧ ∃ key, ∃ value ∈ n.fields, value.number = 2 ∧
      type = .map key (p.kindOf g (g.messageName n) value) := by
  rcases Option.bind_eq_some_iff.mp h with ⟨_, hguard, hrest⟩
  rcases Option.bind_eq_some_iff.mp hrest with ⟨key, _, hrest⟩
  rcases Option.bind_eq_some_iff.mp hrest with ⟨value, hvalue, hsome⟩
  have hentry : n.isMapEntry = true := by
    by_contra hno
    rw [guard, if_neg hno] at hguard
    cases hguard
  have hnumber := List.find?_some hvalue
  cases hsome
  exact ⟨hentry, _, value, List.mem_of_find?_eq_some hvalue, eq_of_beq hnumber, rfl⟩

theorem eq_of_messageName_eq (agree : namesAgree p.names = true) {g : FileDecl}
    {m n : MessageDecl} (hf : f ∈ p.files) (hm : m ∈ f.messages) (hg : g ∈ p.files)
    (hn : n ∈ g.messages) (heq : f.messageName m = g.messageName n) :
    (f, m) = (g, n) := by
  rw [p.names_eq] at agree
  exact List.inj_on_of_nodup_map (nodup_placedMessages agree)
    (mem_placedMessages.mpr ⟨hf, hm⟩) (mem_placedMessages.mpr ⟨hg, hn⟩) heq

/-!
## Registry
-/

structure HasIdentifiers (p : Pool) : Prop where
  packages : ∀ f ∈ p.files,
    ∃ parts, AreIdentifiers parts ∧ f.package = ".".intercalate parts
  parents : ∀ f ∈ p.files, ∀ m ∈ f.messages, AreIdentifiers m.parents
  names : ∀ f ∈ p.files, ∀ m ∈ f.messages, Name.isIdentifier m.name = true

section Registry

variable {m : MessageDecl} {v : Vocabulary} (named : p.HasIdentifiers)

include named

namespace HasIdentifiers

theorem exists_messageOf (hf : f ∈ p.files) (hm : m ∈ f.messages) :
    ∃ parts, (p.messageOf v f m).HasIdentifiers parts := by
  rcases named.packages f hf with ⟨parts, hparts, hpackage⟩
  exact ⟨parts,
    { package := hpackage
      parts := hparts
      parents := named.parents f hf m hm
      name := named.names f hf m hm }⟩

theorem reference_messageOf (hf : f ∈ p.files) (hm : m ∈ f.messages) :
    (p.messageOf v f m).reference = ⟨f.messageName m⟩ := by
  rcases named.exists_messageOf (v := v) hf hm with ⟨parts, hmessage⟩
  rw [hmessage.reference, ← hmessage.qualify_nest]
  rfl

theorem ofName_messageName (hf : f ∈ p.files) (hm : m ∈ f.messages) :
    MessageRef.ofName (f.messageName m) = ⟨f.messageName m⟩ := by
  rcases named.exists_messageOf (v := p.vocabulary "") hf hm with ⟨parts, hmessage⟩
  rw [← named.reference_messageOf (v := p.vocabulary "") hf hm, Message.reference,
    ← hmessage.qualify_nest]
  rfl

variable (agree : namesAgree p.names = true)

include agree

theorem nodup_references (v : Vocabulary) :
    ((placedMessages p.files).map fun placed =>
      (p.messageOf v placed.1 placed.2).reference).Nodup := by
  rw [p.names_eq] at agree
  have hreferences : ((placedMessages p.files).map fun placed =>
      (p.messageOf v placed.1 placed.2).reference) =
        ((placedMessages p.files).map fun placed =>
          placed.1.messageName placed.2).map MessageRef.mk := by
    rw [List.map_map]
    apply List.map_congr_left
    rintro ⟨g, n⟩ hplaced
    rcases mem_placedMessages.mp hplaced with ⟨hg, hn⟩
    exact named.reference_messageOf hg hn
  rw [hreferences]
  exact (nodup_placedMessages agree).map fun _ _ heq => MessageRef.mk.inj heq

theorem nodup_messages (v : Vocabulary) :
    ((p.messages v).map Message.reference).Nodup := by
  apply List.Nodup.sublist _ (named.nodup_references agree v)
  rw [messages, placedMessages, List.map_flatMap, List.map_flatMap]
  apply List.Sublist.flatMap_right
  intro g _
  rw [List.map_map, List.map_map]
  exact (List.filter_sublist (l := g.messages)).map _

theorem exists_holdsMessagesOf {target : MessageRef}
    (h : (p.typeOf f scope d).messageTarget = some target) :
    ∃ g n, p.HoldsMessagesOf f scope d g n (p.typeOf f scope d) ∧
      target = .ofName (g.messageName n) := by
  by_cases hlabel : d.label = .repeated
  · rcases typeOf_of_repeated hlabel with hlist | ⟨entryTarget, g, n, hentry, hfound, hmap⟩
    · rw [hlist] at h ⊢
      rcases exists_hasMessageType h with ⟨g, n, htype, rfl⟩
      exact ⟨g, n, HoldsMessagesOf.list htype, rfl⟩
    · rcases exists_value_of_mapOf? hmap with ⟨hflag, key, value, hvalue, hnumber, htype⟩
      rw [htype] at h ⊢
      rcases exists_hasMessageType h with ⟨g', n', hvalueType, rfl⟩
      rcases exists_hasMessageType hentry with ⟨k, entry, hentryType, rfl⟩
      -- the entry that the declaration names is the one that is found
      have hsame : (g, n) = (k, entry) := by
        rcases hentryType with ⟨_, _, hnames⟩
        rw [p.message?_eq, named.ofName_messageName hnames.file hnames.message] at hfound
        rcases mem_placedMessages.mp (List.mem_of_find?_eq_some hfound) with ⟨hg, hn⟩
        have hname := List.find?_some hfound
        exact eq_of_messageName_eq agree hg hn hnames.file hnames.message
          (eq_of_beq hname)
      cases hsame
      exact ⟨g', n', HoldsMessagesOf.map hentryType hflag hvalue hnumber hvalueType, rfl⟩
  · rw [typeOf_of_not_repeated hlabel] at h ⊢
    rcases exists_hasMessageType h with ⟨g, n, htype, rfl⟩
    exact ⟨g, n, HoldsMessagesOf.single htype, rfl⟩

end HasIdentifiers

end Registry

theorem mem_messages_iff {v : Vocabulary} {message : Message} :
    message ∈ p.messages v ↔
      ∃ f ∈ p.files, ∃ m ∈ f.messages, m.isMapEntry = false ∧
        message = p.messageOf v f m := by
  rw [messages, List.mem_flatMap]
  constructor
  · rintro ⟨f, hf, hmem⟩
    rcases List.mem_map.mp hmem with ⟨m, hm, rfl⟩
    rcases List.mem_filter.mp hm with ⟨hm, hentry⟩
    exact ⟨f, hf, m, hm, by simpa using hentry, rfl⟩
  · rintro ⟨f, hf, m, hm, hentry, rfl⟩
    exact ⟨f, hf, List.mem_map_of_mem (List.mem_filter.mpr ⟨hm, by simp [hentry]⟩)⟩

theorem type_fieldOf (p : Pool) (v : Vocabulary) (f : FileDecl) (scope : String)
    (d : FieldDecl) : (p.fieldOf v f scope d).type = p.typeOf f scope d := by
  rw [fieldOf]
  cases isOptional f d <;> rfl

theorem HasIdentifiers.message?_messageOf (named : p.HasIdentifiers)
    (agree : namesAgree p.names = true) {v : Vocabulary} {m : MessageDecl}
    (files : List SchemaFile) (hf : f ∈ p.files) (hm : m ∈ f.messages) :
    (Schema.ofMessages (p.messages v) files).message? (p.messageOf v f m).reference =
      if m.isMapEntry then none else some (p.messageOf v f m) := by
  have hunique : ∀ n ∈ p.messages v, (n.reference == (p.messageOf v f m).reference) = true →
      n = p.messageOf v f m ∧ m.isMapEntry = false := by
    intro n hn hkey
    rcases mem_messages_iff.mp hn with ⟨g, hg, k, hk, hentry, rfl⟩
    have hname := eq_of_beq hkey
    rw [named.reference_messageOf hg hk, named.reference_messageOf hf hm] at hname
    cases eq_of_messageName_eq agree hg hk hf hm (MessageRef.mk.inj hname)
    exact ⟨rfl, hentry⟩
  have hfound : (Schema.ofMessages (p.messages v) files).message?
      (p.messageOf v f m).reference =
        ((p.messages v).find? fun n => n.reference == (p.messageOf v f m).reference) := by
    have hadded := Schema.message?_foldl_addMessage (named.nodup_messages agree v) {}
      (p.messageOf v f m).reference
    exact hadded.trans Option.or_none
  rw [hfound]
  cases hentry : m.isMapEntry with
  | true =>
      rw [if_pos rfl, List.find?_eq_none]
      intro n hn hkey
      rw [(hunique n hn hkey).2] at hentry
      cases hentry
  | false =>
      rw [if_neg Bool.false_ne_true]
      exact find?_eq_some_of_unique (mem_messages_iff.mpr ⟨f, hf, m, hm, hentry, rfl⟩)
        (beq_self_eq_true _) fun n hn hkey => (hunique n hn hkey).1

end Pool

end Descriptor

/-!
## Closed schemas
-/

open Descriptor

/-- A reference leads to the message of a declaration, or nowhere if the declaration is
an entry of a map. -/
structure Schema.LeadsToDecl (s : Schema) (p : Pool) (v : Vocabulary)
    (target : MessageRef) (g : FileDecl) (n : MessageDecl) : Prop where
  reference : target = (p.messageOf v g n).reference
  found : s.message? target = if n.isMapEntry then none else some (p.messageOf v g n)

/-- The messages of a schema are those of a pool, without the entries of maps, and every
reference in it leads to the message that is declared. -/
structure Schema.IsClosedFor (s : Schema) (p : Pool) (v : Vocabulary) : Prop where
  keys : ((placedMessages p.files).map fun placed =>
    (p.messageOf v placed.1 placed.2).reference).Nodup
  messages : ∀ message, message ∈ s.messages ↔
    ∃ f ∈ p.files, ∃ m ∈ f.messages, m.isMapEntry = false ∧
      message = p.messageOf v f m
  entries : ∀ f ∈ p.files, ∀ m ∈ f.messages, m.isMapEntry = true →
    s.message? (p.messageOf v f m).reference = none
  fields : ∀ message ∈ s.messages, ∀ field ∈ message.fields, ∀ target,
    field.type.messageTarget = some target →
    ∃ f ∈ p.files, ∃ m ∈ f.messages, ∃ d ∈ Pool.fieldsOf m,
      message = p.messageOf v f m ∧ field = p.fieldOf v f (f.messageName m) d ∧
      ∃ g n, p.HoldsMessagesOf f (f.messageName m) d g n field.type ∧
        s.LeadsToDecl p v target g n
  inputs : ∀ file ∈ s.files, ∀ service ∈ file.services, ∀ method ∈ service.methods,
    ∃ f ∈ p.files, ∃ sd ∈ f.services, ∃ md ∈ sd.methods,
      file = p.schemaFile v f ∧ method = p.methodOf v f sd md ∧
      ∃ g n, p.NamesMessage f (· == .message) (f.serviceName sd) md.input g n ∧
        s.LeadsToDecl p v method.input g n

theorem Descriptor.Pool.HasMessageType.mem {p : Pool} {f g : FileDecl} {scope : String}
    {d : FieldDecl} {n : MessageDecl} (h : p.HasMessageType f scope d g n) :
    g ∈ p.files ∧ n ∈ g.messages := by
  rcases h with ⟨_, _, hnames⟩
  exact ⟨hnames.file, hnames.message⟩

theorem Descriptor.Pool.HoldsMessagesOf.mem {p : Pool} {f g : FileDecl} {scope : String}
    {d : FieldDecl} {n : MessageDecl} {type : FieldType}
    (h : p.HoldsMessagesOf f scope d g n type) : g ∈ p.files ∧ n ∈ g.messages := by
  cases h with
  | single htype => exact htype.mem
  | list htype => exact htype.mem
  | map _ _ _ _ htype => exact htype.mem

theorem Descriptor.Pool.Describes.exists_declared {p : Pool} {annotations : String}
    {wanted : List String} {s : Schema} (h : p.Describes annotations wanted s)
    {file : SchemaFile} (hfile : file ∈ s.files) :
    ∃ f ∈ p.files, file = p.schemaFile (p.vocabulary annotations) f := by
  have hfiles := h.files
  clear h
  generalize s.files = files at hfiles hfile
  induction hfiles with
  | nil => cases hfile
  | cons hfirst _ ih =>
      rcases List.mem_cons.mp hfile with rfl | hrest
      · rcases hfirst with ⟨f, hfound, hsame⟩
        exact ⟨f, List.mem_of_find?_eq_some hfound, hsame⟩
      · exact ih hrest

theorem Descriptor.Pool.NamesMessage.input_methodOf {p : Pool} {v : Vocabulary}
    {f g : FileDecl} {n : MessageDecl} {sd : ServiceDecl} {md : MethodDecl}
    (h : p.NamesMessage f (· == .message) (f.serviceName sd) md.input g n) :
    (p.methodOf v f sd md).input = .ofName (g.messageName n) := by
  rw [Pool.methodOf]
  simp only [Pool.resolveMessage?, h.resolved, Option.map_some, Option.getD_some]

section Describes

variable {p : Pool} {annotations : String} {wanted : List String} {s : Schema}
  (named : p.HasIdentifiers) (agree : namesAgree p.names = true)
  (h : p.Describes annotations wanted s)

include named agree h

namespace Descriptor.Pool.Describes

theorem message?_messageOf {f : FileDecl} {m : MessageDecl} (hf : f ∈ p.files)
    (hm : m ∈ f.messages) :
    s.message? (p.messageOf (p.vocabulary annotations) f m).reference =
      if m.isMapEntry then none
      else some (p.messageOf (p.vocabulary annotations) f m) := by
  rw [h.messages]
  exact named.message?_messageOf agree _ hf hm

theorem mem_messages_iff {message : Message} :
    message ∈ s.messages ↔
      ∃ f ∈ p.files, ∃ m ∈ f.messages, m.isMapEntry = false ∧
        message = p.messageOf (p.vocabulary annotations) f m := by
  constructor
  · intro hmem
    rw [h.messages] at hmem
    exact Pool.mem_messages_iff.mp (Schema.mem_of_mem_ofMessages hmem)
  · rintro ⟨f, hf, m, hm, hentry, rfl⟩
    have hfound := h.message?_messageOf named agree hf hm
    rw [hentry, if_neg Bool.false_ne_true] at hfound
    exact Schema.mem_of_message? hfound

theorem leadsToDecl {g : FileDecl} {n : MessageDecl} (hg : g ∈ p.files)
    (hn : n ∈ g.messages) :
    s.LeadsToDecl p (p.vocabulary annotations) (.ofName (g.messageName n)) g n := by
  have hreference : MessageRef.ofName (g.messageName n) =
      (p.messageOf (p.vocabulary annotations) g n).reference := by
    rw [named.ofName_messageName hg hn, named.reference_messageOf hg hn]
  refine ⟨hreference, ?_⟩
  rw [hreference]
  exact h.message?_messageOf named agree hg hn

theorem leadsToDecl_of_field {f : FileDecl} {scope : String} {d : FieldDecl}
    {target : MessageRef}
    (htarget : (p.fieldOf (p.vocabulary annotations) f scope d).type.messageTarget =
      some target) :
    ∃ g n, p.HoldsMessagesOf f scope d g n
        (p.fieldOf (p.vocabulary annotations) f scope d).type ∧
      s.LeadsToDecl p (p.vocabulary annotations) target g n := by
  rw [Pool.type_fieldOf] at htarget ⊢
  rcases named.exists_holdsMessagesOf agree htarget with ⟨g, n, hholds, rfl⟩
  exact ⟨g, n, hholds, h.leadsToDecl named agree hholds.mem.1 hholds.mem.2⟩

theorem leadsToDecl_of_input {f : FileDecl} {sd : ServiceDecl} {md : MethodDecl}
    {d : DeclaredName}
    (resolved : p.resolve? f (· == .message) (f.serviceName sd) md.input = some d) :
    ∃ g n, p.NamesMessage f (· == .message) (f.serviceName sd) md.input g n ∧
      s.LeadsToDecl p (p.vocabulary annotations)
        (p.methodOf (p.vocabulary annotations) f sd md).input g n := by
  have hkind := (mem_of_resolveName? resolved).2
  rcases Pool.exists_namesMessage resolved (eq_of_beq hkind) with ⟨g, n, hnames⟩
  refine ⟨g, n, hnames, ?_⟩
  rw [hnames.input_methodOf]
  exact h.leadsToDecl named agree hnames.file hnames.message

end Descriptor.Pool.Describes

end Describes

/-- The schema of a linked pool is closed. -/
theorem schema_of_link?_isClosed {files : List FileDecl} {p : Pool}
    (linked : Pool.link? files = some p) (named : p.HasIdentifiers)
    {annotations : String} {wanted : List String} {s : Schema}
    (adapted : p.schema annotations wanted = .ok s) :
    s.IsClosedFor p (p.vocabulary annotations) := by
  have agree := Pool.namesAgree_of_link? linked
  have hdescribes := Pool.schema_eq_ok_iff.mp adapted
  constructor
  case keys => exact named.nodup_references agree _
  case messages => exact fun _ => hdescribes.mem_messages_iff named agree
  case entries =>
    intro f hf m hm hentry
    rw [hdescribes.message?_messageOf named agree hf hm, hentry, if_pos rfl]
  case fields =>
    intro message hmessage field hfield target htarget
    rcases (hdescribes.mem_messages_iff named agree).mp hmessage with
      ⟨f, hf, m, hm, _, rfl⟩
    rcases List.mem_map.mp hfield with ⟨d, hd, rfl⟩
    exact ⟨f, hf, m, hm, d, hd, rfl, rfl,
      hdescribes.leadsToDecl_of_field named agree htarget⟩
  case inputs =>
    intro file hfile service hservice method hmethod
    rcases hdescribes.exists_declared hfile with ⟨f, hf, rfl⟩
    rcases List.mem_map.mp hservice with ⟨sd, hsd, rfl⟩
    rcases List.mem_map.mp hmethod with ⟨md, hmd, rfl⟩
    rcases Pool.exists_input_of_link? linked hf hsd hmd with ⟨d, hd⟩
    exact ⟨f, hf, sd, hsd, md, hmd, rfl, rfl,
      hdescribes.leadsToDecl_of_input named agree hd⟩

/-!
## Orders
-/

namespace Sample

def orderMessage : MessageDecl :=
  plainMessage "Order"
    [messageField "parent" 1 .optional "Order",
      messageField "parts" 2 .repeated ".shop.Order.Parts"]

def partsMessage : MessageDecl :=
  { plainMessage "Parts" [textField "key" 1, messageField "value" 2 .optional ".shop.Order"]
    with
    parents := ["Order"]
    options := some { records := [.number 7 1] } }

def orderService : ServiceDecl :=
  ⟨"Orders", [⟨"Place", ".shop.Order", ".shop.Order", none⟩], none⟩

def shopFile : FileDecl :=
  { plainFile "shop.proto" "shop" [orderMessage, partsMessage] with
    services := [orderService] }

def shopPool : Pool := Pool.ofFiles [shopFile]

/-!
### Names
-/

def shopNames : List DeclaredName :=
  [⟨"shop", .package, "shop.proto"⟩, ⟨"shop.Order", .message, "shop.proto"⟩,
    ⟨"shop.Order.parent", .member, "shop.proto"⟩,
    ⟨"shop.Order.parts", .member, "shop.proto"⟩,
    ⟨"shop.Order.Parts", .message, "shop.proto"⟩,
    ⟨"shop.Order.Parts.key", .member, "shop.proto"⟩,
    ⟨"shop.Order.Parts.value", .member, "shop.proto"⟩,
    ⟨"shop.Orders", .service, "shop.proto"⟩,
    ⟨"shop.Orders.Place", .member, "shop.proto"⟩]

theorem names_shopPool : shopPool.names = shopNames := by
  have hscopes : scopesFrom "shop" = ["shop", ""] := by
    rw [scopesFrom, splitOn_dot]
    rfl
  have hpackage : shopFile.packageNames = ["shop"] := by
    change (scopesFrom "shop").filter _ = _
    rw [hscopes]
    rfl
  change namesOf [shopFile] = _
  rw [namesOf, List.flatMap_singleton, FileDecl.declaredNames, hpackage]
  rfl

theorem resolve?_order {fits : NameKind → Bool} (h : fits .message = true)
    (scope : String) :
    shopPool.resolve? shopFile fits scope ".shop.Order" =
      some ⟨"shop.Order", .message, "shop.proto"⟩ := by
  have hsplit : ".shop.Order".splitOn "." = ["", "shop", "Order"] := by
    rw [splitOn_dot]
    rfl
  rw [Pool.resolve?, resolveName?, names_shopPool, hsplit]
  change findName? _ _ _ "shop.Order" = _
  simp [findName?, shopNames, h, visibleFrom, shopFile, plainFile]

theorem resolve?_parts (scope : String) :
    shopPool.resolve? shopFile NameKind.isType scope ".shop.Order.Parts" =
      some ⟨"shop.Order.Parts", .message, "shop.proto"⟩ := by
  have hsplit : ".shop.Order.Parts".splitOn "." = ["", "shop", "Order", "Parts"] := by
    rw [splitOn_dot]
    rfl
  rw [Pool.resolve?, resolveName?, names_shopPool, hsplit]
  rfl

theorem resolve?_parent :
    shopPool.resolve? shopFile NameKind.isType "shop.Order" "Order" =
      some ⟨"shop.Order", .message, "shop.proto"⟩ := by
  have hsplit : "Order".splitOn "." = ["Order"] := by
    rw [splitOn_dot]
    rfl
  have hscopes : scopesFrom "shop.Order" = ["shop.Order", "shop", ""] := by
    rw [scopesFrom, splitOn_dot]
    rfl
  rw [Pool.resolve?, resolveName?, names_shopPool, hsplit]
  change (scopesFrom "shop.Order").findSome? _ = _
  rw [hscopes]
  rfl

/-!
### Linking
-/

theorem resolvesTypes_shopFile : shopPool.resolvesTypes shopFile = true := by
  simp only [Pool.resolvesTypes, Bool.and_eq_true, List.all_eq_true]
  constructor
  · intro m hm d hd
    rcases List.mem_pair.mp hm with rfl | rfl
    · rcases List.mem_pair.mp hd with rfl | rfl
      · exact Pool.resolvesField_of_resolve? rfl rfl resolve?_parent
      · exact Pool.resolvesField_of_resolve? rfl rfl (resolve?_parts _)
    · rcases List.mem_pair.mp hd with rfl | rfl
      · rfl
      · exact Pool.resolvesField_of_resolve? rfl rfl (resolve?_order rfl _)
  · intro s hs m hm
    rw [List.mem_singleton.mp hs] at hm
    rw [List.mem_singleton.mp hm, Pool.resolvesMethod]
    simp only [Pool.resolveMessage?]
    rw [resolve?_order rfl]
    rfl

theorem isConsistent_shopPool : shopPool.isConsistent = true := by
  simp only [Pool.isConsistent, Bool.and_eq_true]
  refine ⟨⟨⟨⟨⟨⟨?_, ?_⟩, ?_⟩, ?_⟩, ?_⟩, ?_⟩, ?_⟩
  · decide
  · rfl
  · rw [names_shopPool]
    decide
  · decide
  · exact List.all_eq_true.mpr fun f hf => by
      rw [List.mem_singleton.mp hf, resolvesTypes_shopFile]
  · rfl
  · rfl

theorem linkMessage?_partsMessage :
    shopPool.linkMessage? shopFile partsMessage = some partsMessage := by
  have hholder : shopPool.holderOf .message = .standard .message := by
    have hnone : shopPool.message? OptionsTarget.message.fullName = none := rfl
    rw [Pool.holderOf, hnone]
    rfl
  have hoptions : ∀ scope, shopPool.linkOptions? shopFile scope .message
      partsMessage.options = some partsMessage.options := by
    intro scope
    change (if shopPool.conformsTo .message [.number 7 1] then _ else none) = _
    rw [Pool.conformsTo, hholder]
    rfl
  unfold Pool.linkMessage?
  dsimp only
  rw [hoptions]
  rfl

theorem link?_shopFile : Pool.link? [shopFile] = some shopPool := by
  have horder : shopPool.linkMessage? shopFile orderMessage = some orderMessage := rfl
  have hfile : shopPool.linkFile? shopFile = some shopFile := by
    unfold Pool.linkFile?
    change ([orderMessage, partsMessage].mapM (shopPool.linkMessage? shopFile)).bind _ = _
    rw [List.mapM_cons, List.mapM_cons, horder, linkMessage?_partsMessage]
    rfl
  have hconsistent : (Pool.ofFiles [shopFile]).isConsistent = true := isConsistent_shopPool
  rw [Pool.link?_of_isConsistent hconsistent]
  change ([shopFile].mapM shopPool.linkFile?).map _ = _
  rw [List.mapM_cons, hfile]
  rfl

theorem hasIdentifiers_shopPool : shopPool.HasIdentifiers := by
  have hfile : ∀ f ∈ shopPool.files, f = shopFile := fun f hf => List.mem_singleton.mp hf
  have hmessage : ∀ m ∈ shopFile.messages, m = orderMessage ∨ m = partsMessage :=
    fun m hm => List.mem_pair.mp hm
  constructor
  · intro f hf
    rw [hfile f hf]
    exact ⟨["shop"], areIdentifiers_singleton (by decide), rfl⟩
  · intro f hf m hm
    rw [hfile f hf] at hm
    rcases hmessage m hm with rfl | rfl
    · exact fun _ hpart => absurd hpart List.not_mem_nil
    · exact areIdentifiers_singleton (by decide)
  · intro f hf m hm
    rw [hfile f hf] at hm
    rcases hmessage m hm with rfl | rfl
    · decide
    · decide

end Sample

theorem schema_of_shopPool_isClosed :
    Pool.link? [Sample.shopFile] = some Sample.shopPool ∧
    Sample.shopPool.HasIdentifiers ∧
    ∃ s, Sample.shopPool.schema "permit.v1" ["shop.proto"] = .ok s ∧
      s.IsClosedFor Sample.shopPool (Sample.shopPool.vocabulary "permit.v1") := by
  have adapted : Sample.shopPool.schema "permit.v1" ["shop.proto"] = .ok
      (.ofMessages (Sample.shopPool.messages (Sample.shopPool.vocabulary "permit.v1"))
        [Sample.shopPool.schemaFile (Sample.shopPool.vocabulary "permit.v1")
          Sample.shopFile]) := rfl
  exact ⟨Sample.link?_shopFile, Sample.hasIdentifiers_shopPool, _, adapted,
    schema_of_link?_isClosed Sample.link?_shopFile Sample.hasIdentifiers_shopPool adapted⟩

end AccessChecks
