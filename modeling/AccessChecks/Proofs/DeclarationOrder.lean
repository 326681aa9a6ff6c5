import Mathlib
import AccessChecks.Descriptor.Schema
import AccessChecks.Proofs.AgreeingSchemas
import AccessChecks.Proofs.ConvertedLists
import AccessChecks.Proofs.LinkedParts
import AccessChecks.Proofs.QualifiedNames

/-!
# Order of declaration

## Linked pools

Linking sets options and leaves everything else as it is.  So the fields of a message
in a linked pool have distinct names and distinct numbers, like those in the files that
the pool is made of.

## Numbers and positions

The fields of a registered message stand in the order of their numbers.  That is the
order of their declaration exactly if the numbers ascend in it.  Where they do in every
message, discovery finds what is declared first.
-/

namespace AccessChecks

namespace Descriptor

open Pool

namespace MessageDecl

/-- Fields are told apart by their names and by their numbers. -/
structure FieldsApart (m : MessageDecl) : Prop where
  names : (m.fields.map FieldDecl.name).Nodup
  numbers : (m.fields.map FieldDecl.number).Nodup

/-- The fields that are members of no choice, in the order of declaration. -/
def plainFields (m : MessageDecl) : List FieldDecl :=
  m.fields.filter fun d => !isChoice d

/-- The numbers of these fields ascend in the order of declaration. -/
def Ascends (m : MessageDecl) : Prop :=
  m.plainFields.Pairwise fun d e => d.number < e.number

end MessageDecl

/-!
## Linked pools
-/

theorem sublist_flatMap_of_mem {α β : Type} {l : List α} {a : α} (ha : a ∈ l)
    (f : α → List β) : (f a).Sublist (l.flatMap f) := by
  have hone := (List.singleton_sublist.mpr ha).flatMap f
  rwa [List.flatMap_singleton] at hone

theorem fieldNames_sublist {f : FileDecl} {m : MessageDecl} (hm : m ∈ f.messages) :
    (m.fields.map fun d =>
        (⟨qualify (f.messageName m) d.name, .member, f.name⟩ : DeclaredName)).Sublist
      f.declaredNames := by
  have hmembers : (m.fields.map fun d =>
      (qualify (f.messageName m) d.name, NameKind.member)).Sublist
        (f.messageNames m) := by
    rw [FileDecl.messageNames, List.map_append, List.map_map]
    exact List.Sublist.cons _ (List.sublist_append_left _ _)
  have hmessages := hmembers.trans (sublist_flatMap_of_mem hm f.messageNames)
  have hnamed := ((((hmessages.trans
    (List.sublist_append_right (f.packageNames.map fun name => (name, .package)) _)).trans
      (List.sublist_append_left _ (f.enums.flatMap f.enumNames))).trans
        (List.sublist_append_left _
          (f.extensions.map fun e => (f.extensionName e, .extension)))).trans
            (List.sublist_append_left _ (f.services.flatMap f.serviceNames)))
  have hdeclared := hnamed.map fun entry => (⟨entry.1, entry.2, f.name⟩ : DeclaredName)
  rw [List.map_map] at hdeclared
  exact hdeclared

theorem nodup_memberNames {p : Pool} (h : p.isConsistent = true) :
    ((p.names.filter fun d => d.kind != .package).map DeclaredName.name).Nodup := by
  simp only [Pool.isConsistent, Bool.and_eq_true] at h
  have hagree : namesAgree p.names = true := h.1.1.1.1.2
  rw [namesAgree, Bool.and_eq_true, isDistinct_iff_nodup] at hagree
  exact hagree.1

theorem fieldsApart_of_isConsistent {p : Pool} (h : p.isConsistent = true)
    {f : FileDecl} (hf : f ∈ p.files) {m : MessageDecl} (hm : m ∈ f.messages) :
    m.FieldsApart := by
  have hfile : f.isConsistent = true := by
    simp only [Pool.isConsistent, Bool.and_eq_true, List.all_eq_true] at h
    exact h.1.1.1.2 f hf
  have hmessage : m.isConsistent f.dialect = true := by
    simp only [FileDecl.isConsistent, Bool.and_eq_true, List.all_eq_true] at hfile
    exact hfile.1.2 m hm
  constructor
  · have hnames : p.names = p.files.flatMap FileDecl.declaredNames := p.names_eq
    have hsub := (fieldNames_sublist hm).trans
      (sublist_flatMap_of_mem hf FileDecl.declaredNames)
    rw [← hnames] at hsub
    have hothers := (hsub.filter fun d => d.kind != .package).map DeclaredName.name
    have hnodup := (nodup_memberNames h).sublist hothers
    rw [List.filter_eq_self.mpr ?_, List.map_map] at hnodup
    · apply List.Nodup.of_map (qualify (f.messageName m))
      rw [List.map_map]
      exact hnodup
    · intro d hd
      rcases List.mem_map.mp hd with ⟨_, _, rfl⟩
      rfl
  · simp only [MessageDecl.isConsistent, Bool.and_eq_true] at hmessage
    exact (isDistinct_iff_nodup _).mp hmessage.1.2

theorem map_eq_of_linkMessage? {γ : Type} {p : Pool} {f : FileDecl}
    {m m' : MessageDecl} (linked : p.linkMessage? f m = some m') (read : FieldDecl → γ)
    (hread : ∀ d options, read { d with options := options } = read d) :
    m'.fields.map read = m.fields.map read := by
  rcases exists_parts_of_linkMessage? linked with ⟨fields, _, _, _, hfields, _, _, _, rfl⟩
  apply map_eq_of_mapM hfields
  intro d d' hd
  rcases exists_options_of_linkField? hd with ⟨options, _, rfl⟩
  exact hread d options

theorem fieldsApart_of_link? {files : List FileDecl} {p : Pool}
    (linked : Pool.link? files = some p) {f : FileDecl} (hf : f ∈ p.files)
    {m : MessageDecl} (hm : m ∈ f.messages) : m.FieldsApart := by
  rcases exists_linked_of_link? linked with ⟨linkedFiles, hconsistent, hfiles, rfl⟩
  rw [files_ofFiles] at hf
  rcases exists_of_mem_mapM hfiles f hf with ⟨g, hg, hlinkFile⟩
  rcases exists_parts_of_linkFile? hlinkFile with
    ⟨messages, _, _, _, _, hmessages, _, _, _, _, rfl⟩
  rcases exists_of_mem_mapM hmessages m hm with ⟨n, hn, hlinkMessage⟩
  have happart := fieldsApart_of_isConsistent hconsistent hg hn
  constructor
  · rw [map_eq_of_linkMessage? hlinkMessage FieldDecl.name fun _ _ => rfl]
    exact happart.names
  · rw [map_eq_of_linkMessage? hlinkMessage FieldDecl.number fun _ _ => rfl]
    exact happart.numbers

/-!
## Numbers and positions
-/

theorem fieldsOf_perm (m : MessageDecl) : (fieldsOf m).Perm m.plainFields :=
  (List.mergeSort_perm _ _).filter _

theorem pairwise_fieldsOf {m : MessageDecl} (h : m.FieldsApart) :
    (fieldsOf m).Pairwise fun d e => d.number < e.number := by
  have hsorted : (m.fields.mergeSort fun d e => d.number ≤ e.number).Pairwise
      fun d e => decide (d.number ≤ e.number) = true := by
    apply List.pairwise_mergeSort
    · intro a b c hab hbc
      exact decide_eq_true
        (Nat.le_trans (of_decide_eq_true hab) (of_decide_eq_true hbc))
    · intro a b
      rw [Bool.or_eq_true, decide_eq_true_iff, decide_eq_true_iff]
      exact Nat.le_total a.number b.number
  have hapart : (m.fields.mergeSort fun d e => d.number ≤ e.number).Pairwise
      fun d e => d.number ≠ e.number := by
    have hnodup := ((List.mergeSort_perm m.fields
      fun d e => d.number ≤ e.number).map FieldDecl.number).nodup_iff.mpr h.numbers
    exact List.pairwise_map.mp hnodup
  apply List.Pairwise.filter
  refine (hsorted.and hapart).imp ?_
  rintro d e ⟨hle, hne⟩
  exact Nat.lt_of_le_of_ne (of_decide_eq_true hle) hne

theorem fieldsOf_eq_plainFields_iff {m : MessageDecl} (h : m.FieldsApart) :
    fieldsOf m = m.plainFields ↔ m.Ascends := by
  constructor
  · intro heq
    rw [MessageDecl.Ascends, ← heq]
    exact pairwise_fieldsOf h
  · intro hascends
    apply List.Perm.eq_of_pairwise ?_ (pairwise_fieldsOf h) hascends (fieldsOf_perm m)
    intro d e _ _ hlt hgt
    exact absurd hgt (Nat.lt_asymm hlt)

theorem eq_of_perm_of_map_eq {α β : Type} {name : α → β} {l l' : List α}
    (hperm : l.Perm l') (hnames : (l'.map name).Nodup)
    (heq : l.map name = l'.map name) : l = l' := by
  apply List.ext_getElem hperm.length_eq
  intro i hi hi'
  have hname : name l[i] = name l'[i] := by
    have hget := List.getElem_of_eq heq (by simpa using hi)
    simpa using hget
  exact List.inj_on_of_nodup_map hnames (hperm.subset (List.getElem_mem hi))
    (List.getElem_mem hi') hname

theorem messageOf_fields_eq_iff {m : MessageDecl} (h : m.FieldsApart) (p : Pool)
    (v : Vocabulary) (f : FileDecl) :
    (p.messageOf v f m).fields =
        m.plainFields.map (p.fieldOf v f (f.messageName m)) ↔ m.Ascends := by
  rw [← fieldsOf_eq_plainFields_iff h, messageOf]
  constructor
  · intro heq
    have hnames := congrArg (List.map Field.name) heq
    rw [List.map_map, List.map_map] at hnames
    have hfieldName : Field.name ∘ p.fieldOf v f (f.messageName m) = FieldDecl.name := by
      funext d
      rw [Function.comp_apply, fieldOf]
      split <;> rfl
    rw [hfieldName] at hnames
    exact eq_of_perm_of_map_eq (fieldsOf_perm m)
      (h.names.sublist ((List.filter_sublist).map FieldDecl.name)) hnames
  · intro heq
    rw [heq]

/-!
## Schemas
-/

namespace Pool

def declaredMessageOf (p : Pool) (v : Vocabulary) (f : FileDecl) (m : MessageDecl) :
    Message :=
  { p.messageOf v f m with
    fields := m.plainFields.map (p.fieldOf v f (f.messageName m)) }

def declaredSchema (p : Pool) (annotations : String) : Schema :=
  .ofMessages
    (p.files.flatMap fun f =>
      (f.messages.filter fun m => !m.isMapEntry).map
        (p.declaredMessageOf (p.vocabulary annotations) f)) []

theorem exists_ofMessages_of_schema {p : Pool} {annotations : String}
    {wanted : List String} {s : Schema} (h : p.schema annotations wanted = .ok s) :
    ∃ files, s = .ofMessages (p.messages (p.vocabulary annotations)) files := by
  rw [schema] at h
  dsimp only [bind, Except.bind] at h
  split at h
  · cases h
  · rename_i files _
    cases h
    exact ⟨files, rfl⟩

theorem messages_eq_declared {p : Pool} {annotations : String}
    (apart : ∀ f ∈ p.files, ∀ m ∈ f.messages, m.FieldsApart)
    (ascends : ∀ f ∈ p.files, ∀ m ∈ f.messages, m.isMapEntry = false → m.Ascends) :
    (Schema.ofMessages (p.messages (p.vocabulary annotations)) []) =
      p.declaredSchema annotations := by
  rw [declaredSchema, messages]
  congr 1
  apply List.flatMap_congr
  intro f hf
  apply List.map_congr_left
  intro m hm
  rcases List.mem_filter.mp hm with ⟨hmem, hentry⟩
  have hfields := (messageOf_fields_eq_iff (apart f hf m hmem) p
    (p.vocabulary annotations) f).mpr (ascends f hf m hmem (by simpa using hentry))
  rw [declaredMessageOf, ← hfields]

end Pool

end Descriptor

namespace Schema

theorem mem_of_mem_addMessage {s : Schema} {m n : Message}
    (h : n ∈ (s.addMessage m).messages) : n ∈ s.messages ∨ n = m := by
  rcases List.mem_append.mp h with hold | hnew
  · exact Or.inl (List.mem_filter.mp hold).1
  · exact Or.inr (List.mem_singleton.mp hnew)

theorem mem_of_mem_foldl_addMessage {messages : List Message} {s : Schema}
    {m : Message} (h : m ∈ (messages.foldl addMessage s).messages) :
    m ∈ s.messages ∨ m ∈ messages := by
  induction messages generalizing s with
  | nil => exact Or.inl h
  | cons n rest ih =>
      rcases ih h with hadded | hrest
      · rcases mem_of_mem_addMessage hadded with hold | rfl
        · exact Or.inl hold
        · exact Or.inr List.mem_cons_self
      · exact Or.inr (List.mem_cons_of_mem n hrest)

theorem mem_of_mem_ofMessages {messages : List Message} {files : List SchemaFile}
    {m : Message} (h : m ∈ (ofMessages messages files).messages) : m ∈ messages := by
  rcases mem_of_mem_foldl_addMessage h with hnone | hmem
  · cases hnone
  · exact hmem

end Schema

open Descriptor

/-- The message stands for a declaration that is no entry of a map.  Its fields are
those that are members of no choice, in the order of their numbers, which is the order
of declaration exactly if the numbers ascend in it. -/
structure AdaptedByNumber (p : Pool) (v : Vocabulary) (f : FileDecl) (m : MessageDecl)
    (message : Message) : Prop where
  notEntry : m.isMapEntry = false
  package : message.package = f.package
  parents : message.parents = m.parents
  name : message.name = m.name
  fields : ∃ ordered : List FieldDecl, ordered.Perm m.plainFields ∧
    (ordered.Pairwise fun d e => d.number < e.number) ∧
    message.fields = ordered.map (p.fieldOf v f (f.messageName m))
  asDeclared :
    message.fields = m.plainFields.map (p.fieldOf v f (f.messageName m)) ↔ m.Ascends

/-- The fields of the messages in the schema of a linked pool stand in the order of
their numbers.  Where the numbers ascend in every declaration, discovery finds the same
as in the order of declaration. -/
theorem schema_fields_by_number {files : List FileDecl} {p : Pool}
    (linked : Pool.link? files = some p) {annotations : String} {wanted : List String}
    {s : Schema} (adapted : p.schema annotations wanted = .ok s) :
    (∀ message ∈ s.messages, ∃ f ∈ p.files, ∃ m ∈ f.messages,
      AdaptedByNumber p (p.vocabulary annotations) f m message) ∧
    ((∀ f ∈ p.files, ∀ m ∈ f.messages, m.isMapEntry = false → m.Ascends) →
      ∀ request, discover s request =
        discover (p.declaredSchema annotations) request) := by
  have apart : ∀ f ∈ p.files, ∀ m ∈ f.messages, m.FieldsApart :=
    fun f hf m hm => fieldsApart_of_link? linked hf hm
  rcases Pool.exists_ofMessages_of_schema adapted with ⟨wantedFiles, rfl⟩
  constructor
  · intro message hmessage
    rcases List.mem_flatMap.mp (Schema.mem_of_mem_ofMessages hmessage) with
      ⟨f, hf, hmem⟩
    rcases List.mem_map.mp hmem with ⟨m, hm, rfl⟩
    rcases List.mem_filter.mp hm with ⟨hm, hentry⟩
    refine ⟨f, hf, m, hm, ?_⟩
    exact
      { notEntry := by simpa using hentry
        package := rfl
        parents := rfl
        name := rfl
        fields := ⟨Pool.fieldsOf m, fieldsOf_perm m,
          pairwise_fieldsOf (apart f hf m hm), rfl⟩
        asDeclared := messageOf_fields_eq_iff (apart f hf m hm) p _ f }
  · intro ascends request
    rw [← Pool.messages_eq_declared apart ascends]
    have hlookups :
        (Schema.ofMessages (p.messages (p.vocabulary annotations))
          wantedFiles).message? =
        (Schema.ofMessages (p.messages (p.vocabulary annotations)) []).message? :=
      rfl
    exact (Schema.agreeOn_of_message?_eq hlookups).discover_eq
      (congrFun hlookups request) fun _ _ => trivial

theorem Descriptor.Pool.resolvesField_of_resolve? {p : Pool} {f : FileDecl}
    {scope name : String} {d : FieldDecl} {found : DeclaredName}
    (htype : d.typeName = some name) (hdefault : d.default = none)
    (hfound : p.resolve? f NameKind.isType scope name = some found) :
    p.resolvesField f scope d = true := by
  rw [Pool.resolvesField, Pool.kindOf?, htype]
  simp only [hfound, Option.map_some, Option.any_some, hdefault, Option.all_none]

open Wire (bytesOfText)

namespace Sample

def textField (name : String) (number : Nat) : FieldDecl :=
  { name := name
    number := number
    label := .optional
    kind := .scalar .string
    typeName := none
    extendee := none
    choice := none
    jsonName := none
    default := none
    explicitOptional := false
    options := none }

def messageField (name : String) (number : Nat) (label : Label) (type : String) :
    FieldDecl :=
  { textField name number with
    label := label
    kind := .message
    typeName := some type }

def plainMessage (name : String) (fields : List FieldDecl) : MessageDecl :=
  { parents := []
    name := name
    fields := fields
    oneofs := []
    extensible := []
    reserved := []
    options := none }

def plainFile (name package : String) (messages : List MessageDecl) : FileDecl :=
  { name := name
    package := package
    imports := []
    publicImports := []
    weakImports := []
    messages := messages
    enums := []
    extensions := []
    services := []
    dialect := .proto3
    options := none }

/-!
### A request with two resources
-/

def optionsName : String := ".google.protobuf.MessageOptions"

def typeExtension : ExtensionDecl :=
  ⟨[], { textField "resource_type" 1000 with extendee := some optionsName }⟩

def optionsMessage : MessageDecl :=
  { plainMessage "MessageOptions" [] with extensible := [⟨⟨1000, 2000⟩, none⟩] }

def optionsFile : FileDecl :=
  { plainFile "options.proto" "google.protobuf" [optionsMessage] with
    extensions := [typeExtension]
    dialect := .proto2 }

def typedMessage (name : String) : MessageDecl :=
  { plainMessage name [textField "id" 1] with
    options := some ⟨[.block 1000 (bytesOfText name)], []⟩ }

def requestMessage (report note : Nat) : MessageDecl :=
  plainMessage "GetRequest"
    [messageField "report" report .optional ".Report",
      messageField "note" note .optional ".Note"]

def shareFile (report note : Nat) : FileDecl :=
  { plainFile "share.proto" ""
      [requestMessage report note, typedMessage "Note", typedMessage "Report"] with
    imports := ["options.proto"] }

def shareNames : List DeclaredName :=
  [⟨"google.protobuf", .package, "options.proto"⟩, ⟨"google", .package, "options.proto"⟩,
    ⟨"google.protobuf.MessageOptions", .message, "options.proto"⟩,
    ⟨"google.protobuf.resource_type", .extension, "options.proto"⟩,
    ⟨"GetRequest", .message, "share.proto"⟩,
    ⟨"GetRequest.report", .member, "share.proto"⟩,
    ⟨"GetRequest.note", .member, "share.proto"⟩,
    ⟨"Note", .message, "share.proto"⟩, ⟨"Note.id", .member, "share.proto"⟩,
    ⟨"Report", .message, "share.proto"⟩, ⟨"Report.id", .member, "share.proto"⟩]

section

variable (report note : Nat)

theorem namesOf_shareFiles :
    namesOf [optionsFile, shareFile report note] = shareNames := by
  have hpackage : optionsFile.packageNames = ["google.protobuf", "google"] := by
    show (scopesFrom "google.protobuf").filter _ = _
    rw [scopesFrom, splitOn_dot]
    rfl
  have hoptions : optionsFile.declaredNames = shareNames.take 4 := by
    rw [FileDecl.declaredNames, hpackage]
    rfl
  have hshare : (shareFile report note).declaredNames = shareNames.drop 4 := by
    cbv
  rw [namesOf, List.flatMap_cons, List.flatMap_singleton, hoptions, hshare]
  rfl

theorem resolveName?_optionsName (names : List DeclaredName) (visible : List String)
    (fits : NameKind → Bool) (scope : String) :
    resolveName? names visible fits scope optionsName =
      findName? names visible fits "google.protobuf.MessageOptions" := by
  have hsplit : optionsName.splitOn "." = ["", "google", "protobuf", "MessageOptions"] := by
    rw [splitOn_dot]
    rfl
  rw [resolveName?, hsplit]
  rfl

def placedType : PlacedExtension :=
  ⟨"google.protobuf.MessageOptions", optionsFile, typeExtension⟩

theorem extensionsIn_shareFiles :
    extensionsIn [optionsFile, shareFile report note] = [placedType] := by
  unfold extensionsIn
  rw [namesOf_shareFiles]
  simp only [optionsFile, shareFile, plainFile, typeExtension, List.flatMap_cons,
    List.flatMap_nil, List.filterMap_cons, List.filterMap_nil, Option.bind_eq_bind,
    Option.bind_some, resolveName?_optionsName]
  rfl

def sharePool : Pool :=
  { files := [optionsFile, shareFile report note]
    names := shareNames
    extensions := [placedType]
    names_eq := (namesOf_shareFiles report note).symm
    extensions_eq := (extensionsIn_shareFiles report note).symm }

theorem resolve?_shared {name : String} (h : name ∈ ["Note", "Report"]) (scope : String) :
    (sharePool report note).resolve? (shareFile report note) NameKind.isType scope ("." ++ name) =
      some ⟨name, .message, "share.proto"⟩ := by
  have hsplit : ("." ++ name).splitOn "." = ["", name] := by
    rw [splitOn_dot]
    rw [List.mem_pair] at h
    rcases h with rfl | rfl
    · rfl
    · rfl
  rw [Pool.resolve?, resolveName?, hsplit]
  rw [List.mem_pair] at h
  rcases h with rfl | rfl
  · rfl
  · rfl

theorem resolvesTypes_shareFile :
    (sharePool report note).resolvesTypes (shareFile report note) = true := by
  simp only [Pool.resolvesTypes, Bool.and_eq_true, List.all_eq_true]
  constructor
  · intro m hm d hd
    rcases List.mem_cons.mp hm with rfl | hm
    · rcases List.mem_pair.mp hd with rfl | rfl
      · exact Pool.resolvesField_of_resolve? rfl rfl
          (@resolve?_shared report note "Report" (by decide) _)
      · exact Pool.resolvesField_of_resolve? rfl rfl
          (@resolve?_shared report note "Note" (by decide) _)
    · rcases List.mem_pair.mp hm with rfl | rfl
      · rw [List.mem_singleton.mp hd]
        rfl
      · rw [List.mem_singleton.mp hd]
        rfl
  · intro service hservice
    exact absurd hservice List.not_mem_nil

theorem isConsistent_sharePool
    (h : MessageDecl.isConsistent .proto3 (requestMessage report note) = true) :
    (sharePool report note).isConsistent = true := by
  have hshare : (shareFile report note).isConsistent = true := by
    rw [FileDecl.isConsistent]
    simp only [shareFile, plainFile, List.all_cons, h]
    rfl
  simp only [Pool.isConsistent, Bool.and_eq_true]
  refine ⟨⟨⟨⟨⟨⟨?_, ?_⟩, ?_⟩, ?_⟩, ?_⟩, ?_⟩, ?_⟩
  · rfl
  · rfl
  · rfl
  · show (_ && (_ && true)) = true
    rw [hshare]
    rfl
  · show (_ && (_ && true)) = true
    rw [resolvesTypes_shareFile]
    rfl
  · rfl
  · rfl

theorem link?_shareFiles
    (h : MessageDecl.isConsistent .proto3 (requestMessage report note) = true) :
    Pool.link? [optionsFile, shareFile report note] = some (sharePool report note) := by
  have hpool : Pool.ofFiles [optionsFile, shareFile report note] = sharePool report note :=
    (sharePool report note).eq_ofFiles.symm
  have hlinked : [optionsFile, shareFile report note].mapM (sharePool report note).linkFile? =
      some [optionsFile, shareFile report note] := by
    rfl
  rw [Pool.link?_of_isConsistent (hpool ▸ isConsistent_sharePool report note h), hpool, hlinked,
    Option.map_some, hpool]

def typeVocabulary : Vocabulary :=
  ⟨some ⟨1000, .scalar .string, false⟩, none, none, none, none, none, none, none⟩

theorem vocabulary_sharePool :
    (sharePool report note).vocabulary "google.protobuf" = typeVocabulary := by
  rfl

def shareField (name target : String) : Field :=
  ⟨name, .single (.message ⟨target⟩), false, true, {}⟩

theorem fieldOf_shared {name : String} (h : name ∈ ["Note", "Report"])
    (scope member : String) (number : Nat) :
    (sharePool report note).fieldOf typeVocabulary (shareFile report note) scope
        (messageField member number .optional ("." ++ name)) = shareField member name := by
  have hkind : (sharePool report note).kindOf? (shareFile report note) scope
      (messageField member number .optional ("." ++ name)) = some (.message name) := by
    unfold Pool.kindOf?
    show Option.map _ (Pool.resolve? _ _ _ _ ("." ++ name)) = _
    rw [resolve?_shared report note h]
    rfl
  unfold Pool.fieldOf Pool.typeOf Pool.kindOf
  rw [hkind]
  rw [List.mem_pair] at h
  rcases h with rfl | rfl
  · rfl
  · rfl

def registeredMessage (name : String) : Message :=
  { package := ""
    name := name
    resourceType := some name
    fields := [⟨"id", .single (.scalar .string), false, false, {}⟩] }

def registeredRequest (fields : List Field) : Message :=
  { package := "", name := "GetRequest", fields := fields }

def registeredOptions : Message :=
  { package := "google.protobuf", name := "MessageOptions" }

def shareSchema (fields : List Field) : Schema :=
  { messages :=
      [registeredOptions, registeredRequest fields, registeredMessage "Note",
        registeredMessage "Report"] }

theorem reference_registeredOptions :
    registeredOptions.reference = ⟨"google.protobuf.MessageOptions"⟩ := by
  rw [Message.reference, Message.fullName, registeredOptions, splitOn_dot]
  decide +kernel

end

section

variable (fields : List Field)

theorem isIdentifier_getRequest : Name.isIdentifier "GetRequest" = true := by
  decide

theorem fullName_registeredRequest : (registeredRequest fields).fullName = "GetRequest" :=
  fullName_of_global rfl rfl isIdentifier_getRequest

theorem reference_registeredRequest :
    (registeredRequest fields).reference = ⟨"GetRequest"⟩ :=
  reference_of_global rfl rfl isIdentifier_getRequest

section

variable {name : String} (h : name ∈ ["Note", "Report"])
include h

theorem isIdentifier_shared : Name.isIdentifier name = true := by
  rcases List.mem_pair.mp h with rfl | rfl
  · decide
  · decide

theorem fullName_registeredMessage : (registeredMessage name).fullName = name :=
  fullName_of_global rfl rfl (isIdentifier_shared h)

theorem reference_registeredMessage : (registeredMessage name).reference = ⟨name⟩ :=
  reference_of_global rfl rfl (isIdentifier_shared h)

end

theorem ofMessages_share :
    Schema.ofMessages (shareSchema fields).messages [] = shareSchema fields := by
  simp [Schema.ofMessages, shareSchema, Schema.addMessage, reference_registeredOptions,
    reference_registeredRequest, reference_registeredMessage]

theorem message?_request :
    (shareSchema fields).message? ⟨"GetRequest"⟩ = some (registeredRequest fields) := by
  simp [Schema.message?, shareSchema, reference_registeredOptions,
    reference_registeredRequest]

theorem message?_share {name : String} (h : name ∈ ["Note", "Report"]) :
    (shareSchema fields).message? ⟨name⟩ = some (registeredMessage name) := by
  rcases List.mem_pair.mp h with rfl | rfl
  · simp [Schema.message?, shareSchema, reference_registeredOptions,
      reference_registeredRequest, reference_registeredMessage]
  · simp [Schema.message?, shareSchema, reference_registeredOptions,
      reference_registeredRequest, reference_registeredMessage]

theorem discover_share {target : String} (h : target ∈ ["Note", "Report"]) (first : String)
    (rest : List Field) :
    (discover (shareSchema (shareField first target :: rest)) ⟨"GetRequest"⟩).1.map
      Resource.name = some target := by
  have hother : target ≠ "GetRequest" := by
    rcases List.mem_pair.mp h with rfl | rfl
    · decide
    · decide
  have hentered : (shareField first target).resourceTarget.bind
      ((shareSchema (shareField first target :: rest)).enter ["GetRequest"]) =
        some (registeredMessage target) := by
    show Schema.enter _ _ ⟨target⟩ = _
    rw [Schema.enter_eq_some_iff, fullName_registeredMessage h]
    exact ⟨message?_share _ h, by simpa using hother⟩
  have hbelow : ∃ label path, resourceBelow (shareSchema (shareField first target :: rest))
      ["GetRequest"] ⟨requestRoot, []⟩ (shareField first target :: rest) =
        some ⟨registeredMessage target, label, path⟩ := by
    rw [resourceBelow]
    split
    · rename_i hnone
      cases hnone.symm.trans hentered
    · rename_i message hsome
      cases hsome.symm.trans hentered
      exact ⟨_, _, rfl⟩
  rcases hbelow with ⟨label, path, hbelow⟩
  have hsite : ((shareSchema (shareField first target :: rest)).message? ⟨"GetRequest"⟩).bind
      (findResource (shareSchema (shareField first target :: rest)) ⟨requestRoot, []⟩) =
        some ⟨registeredMessage target, label, path⟩ := by
    rw [message?_request, Option.bind_some, findResource, fullName_registeredRequest]
    exact hbelow
  rw [discover, hsite]
  exact congrArg some (fullName_registeredMessage h)

end

theorem messageOf_typedMessage (report note : Nat) {name : String}
    (h : name ∈ ["Note", "Report"]) :
    (sharePool report note).messageOf typeVocabulary (shareFile report note) (typedMessage name) =
      registeredMessage name := by
  have hfields : Pool.fieldsOf (typedMessage name) = [textField "id" 1] := by
    cbv
  have htype : typeVocabulary.resourceTypeOf (typedMessage name) = some name := by
    rcases List.mem_pair.mp h with rfl | rfl
    · cbv
    · cbv
  rw [Pool.messageOf, hfields, htype]
  rfl

theorem messageOf_requestMessage_swapped :
    (sharePool 2 1).messageOf typeVocabulary (shareFile 2 1) (requestMessage 2 1) =
      registeredRequest [shareField "note" "Note", shareField "report" "Report"] := by
  have hfields : Pool.fieldsOf (requestMessage 2 1) =
      [messageField "note" 1 .optional ("." ++ "Note"),
        messageField "report" 2 .optional ("." ++ "Report")] := by
    cbv
  rw [Pool.messageOf, hfields, List.map_cons, List.map_singleton,
    fieldOf_shared _ _ (by decide), fieldOf_shared _ _ (by decide)]
  rfl

theorem messageOf_requestMessage_straight :
    (sharePool 1 2).messageOf typeVocabulary (shareFile 1 2) (requestMessage 1 2) =
      registeredRequest [shareField "report" "Report", shareField "note" "Note"] := by
  have hfields : Pool.fieldsOf (requestMessage 1 2) =
      [messageField "report" 1 .optional ("." ++ "Report"),
        messageField "note" 2 .optional ("." ++ "Note")] := by
    cbv
  rw [Pool.messageOf, hfields, List.map_cons, List.map_singleton,
    fieldOf_shared _ _ (by decide), fieldOf_shared _ _ (by decide)]
  rfl

theorem schema_of_messageOf {report note : Nat} {fields : List Field}
    (h : (sharePool report note).messageOf typeVocabulary (shareFile report note)
      (requestMessage report note) = registeredRequest fields) :
    (sharePool report note).schema "google.protobuf" [] = .ok (shareSchema fields) := by
  have hoptions : (sharePool report note).messageOf typeVocabulary optionsFile optionsMessage =
      registeredOptions := by
    cbv
  have hmessages : (sharePool report note).messages typeVocabulary =
      (shareSchema fields).messages := by
    show [Pool.messageOf _ _ _ optionsMessage, Pool.messageOf _ _ _ (requestMessage _ _),
      Pool.messageOf _ _ _ (typedMessage _), Pool.messageOf _ _ _ (typedMessage _)] = _
    rw [hoptions, h, messageOf_typedMessage _ _ (by decide),
      messageOf_typedMessage _ _ (by decide)]
    rfl
  unfold Pool.schema
  dsimp only
  rw [vocabulary_sharePool, hmessages]
  show Except.ok (Schema.ofMessages _ []) = _
  rw [ofMessages_share]

theorem declaredSchema_sharePool (report note : Nat) :
    (sharePool report note).declaredSchema "google.protobuf" =
      shareSchema [shareField "report" "Report", shareField "note" "Note"] := by
  have hrequest : (sharePool report note).declaredMessageOf typeVocabulary
      (shareFile report note) (requestMessage report note) =
        registeredRequest [shareField "report" "Report", shareField "note" "Note"] := by
    have hfields : (requestMessage report note).plainFields =
        [messageField "report" report .optional ("." ++ "Report"),
          messageField "note" note .optional ("." ++ "Note")] := rfl
    rw [Pool.declaredMessageOf, hfields, List.map_cons, List.map_singleton,
      fieldOf_shared _ _ (by decide), fieldOf_shared _ _ (by decide)]
    rfl
  have hoptions : (sharePool report note).declaredMessageOf typeVocabulary optionsFile
      optionsMessage = registeredOptions := by
    cbv
  have htyped : ∀ name ∈ ["Note", "Report"],
      (sharePool report note).declaredMessageOf typeVocabulary (shareFile report note)
        (typedMessage name) = registeredMessage name := by
    intro name hname
    rw [Pool.declaredMessageOf, messageOf_typedMessage _ _ hname]
    rfl
  have hmessages : ([optionsFile, shareFile report note].flatMap fun f =>
      (f.messages.filter fun m => !m.isMapEntry).map
        ((sharePool report note).declaredMessageOf typeVocabulary f)) =
      (shareSchema [shareField "report" "Report", shareField "note" "Note"]).messages := by
    show [Pool.declaredMessageOf _ _ _ optionsMessage,
      Pool.declaredMessageOf _ _ _ (requestMessage _ _),
      Pool.declaredMessageOf _ _ _ (typedMessage _),
      Pool.declaredMessageOf _ _ _ (typedMessage _)] = _
    rw [hoptions, hrequest, htyped _ (by decide), htyped _ (by decide)]
    rfl
  rw [Pool.declaredSchema, vocabulary_sharePool]
  show Schema.ofMessages (List.flatMap _ [optionsFile, shareFile report note]) [] = _
  rw [hmessages, ofMessages_share]

theorem ascends_sharePool :
    ∀ f ∈ (sharePool 1 2).files, ∀ m ∈ f.messages, m.isMapEntry = false → m.Ascends := by
  intro f hf m hm _
  rcases List.mem_pair.mp hf with rfl | rfl
  · rw [List.mem_singleton.mp hm]
    exact List.Pairwise.nil
  · rcases List.mem_cons.mp hm with rfl | hm
    · rw [MessageDecl.Ascends]
      decide
    · rcases List.mem_pair.mp hm with rfl | rfl
      · exact List.pairwise_singleton _ _
      · exact List.pairwise_singleton _ _

end Sample

/-- The report is declared before the note but has the greater number.  The note is
registered first, and it is the resource that is found, in place of the report. -/
theorem swapped_fields_not_as_declared :
    ∃ p s, Pool.link? [Sample.optionsFile, Sample.shareFile 2 1] = some p ∧
      p.schema "google.protobuf" [] = .ok s ∧
      (Sample.requestMessage 2 1).isMapEntry = false ∧
      (Sample.requestMessage 2 1).plainFields.map FieldDecl.name = ["report", "note"] ∧
      (s.message? ⟨"GetRequest"⟩).map (fun m => m.fields.map Field.name) =
        some ["note", "report"] ∧
      (discover s ⟨"GetRequest"⟩).1.map Resource.name = some "Note" ∧
      (discover (p.declaredSchema "google.protobuf") ⟨"GetRequest"⟩).1.map Resource.name =
        some "Report" := by
  refine ⟨_, _, Sample.link?_shareFiles 2 1 (by decide),
    Sample.schema_of_messageOf Sample.messageOf_requestMessage_swapped, rfl, rfl, ?_, ?_, ?_⟩
  · rw [Sample.message?_request]
    rfl
  · exact Sample.discover_share (by decide) _ _
  · rw [Sample.declaredSchema_sharePool]
    exact Sample.discover_share (by decide) _ _

theorem schema_fields_by_number_share :
    (∀ message ∈ (Sample.shareSchema [Sample.shareField "note" "Note",
        Sample.shareField "report" "Report"]).messages,
      ∃ f ∈ (Sample.sharePool 2 1).files, ∃ m ∈ f.messages,
        AdaptedByNumber (Sample.sharePool 2 1)
          ((Sample.sharePool 2 1).vocabulary "google.protobuf") f m message) ∧
    (∀ request, discover (Sample.shareSchema [Sample.shareField "report" "Report",
        Sample.shareField "note" "Note"]) request =
      discover ((Sample.sharePool 1 2).declaredSchema "google.protobuf") request) ∧
    (discover ((Sample.sharePool 1 2).declaredSchema "google.protobuf")
      ⟨"GetRequest"⟩).1.map Resource.name = some "Report" := by
  have hswapped := schema_fields_by_number (Sample.link?_shareFiles 2 1 (by decide))
    (Sample.schema_of_messageOf Sample.messageOf_requestMessage_swapped)
  have hstraight := schema_fields_by_number (Sample.link?_shareFiles 1 2 (by decide))
    (Sample.schema_of_messageOf Sample.messageOf_requestMessage_straight)
  have hsame := hstraight.2 Sample.ascends_sharePool
  refine ⟨hswapped.1, hsame, ?_⟩
  rw [← hsame]
  exact Sample.discover_share (by decide) _ _

end AccessChecks
