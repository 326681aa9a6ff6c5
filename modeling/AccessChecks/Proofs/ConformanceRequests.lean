import Mathlib.Data.List.Forall2
import AccessChecks.Conformance
import AccessChecks.Proofs.DeclarationOrder
import AccessChecks.Proofs.LegalNames
import AccessChecks.Proofs.QualifiedNames
import AccessChecks.Proofs.ReorderedRequests
import AccessChecks.Proofs.RequestData

/-!
# Requests of the conformance schema

## Registered messages

Every message of the conformance schema is found under its own name, and its fields have
legal names.

## Messages

A message type has a member for each field: an optional one for a single message or an
`optional` scalar, a list for a repeated field, and the entries of a map.  The data of its
values is data of the schema.

## Requests

There are ten request types.
-/

namespace AccessChecks

theorem lookup_zip_of_forall₂ {s : Schema} {fields : List Field} {values : List Data}
    (h : List.Forall₂ s.HoldsField fields values)
    (distinct : (fields.map Field.name).Nodup) {f : Field} (hf : f ∈ fields) :
    ∃ w, ((fields.map Field.name).zip values).lookup f.name = some w ∧
      s.HoldsField f w := by
  induction h with
  | nil => cases hf
  | @cons g w fields values hfirst _ ih =>
      rw [List.map_cons, List.nodup_cons] at distinct
      rw [List.map_cons, List.zip_cons_cons, List.lookup_cons]
      rcases List.mem_cons.mp hf with rfl | hrest
      · rw [beq_self_eq_true]
        exact ⟨w, rfl, hfirst⟩
      · have hne : f.name ≠ g.name := by
          intro hsame
          apply distinct.1
          rw [← hsame]
          exact List.mem_map_of_mem hrest
        rw [beq_eq_false_iff_ne.mpr hne]
        exact ih distinct.2 hrest

theorem Schema.holds_of_values {s : Schema} {target : MessageRef} {m : Message}
    (registered : s.message? target = some m)
    (legal : ∀ f ∈ m.fields, Name.ofField f.name = .ok f.name)
    (distinct : (m.fields.map Field.name).Nodup) {values : List Data}
    (h : List.Forall₂ s.HoldsField m.fields values) :
    s.Holds (.message target) (.message ((m.fields.map Field.name).zip values)) := by
  apply Schema.holds_of_holdsMessage registered
  intro f hf x hx
  cases (legal f hf).symm.trans hx
  exact lookup_zip_of_forall₂ h distinct hf

theorem Schema.holdsField_optional {s : Schema} {f : Field} {kind : Kind}
    (htype : f.type = .single kind) (hpresence : f.presence = true) {value : Option Data}
    (h : ∀ d ∈ value, s.Holds kind d) : s.HoldsField f (Data.optional value) := by
  cases value with
  | none => exact Schema.HoldsField.absent htype hpresence
  | some d => exact Schema.HoldsField.present htype hpresence (h d rfl)

namespace Conformance

/-!
## Registered messages
-/

def localName (m : Message) : String :=
  ".".intercalate (m.parents ++ [m.name])

theorem hasIdentifiers_of_mem {m : Message} (h : m ∈ messages) :
    m.HasIdentifiers ["conformance", "v1"] := by
  have hall : (messages.all fun m => m.package == package &&
      m.parents.all Name.isIdentifier && Name.isIdentifier m.name) = true := by
    decide +kernel
  have hm := List.all_eq_true.mp hall m h
  simp only [Bool.and_eq_true, beq_iff_eq] at hm
  have hparts : (["conformance", "v1"].all Name.isIdentifier) = true := by decide
  exact
    { package := hm.1.1
      parts := List.all_eq_true.mp hparts
      parents := List.all_eq_true.mp hm.1.2
      name := hm.2 }

theorem fullName_of_mem {m : Message} (h : m ∈ messages) :
    m.fullName = package ++ "." ++ localName m := by
  rw [(hasIdentifiers_of_mem h).fullName, List.append_assoc,
    String.intercalate_append_of_ne_nil (by simp) (by simp)]
  rfl

theorem nodup_references : (messages.map Message.reference).Nodup := by
  have hnames : (messages.map localName).Nodup := by decide +kernel
  have hreferences : messages.map Message.reference =
      (messages.map localName).map fun name => ⟨package ++ "." ++ name⟩ := by
    rw [List.map_map]
    apply List.map_congr_left
    intro m hm
    rw [(hasIdentifiers_of_mem hm).reference, fullName_of_mem hm]
    rfl
  rw [hreferences]
  apply hnames.map
  intro name other heq
  exact String.append_right_inj _ |>.mp (MessageRef.mk.inj heq)

theorem message?_reference {name : String} {m : Message}
    (h : (messages.find? fun n => localName n == name) = some m) :
    schema.message? (reference name) = some m := by
  have hmem := List.mem_of_find?_eq_some h
  have hname := List.find?_some h
  have hreference : m.reference = reference name := by
    rw [Message.reference, fullName_of_mem hmem, eq_of_beq hname]
    rfl
  have hfound : schema.message? (reference name) =
      (messages.find? fun n => n.reference == reference name).or none :=
    Schema.message?_foldl_addMessage nodup_references {} _
  rw [hfound, Option.or_none, ← hreference]
  apply find?_eq_some_of_unique hmem (beq_self_eq_true m.reference)
  intro n hn hkey
  exact List.inj_on_of_nodup_map nodup_references hn hmem (eq_of_beq hkey)

theorem mem_messages_of_schema {m : Message} (h : m ∈ schema.messages) : m ∈ messages :=
  Schema.mem_of_mem_ofMessages h

theorem ofField_of_mem {m : Message} (hm : m ∈ messages) {f : Field}
    (hf : f ∈ m.fields) : Name.ofField f.name = .ok f.name := by
  have hall : (messages.all fun m => m.fields.all fun f =>
      Name.isSnake f.name && !Name.reserved.contains f.name &&
        !Name.keywords.contains f.name && Name.isIdentifier f.name) = true := by
    decide +kernel
  have hfield := List.all_eq_true.mp (List.all_eq_true.mp hall m hm) f hf
  simp only [Bool.and_eq_true, Bool.not_eq_true'] at hfield
  exact Name.ofField_eq_self hfield.1.1.1 hfield.1.1.2 hfield.1.2 hfield.2

theorem hasLegalFields_schema : schema.HasLegalFields :=
  fun _ hm f hf => ⟨f.name, ofField_of_mem (mem_messages_of_schema hm) hf⟩

theorem ofMessage_of_mem {m : Message} (hm : m ∈ messages) :
    ∃ type, Name.ofMessage m = .ok type := by
  have hall : (messages.all fun m => (Name.ofMessage m).toBool) = true := by
    decide +kernel
  have htype := List.all_eq_true.mp hall m hm
  cases hresult : Name.ofMessage m with
  | ok type => exact ⟨type, rfl⟩
  | error e =>
      rw [hresult] at htype
      cases htype

theorem holds_message (name : String) {m : Message} {values : List Data}
    (h : (messages.find? fun n => localName n == name) = some m)
    (hvalues : List.Forall₂ schema.HoldsField m.fields values) :
    schema.Holds (.message (reference name))
      (.message ((m.fields.map Field.name).zip values)) := by
  have hmem := List.mem_of_find?_eq_some h
  have hdistinct : (messages.all fun m => isDistinct (m.fields.map Field.name)) = true := by
    decide +kernel
  exact Schema.holds_of_values (message?_reference h)
    (fun f hf => ofField_of_mem hmem hf)
    ((isDistinct_iff_nodup _).mp (List.all_eq_true.mp hdistinct m hmem)) hvalues

theorem holdsField_scalar {name : String} {t : Scalar} {marks : Annotations}
    {v : ScalarData} (h : t.holds v = true) :
    schema.HoldsField (scalar name t marks) (.scalar v) :=
  Schema.HoldsField.plain rfl rfl (Schema.Holds.scalar h)

theorem holds_of_mem_map {α : Type} {items : List α} {data : α → Data} {kind : Kind}
    (h : ∀ a, schema.Holds kind (data a)) : ∀ d ∈ items.map data, schema.Holds kind d := by
  intro d hd
  rcases List.mem_map.mp hd with ⟨a, _, rfl⟩
  exact h a

theorem holdsField_single {name target : String} {α : Type} {data : α → Data}
    (h : ∀ a, schema.Holds (.message (reference target)) (data a)) (value : Option α) :
    schema.HoldsField (single name target) (Data.optional (value.map data)) := by
  apply Schema.holdsField_optional rfl rfl
  intro d hd
  rcases Option.map_eq_some_iff.mp hd with ⟨a, _, rfl⟩
  exact h a

theorem holdsField_listOf {name target : String} {α : Type} {data : α → Data}
    (h : ∀ a, schema.Holds (.message (reference target)) (data a)) (items : List α) :
    schema.HoldsField (listOf name target) (.list (items.map data)) :=
  Schema.HoldsField.list rfl (holds_of_mem_map h)

/-!
## Messages
-/

structure TextMap (α : Type) where
  entries : List (String × α)
  distinct : (entries.map Prod.fst).Nodup

def TextMap.data {α : Type} (m : TextMap α) (value : α → Data) : Data :=
  .map (m.entries.map fun e => (.string e.1, value e.2))

theorem TextMap.holdsField {α : Type} {f : Field} {kind : Kind} {value : α → Data}
    (htype : f.type = .map .string kind) (h : ∀ a, schema.Holds kind (value a))
    (m : TextMap α) : schema.HoldsField f (m.data value) := by
  apply Schema.HoldsField.map htype
  · rw [List.map_map]
    have hkeys := m.distinct.map (f := ScalarData.string)
      fun _ _ heq => ScalarData.string.inj heq
    rw [List.map_map] at hkeys
    exact hkeys
  · intro e he
    rcases List.mem_map.mp he with ⟨entry, _, rfl⟩
    exact ⟨rfl, rfl⟩
  · intro e he
    rcases List.mem_map.mp he with ⟨entry, _, rfl⟩
    exact h entry.2

/-!
### Documents
-/

structure Document where
  id : String
  tenant : String
  owner : String

namespace Document

def data (d : Document) : Data :=
  .message [("id", .string d.id), ("tenant", .string d.tenant), ("owner", .string d.owner)]

theorem holds (d : Document) : schema.Holds (.message (reference "Document")) d.data :=
  holds_message "Document" rfl
    (.cons (holdsField_scalar rfl) (.cons (holdsField_scalar rfl)
      (.cons (holdsField_scalar rfl) .nil)))

end Document

structure GetDocumentRequest where
  resource : Option Document

namespace GetDocumentRequest

def data (r : GetDocumentRequest) : Data :=
  .message [("resource", Data.optional (r.resource.map Document.data))]

theorem holds (r : GetDocumentRequest) :
    schema.Holds (.message (reference "GetDocumentRequest")) r.data :=
  holds_message "GetDocumentRequest" rfl
    (.cons (holdsField_single Document.holds r.resource) .nil)

end GetDocumentRequest

structure PublicDocumentRequest where
  resource : Option Document

namespace PublicDocumentRequest

def data (r : PublicDocumentRequest) : Data :=
  .message [("resource", Data.optional (r.resource.map Document.data))]

theorem holds (r : PublicDocumentRequest) :
    schema.Holds (.message (reference "PublicDocumentRequest")) r.data :=
  holds_message "PublicDocumentRequest" rfl
    (.cons (holdsField_single Document.holds r.resource) .nil)

end PublicDocumentRequest

structure HealthRequest where

namespace HealthRequest

def data (_ : HealthRequest) : Data :=
  .message []

theorem holds (r : HealthRequest) :
    schema.Holds (.message (reference "HealthRequest")) r.data :=
  holds_message "HealthRequest" rfl .nil

end HealthRequest

/-!
### Items
-/

structure Item where
  name : String

namespace Item

def data (i : Item) : Data :=
  .message [("name", .string i.name)]

theorem holds (i : Item) : schema.Holds (.message (reference "Item")) i.data :=
  holds_message "Item" rfl (.cons (holdsField_scalar rfl) .nil)

end Item

structure ProcessItemsRequest where
  items : List Item

namespace ProcessItemsRequest

def data (r : ProcessItemsRequest) : Data :=
  .message [("items", .list (r.items.map Item.data))]

theorem holds (r : ProcessItemsRequest) :
    schema.Holds (.message (reference "ProcessItemsRequest")) r.data :=
  holds_message "ProcessItemsRequest" rfl
    (.cons (holdsField_listOf Item.holds r.items) .nil)

end ProcessItemsRequest

/-!
### Folders
-/

structure Owner where
  tenant : String

namespace Owner

def data (o : Owner) : Data :=
  .message [("tenant", .string o.tenant)]

theorem holds (o : Owner) : schema.Holds (.message (reference "Owner")) o.data :=
  holds_message "Owner" rfl (.cons (holdsField_scalar rfl) .nil)

end Owner

structure Folder where
  id : UInt64
  owner : Option Owner

namespace Folder

def data (f : Folder) : Data :=
  .message
    [("id", .scalar (.uint64 f.id)), ("owner", Data.optional (f.owner.map Owner.data))]

theorem holds (f : Folder) : schema.Holds (.message (reference "Folder")) f.data :=
  holds_message "Folder" rfl
    (.cons (holdsField_scalar rfl) (.cons (holdsField_single Owner.holds f.owner) .nil))

end Folder

structure FolderGroup where
  byName : TextMap Folder

namespace FolderGroup

def data (g : FolderGroup) : Data :=
  .message [("by_name", g.byName.data Folder.data)]

theorem holds (g : FolderGroup) :
    schema.Holds (.message (reference "FolderGroup")) g.data :=
  holds_message "FolderGroup" rfl
    (.cons (TextMap.holdsField rfl Folder.holds g.byName) .nil)

end FolderGroup

structure MoveFoldersRequest where
  groups : List FolderGroup

namespace MoveFoldersRequest

def data (r : MoveFoldersRequest) : Data :=
  .message [("groups", .list (r.groups.map FolderGroup.data))]

theorem holds (r : MoveFoldersRequest) :
    schema.Holds (.message (reference "MoveFoldersRequest")) r.data :=
  holds_message "MoveFoldersRequest" rfl
    (.cons (holdsField_listOf FolderGroup.holds r.groups) .nil)

end MoveFoldersRequest

/-!
### Batches
-/

structure Batch where
  ids : List String

namespace Batch

def data (b : Batch) : Data :=
  .message [("ids", .list (b.ids.map .string))]

theorem holds (b : Batch) : schema.Holds (.message (reference "Batch")) b.data :=
  holds_message "Batch" rfl
    (.cons (.list rfl (holds_of_mem_map fun _ => .scalar rfl)) .nil)

end Batch

structure PurgeRequest where
  batch : Option Batch

namespace PurgeRequest

def data (r : PurgeRequest) : Data :=
  .message [("batch", Data.optional (r.batch.map Batch.data))]

theorem holds (r : PurgeRequest) :
    schema.Holds (.message (reference "PurgeRequest")) r.data :=
  holds_message "PurgeRequest" rfl
    (.cons (holdsField_single Batch.holds r.batch) .nil)

end PurgeRequest

/-!
### Libraries
-/

structure Book where
  title : String

namespace Book

def data (b : Book) : Data :=
  .message [("title", .string b.title)]

theorem holds (b : Book) : schema.Holds (.message (reference "Book")) b.data :=
  holds_message "Book" rfl (.cons (holdsField_scalar rfl) .nil)

end Book

structure Section where
  name : String
  books : List Book

namespace Section

def data (x : Section) : Data :=
  .message [("name", .string x.name), ("books", .list (x.books.map Book.data))]

theorem holds (x : Section) : schema.Holds (.message (reference "Section")) x.data :=
  holds_message "Section" rfl
    (.cons (holdsField_scalar rfl) (.cons (holdsField_listOf Book.holds x.books) .nil))

end Section

structure Library where
  id : String
  sections : List Section

namespace Library

def data (l : Library) : Data :=
  .message [("id", .string l.id), ("sections", .list (l.sections.map Section.data))]

theorem holds (l : Library) : schema.Holds (.message (reference "Library")) l.data :=
  holds_message "Library" rfl
    (.cons (holdsField_scalar rfl) (.cons (holdsField_listOf Section.holds l.sections) .nil))

end Library

structure GetLibraryRequest where
  library : Option Library

namespace GetLibraryRequest

def data (r : GetLibraryRequest) : Data :=
  .message [("library", Data.optional (r.library.map Library.data))]

theorem holds (r : GetLibraryRequest) :
    schema.Holds (.message (reference "GetLibraryRequest")) r.data :=
  holds_message "GetLibraryRequest" rfl
    (.cons (holdsField_single Library.holds r.library) .nil)

end GetLibraryRequest

/-!
### Reports
-/

structure Report where
  id : Int64
  status : Int32
  archived : Bool
  score : Double
  quota : UInt32
  owner : Option String
  labels : TextMap String
  payload : List UInt8
  tags : List String

namespace Report

def data (r : Report) : Data :=
  .message
    [("id", .scalar (.int64 r.id)), ("status", .scalar (.int32 r.status)),
      ("archived", .bool r.archived), ("score", .scalar (.double r.score)),
      ("quota", .scalar (.uint32 r.quota)),
      ("owner", Data.optional (r.owner.map .string)),
      ("labels", r.labels.data .string), ("payload", .scalar (.bytes r.payload)),
      ("tags", .list (r.tags.map .string))]

theorem holds (r : Report) : schema.Holds (.message (reference "Report")) r.data := by
  have howner : schema.HoldsField (scalar "owner" .string (attributeMark "owner")).asOptional
      (Data.optional (r.owner.map .string)) := by
    apply Schema.holdsField_optional rfl rfl
    intro d hd
    rcases Option.map_eq_some_iff.mp hd with ⟨text, _, rfl⟩
    exact Schema.Holds.scalar rfl
  exact holds_message "Report" rfl
    (.cons (holdsField_scalar rfl) (.cons (.plain rfl rfl .enum)
      (.cons (holdsField_scalar rfl) (.cons (holdsField_scalar rfl)
        (.cons (holdsField_scalar rfl) (.cons howner
          (.cons (TextMap.holdsField rfl (fun _ => .scalar rfl) r.labels)
            (.cons (holdsField_scalar rfl)
              (.cons (.list rfl (holds_of_mem_map fun _ => .scalar rfl)) .nil)))))))))

end Report

structure BulkRequest where
  reports : List Report

namespace BulkRequest

def data (r : BulkRequest) : Data :=
  .message [("reports", .list (r.reports.map Report.data))]

theorem holds (r : BulkRequest) :
    schema.Holds (.message (reference "Bulk.Request")) r.data :=
  holds_message "Bulk.Request" rfl
    (.cons (holdsField_listOf Report.holds r.reports) .nil)

end BulkRequest

/-!
### Tickets
-/

structure TicketMeta where
  key : String
  tenant : String

namespace TicketMeta

def data (m : TicketMeta) : Data :=
  .message [("key", .string m.key), ("tenant", .string m.tenant)]

theorem holds (m : TicketMeta) :
    schema.Holds (.message (reference "TicketMeta")) m.data :=
  holds_message "TicketMeta" rfl
    (.cons (holdsField_scalar rfl) (.cons (holdsField_scalar rfl) .nil))

end TicketMeta

structure Ticket where
  details : Option TicketMeta

namespace Ticket

def data (t : Ticket) : Data :=
  .message [("meta", Data.optional (t.details.map TicketMeta.data))]

theorem holds (t : Ticket) : schema.Holds (.message (reference "Ticket")) t.data := by
  have hdetails : schema.HoldsField (single "meta" "TicketMeta").asOptional
      (Data.optional (t.details.map TicketMeta.data)) := by
    apply Schema.holdsField_optional rfl rfl
    intro d hd
    rcases Option.map_eq_some_iff.mp hd with ⟨m, _, rfl⟩
    exact m.holds
  exact holds_message "Ticket" rfl (.cons hdetails .nil)

end Ticket

structure CloseTicketRequest where
  ticket : Option Ticket

namespace CloseTicketRequest

def data (r : CloseTicketRequest) : Data :=
  .message [("ticket", Data.optional (r.ticket.map Ticket.data))]

theorem holds (r : CloseTicketRequest) :
    schema.Holds (.message (reference "CloseTicketRequest")) r.data :=
  holds_message "CloseTicketRequest" rfl
    (.cons (holdsField_single Ticket.holds r.ticket) .nil)

end CloseTicketRequest

/-!
## Requests
-/

inductive Request where
  | getDocument (r : GetDocumentRequest)
  | publicDocument (r : PublicDocumentRequest)
  | health (r : HealthRequest)
  | processItems (r : ProcessItemsRequest)
  | moveFolders (r : MoveFoldersRequest)
  | purge (r : PurgeRequest)
  | getLibrary (r : GetLibraryRequest)
  | closeTicket (r : CloseTicketRequest)
  | report (r : Report)
  | bulk (r : BulkRequest)

namespace Request

def typeName : Request → String
  | getDocument _ => "GetDocumentRequest"
  | publicDocument _ => "PublicDocumentRequest"
  | health _ => "HealthRequest"
  | processItems _ => "ProcessItemsRequest"
  | moveFolders _ => "MoveFoldersRequest"
  | purge _ => "PurgeRequest"
  | getLibrary _ => "GetLibraryRequest"
  | closeTicket _ => "CloseTicketRequest"
  | report _ => "Report"
  | bulk _ => "Bulk.Request"

def typePath : Request → List String
  | bulk _ => ["bulk", "Request"]
  | r => [r.typeName]

def data : Request → Data
  | getDocument r => r.data
  | publicDocument r => r.data
  | health r => r.data
  | processItems r => r.data
  | moveFolders r => r.data
  | purge r => r.data
  | getLibrary r => r.data
  | closeTicket r => r.data
  | report r => r.data
  | bulk r => r.data

def target (r : Request) : MessageRef :=
  reference r.typeName

theorem holds (r : Request) : schema.Holds (.message r.target) r.data := by
  cases r with
  | getDocument r => exact r.holds
  | publicDocument r => exact r.holds
  | health r => exact r.holds
  | processItems r => exact r.holds
  | moveFolders r => exact r.holds
  | purge r => exact r.holds
  | getLibrary r => exact r.holds
  | closeTicket r => exact r.holds
  | report r => exact r.holds
  | bulk r => exact r.holds

end Request

end Conformance

end AccessChecks
