import AccessChecks.Code.Evaluation
import AccessChecks.Generation

/-!
# Conformance schema

## Messages and services

A schema that shows every shape of resource path, key and attribute: single and
optional messages, lists, maps inside lists, ids in lists, flattened attributes
and requests that are resources themselves.

## Running

The checks of a request are computed by the body that is emitted for its type.
-/

namespace AccessChecks

namespace Conformance

def package : String := "conformance.v1"

def reference (name : String) : MessageRef :=
  MessageRef.ofName (package ++ "." ++ name)

def scalar (name : String) (s : Scalar) (marks : Annotations := {}) : Field :=
  { name := name, type := .single (.scalar s), marks := marks }

def single (name target : String) : Field :=
  { name := name, type := .single (.message (reference target)) }

def listOf (name target : String) : Field :=
  { name := name, type := .list (.message (reference target)) }

def idMark : Annotations := { resourceId := true }

def tenantMark : Annotations := { tenantId := true }

def attributeMark (name : String) : Annotations := { attributeName := some name }

def message (name : String) (fields : List Field) : Message :=
  { package := package, name := name, fields := fields }

def resource (name label : String) (fields : List Field) : Message :=
  { message name fields with resourceType := some label }

def reportFields : List Field :=
  [scalar "id" .int64 idMark,
    { name := "status"
      type := .single (.enum (package ++ ".Status"))
      marks := attributeMark "status" },
    scalar "archived" .bool (attributeMark "archived"),
    scalar "score" .double (attributeMark "score"),
    scalar "quota" .uint32 (attributeMark "quota"),
    (scalar "owner" .string (attributeMark "owner")).asOptional,
    { name := "labels"
      type := .map .string (.scalar .string)
      marks := attributeMark "labels" },
    scalar "payload" .bytes (attributeMark "payload"),
    { name := "tags"
      type := .list (.scalar .string)
      marks := attributeMark "tags" }]

def messages : List Message :=
  [resource "Document" "document"
      [scalar "id" .string idMark, scalar "tenant" .string tenantMark,
        scalar "owner" .string (attributeMark "owner")],
    message "GetDocumentRequest" [single "resource" "Document"],
    message "PublicDocumentRequest" [single "resource" "Document"],
    message "HealthRequest" [],
    resource "Item" "item" [scalar "name" .string],
    message "ProcessItemsRequest" [listOf "items" "Item"],
    message "Owner" [scalar "tenant" .string tenantMark],
    resource "Folder" "folder"
      [scalar "id" .uint64 idMark, single "owner" "Owner"],
    message "FolderGroup"
      [{ name := "by_name"
         type := .map .string (.message (reference "Folder")) }],
    message "MoveFoldersRequest" [listOf "groups" "FolderGroup"],
    resource "Batch" "batch"
      [{ name := "ids", type := .list (.scalar .string), marks := idMark }],
    message "PurgeRequest" [single "batch" "Batch"],
    message "Book" [scalar "title" .string (attributeMark "titles")],
    message "Section"
      [scalar "name" .string (attributeMark "section_names"),
        listOf "books" "Book"],
    resource "Library" "library"
      [scalar "id" .string idMark, listOf "sections" "Section"],
    message "GetLibraryRequest" [single "library" "Library"],
    resource "Report" "report" reportFields,
    message "TicketMeta"
      [scalar "key" .string idMark, scalar "tenant" .string tenantMark],
    resource "Ticket" "ticket" [(single "meta" "TicketMeta").asOptional],
    message "CloseTicketRequest" [single "ticket" "Ticket"],
    message "Bulk" [],
    { message "Request" [listOf "reports" "Report"] with parents := ["Bulk"] }]

def gated (name request permission : String)
    (mode : Option BulkMode := none) : Method :=
  { name := name
    input := reference request
    permission := some permission
    mode := mode }

def open_ (name request : String) : Method :=
  { name := name, input := reference request, isPublic := true }

def file : SchemaFile :=
  { name := "conformance/v1/checks.proto"
    package := package
    services :=
      [⟨"Documents",
          [gated "Get" "GetDocumentRequest" "read",
            gated "Fetch" "GetDocumentRequest" "read",
            open_ "Peek" "PublicDocumentRequest",
            open_ "Health" "HealthRequest"]⟩,
        ⟨"Items", [gated "Process" "ProcessItemsRequest" "bulk_process"]⟩,
        ⟨"Folders", [gated "Move" "MoveFoldersRequest" "move" (some .anyOf)]⟩,
        ⟨"Batches", [gated "Purge" "PurgeRequest" "purge"]⟩,
        ⟨"Libraries", [gated "Get" "GetLibraryRequest" "read_library"]⟩,
        ⟨"Tickets", [gated "Close" "CloseTicketRequest" "close"]⟩,
        ⟨"Reports",
          [gated "View" "Report" "view",
            gated "BulkView" "Bulk.Request" "view"]⟩] }

def schema : Schema :=
  Schema.ofMessages messages [file]

def body? (request : MessageRef) : Option Body :=
  let claim :=
    (file.plan schema).claims.find? fun c => c.method.request == request
  claim.bind fun c => ((c.method.body.run.run 0).1).toOption

def checks? (request : MessageRef) (value : Data) : Option CheckConfig :=
  (body? request).bind fun b => b.run value

end Conformance

end AccessChecks
