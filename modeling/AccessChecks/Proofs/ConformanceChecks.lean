import AccessChecks.Proofs.ConformanceRequests
import AccessChecks.Proofs.DecidedConfigs
import AccessChecks.Proofs.OnePerRequest

/-!
# Checks of the conformance schema

## Methods

The first method for each request type is public, or it has a permission and its request
leads to a resource.  So it decides something for every request.

## Implementations

There is one implementation for each of the ten request types.  For every request it
computes what the first method decides: the checks that are read off the value along the
paths of the discovered resource.
-/

namespace AccessChecks

namespace Conformance

/-!
## Methods
-/

def Request.method : Request → String × Method
  | getDocument _ => ("Documents", gated "Get" "GetDocumentRequest" "read")
  | publicDocument _ => ("Documents", open_ "Peek" "PublicDocumentRequest")
  | health _ => ("Documents", open_ "Health" "HealthRequest")
  | processItems _ => ("Items", gated "Process" "ProcessItemsRequest" "bulk_process")
  | moveFolders _ => ("Folders", gated "Move" "MoveFoldersRequest" "move" (some .anyOf))
  | purge _ => ("Batches", gated "Purge" "PurgeRequest" "purge")
  | getLibrary _ => ("Libraries", gated "Get" "GetLibraryRequest" "read_library")
  | closeTicket _ => ("Tickets", gated "Close" "CloseTicketRequest" "close")
  | report _ => ("Reports", gated "View" "Report" "view")
  | bulk _ => ("Reports", gated "BulkView" "Bulk.Request" "view")

theorem firstMethod?_target (request : Request) :
    file.firstMethod? request.target = some request.method := by
  cases request <;> dsimp only [Request.method, Request.target, Request.typeName] <;>
    decide +kernel

theorem input_method (request : Request) :
    request.method.2.input = request.target := by
  have hfirst := firstMethod?_target request
  rw [SchemaFile.firstMethod?] at hfirst
  have hinput := List.find?_some hfirst
  exact eq_of_beq hinput

theorem leads_of_head? {m n : Message} {f : Field} (target : String)
    (hfield : m.fields.head? = some f) (hoptional : f.optional = false)
    (htarget : f.type.messageTarget = some (reference target))
    (h : (messages.find? fun k => localName k == target) = some n) :
    Schema.Leads schema.ResourceEdge m n :=
  ⟨f, List.mem_of_mem_head? hfield, hoptional, reference target, htarget,
    message?_reference h⟩

theorem exists_discovered {name : String} {m n : Message}
    (h : (messages.find? fun k => localName k == name) = some m)
    (reachable : Relation.ReflTransGen (Schema.Leads schema.ResourceEdge) m n)
    (typed : n.resourceType.isSome) :
    ∃ r, (discover schema (reference name)).1 = some r := by
  have registered := message?_reference h
  apply Option.isSome_iff_exists.mp
  rw [discover_fst registered, Option.isSome_map]
  exact exists_findResource_of_reachable registered reachable typed

theorem exists_discovered_of_head? {name : String} {m n : Message} {f : Field}
    (target : String) (h : (messages.find? fun k => localName k == name) = some m)
    (hfield : m.fields.head? = some f) (hoptional : f.optional = false)
    (htarget : f.type.messageTarget = some (reference target))
    (hn : (messages.find? fun k => localName k == target) = some n)
    (typed : n.resourceType.isSome) :
    ∃ r, (discover schema (reference name)).1 = some r :=
  exists_discovered h (.single (leads_of_head? target hfield hoptional htarget hn)) typed

theorem exists_discovered_folder :
    ∃ r, (discover schema (reference "MoveFoldersRequest")).1 = some r := by
  apply exists_discovered rfl
  · apply Relation.ReflTransGen.tail
    · exact .single (leads_of_head? "FolderGroup" rfl rfl rfl rfl)
    · exact leads_of_head? "Folder" rfl rfl rfl rfl
  · rfl

theorem exists_decided_of_discovered {method : Method} {permission : String}
    {target : MessageRef} (d : Data) (hinput : method.input = target)
    (hpublic : method.isPublic = false)
    (hstated : method.statedPermission = some permission)
    (found : ∃ r, (discover schema target).1 = some r) :
    ∃ config, method.Decides schema d config := by
  rcases found with ⟨r, hr⟩
  rw [← hinput] at hr
  exact ⟨_, .gated hpublic hstated hr⟩

theorem exists_decided (request : Request) :
    ∃ config, request.method.2.Decides schema request.data config := by
  have hinput := input_method request
  cases request with
  | publicDocument _ => exact ⟨_, .isPublic rfl⟩
  | health _ => exact ⟨_, .isPublic rfl⟩
  | getDocument r =>
      exact exists_decided_of_discovered r.data hinput rfl rfl
        (exists_discovered_of_head? "Document" rfl rfl rfl rfl rfl rfl)
  | processItems r =>
      exact exists_decided_of_discovered r.data hinput rfl rfl
        (exists_discovered_of_head? "Item" rfl rfl rfl rfl rfl rfl)
  | moveFolders r =>
      exact exists_decided_of_discovered r.data hinput rfl rfl exists_discovered_folder
  | purge r =>
      exact exists_decided_of_discovered r.data hinput rfl rfl
        (exists_discovered_of_head? "Batch" rfl rfl rfl rfl rfl rfl)
  | getLibrary r =>
      exact exists_decided_of_discovered r.data hinput rfl rfl
        (exists_discovered_of_head? "Library" rfl rfl rfl rfl rfl rfl)
  | closeTicket r =>
      exact exists_decided_of_discovered r.data hinput rfl rfl
        (exists_discovered_of_head? "Ticket" rfl rfl rfl rfl rfl rfl)
  | report r =>
      exact exists_decided_of_discovered r.data hinput rfl rfl
        (exists_discovered rfl .refl rfl)
  | bulk r =>
      exact exists_decided_of_discovered r.data hinput rfl rfl
        (exists_discovered_of_head? "Report" rfl rfl rfl rfl rfl rfl)

/-!
## Implementations
-/

def requestNames : List String :=
  ["GetDocumentRequest", "PublicDocumentRequest", "HealthRequest",
    "ProcessItemsRequest", "MoveFoldersRequest", "PurgeRequest", "GetLibraryRequest",
    "CloseTicketRequest", "Report", "Bulk.Request"]

def requestTypes : List (List String) :=
  [["GetDocumentRequest"], ["PublicDocumentRequest"], ["HealthRequest"],
    ["ProcessItemsRequest"], ["MoveFoldersRequest"], ["PurgeRequest"],
    ["GetLibraryRequest"], ["CloseTicketRequest"], ["Report"], ["bulk", "Request"]]

theorem typeName_mem_requestNames (request : Request) :
    request.typeName ∈ requestNames := by
  cases request <;> dsimp only [Request.typeName] <;> decide

theorem exists_message_of_mem {name : String} (h : name ∈ requestNames) :
    ∃ m, (messages.find? fun m => localName m == name) = some m := by
  have hall : (requestNames.all fun name =>
      (messages.find? fun m => localName m == name).isSome) = true := by
    decide +kernel
  exact Option.isSome_iff_exists.mp (List.all_eq_true.mp hall name h)

theorem hasIn_of_mem_requestNames {name : String} (h : name ∈ requestNames) :
    schema.HasIn file.package (reference name) := by
  rcases exists_message_of_mem h with ⟨m, hm⟩
  exact ⟨m, message?_reference hm,
    (hasIdentifiers_of_mem (List.mem_of_find?_eq_some hm)).package⟩

theorem ownRequests_file :
    file.ownRequests schema = requestNames.map reference := by
  have hinputs : file.methods.map (fun entry => entry.2.input) =
      ("GetDocumentRequest" :: requestNames).map reference := rfl
  rw [SchemaFile.ownRequests, hinputs, List.filter_eq_self.mpr]
  · decide
  · intro target htarget
    rcases List.mem_map.mp htarget with ⟨name, hname, rfl⟩
    apply Schema.isIn_iff.mpr
    rcases List.mem_cons.mp hname with rfl | hname
    · exact hasIn_of_mem_requestNames List.mem_cons_self
    · exact hasIn_of_mem_requestNames hname

theorem requests_claims :
    (file.plan schema).claims.map (fun c => c.method.request) =
      requestNames.map reference := by
  rw [(file.claimed_plan schema).requests, ← SchemaFile.ownRequests_eq]
  exact ownRequests_file

def typeOf? (target : MessageRef) : Option (List String) :=
  (schema.message? target).bind fun m => (Name.ofMessage m).toOption

theorem typeOf?_of_mem_requestNames {name : String} (h : name ∈ requestNames) :
    typeOf? (reference name) =
      (messages.find? fun m => localName m == name).bind fun m =>
        (Name.ofMessage m).toOption := by
  rcases exists_message_of_mem h with ⟨m, hm⟩
  rw [typeOf?, message?_reference hm, hm]

theorem typeOf?_target (request : Request) :
    typeOf? request.target = some request.typePath := by
  rw [Request.target, typeOf?_of_mem_requestNames (typeName_mem_requestNames request)]
  cases request <;> dsimp only [Request.typeName, Request.typePath] <;> decide +kernel

theorem typeOf?_of_implements {c : Claim} {item : Implementation}
    (h : file.ImplementsClaim schema c item) :
    typeOf? c.method.request = some item.type := by
  rw [typeOf?, h.known, Option.bind_some, h.type]
  rfl

theorem map_typeOf?_requestNames :
    requestNames.map (fun name => typeOf? (reference name)) = requestTypes.map some := by
  rw [List.map_congr_left fun name hname => typeOf?_of_mem_requestNames hname]
  decide +kernel

theorem map_type_of_implements {items : List Implementation}
    (h : List.Forall₂ (file.ImplementsClaim schema) (file.plan schema).claims items) :
    items.map Implementation.type = requestTypes := by
  have htypes : List.Forall₂ (fun c item => typeOf? c.method.request = some item.type)
      (file.plan schema).claims items :=
    h.imp fun _ _ => typeOf?_of_implements
  have hmap : (file.plan schema).claims.map (fun c => typeOf? c.method.request) =
      items.map fun item => some item.type := by
    rw [← List.forall₂_eq_eq_eq, List.forall₂_map_left_iff, List.forall₂_map_right_iff]
    exact htypes
  apply List.map_injective_iff.mpr (Option.some_injective _)
  calc (items.map Implementation.type).map some
      = items.map fun item => some item.type := List.map_map
    _ = ((file.plan schema).claims.map fun c => c.method.request).map typeOf? := by
        rw [← hmap, List.map_map]
        rfl
    _ = requestNames.map fun name => typeOf? (reference name) := by
        rw [requests_claims, List.map_map]
        rfl
    _ = requestTypes.map some := map_typeOf?_requestNames

theorem exists_claim_of_request (request : Request) :
    ∃ c ∈ (file.plan schema).claims, c.method.request = request.target := by
  have hin := hasIn_of_mem_requestNames (typeName_mem_requestNames request)
  rcases SchemaFile.exists_claim hin (firstMethod?_target request) with
    ⟨c, hc, hrequest, _⟩
  exact ⟨c, hc, hrequest⟩

theorem exists_body (request : Request) :
    ∃ body, body? request.target = some body ∧
      body.Follows schema request.method.2 := by
  rcases exists_claim_of_request request with ⟨c, hc, hrequest⟩
  have hsome : ((file.plan schema).claims.find? fun c =>
      c.method.request == request.target).isSome := by
    rw [List.find?_isSome]
    exact ⟨c, hc, beq_iff_eq.mpr hrequest⟩
  rcases Option.isSome_iff_exists.mp hsome with ⟨d, hd⟩
  have hfirst : d.method.request = request.target :=
    eq_of_beq (List.find?_some hd :)
  have hyields := SchemaFile.yields_claim_body hasLegalFields_schema
    (List.mem_of_find?_eq_some hd)
  rcases Emission.exists_result_of_yields hyields (fun _ h => h) 0 with
    ⟨body, hbody, hfollows⟩
  rw [hfirst] at hfollows
  refine ⟨body, ?_, hfollows _ _ (firstMethod?_target request)⟩
  rw [body?, hd, Option.bind_some, hbody]
  rfl

theorem exists_item_of_request {items : List Implementation}
    (h : List.Forall₂ (file.ImplementsClaim schema) (file.plan schema).claims items)
    (request : Request) :
    ∃ item ∈ items, item.type = request.typePath ∧
      item.body.Follows schema request.method.2 := by
  rcases exists_claim_of_request request with ⟨c, hc, hrequest⟩
  rcases SchemaFile.exists_mem_zip_of_forall₂ h hc with ⟨item, hzip, hitem⟩
  have htype := typeOf?_of_implements hitem
  have hbody := hitem.body
  rw [hrequest, typeOf?_target] at htype
  rw [hrequest] at hbody
  exact ⟨item, (List.of_mem_zip hzip).2, (Option.some.inj htype).symm,
    hbody _ _ (firstMethod?_target request)⟩

/-- The schema has an implementation for each of its ten request types.  For every
request the first method for its type decides a configuration, and the implementation
computes it. -/
theorem implementations_compute_checks :
    ∃ items, implementations (file.plan schema).claims = .ok items ∧
      items.map Implementation.type = requestTypes ∧
      ∀ request : Request,
        file.firstMethod? request.target = some request.method ∧
        ∃ config, request.method.2.Decides schema request.data config ∧
          (∃ item ∈ items, item.type = request.typePath ∧
            item.body.run request.data = some config) ∧
          checks? request.target request.data = some config := by
  have htypes : ∀ m ∈ schema.messages, ∃ type, Name.ofMessage m = .ok type :=
    fun m hm => ofMessage_of_mem (mem_messages_of_schema hm)
  rcases SchemaFile.exists_implementations (f := file) hasLegalFields_schema htypes with
    ⟨items, hitems, himplements⟩
  refine ⟨items, hitems, map_type_of_implements himplements, ?_⟩
  intro request
  rcases exists_decided request with ⟨config, hdecides⟩
  have hholds : schema.Holds (.message request.method.2.input) request.data := by
    rw [input_method]
    exact request.holds
  refine ⟨firstMethod?_target request, config, hdecides, ?_, ?_⟩
  · rcases exists_item_of_request himplements request with ⟨item, hmem, htype, hbody⟩
    exact ⟨item, hmem, htype, hbody _ hholds config hdecides⟩
  · rcases exists_body request with ⟨body, hfound, hbody⟩
    rw [checks?, hfound]
    exact hbody _ hholds config hdecides

end Conformance

end AccessChecks
