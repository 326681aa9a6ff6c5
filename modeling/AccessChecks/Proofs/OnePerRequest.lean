import AccessChecks.Proofs.CleanRuns
import AccessChecks.Proofs.QualifiedNames
import AccessChecks.Proofs.RenumberedBodies
import AccessChecks.Proofs.RequestClaims

/-!
# One implementation per request

## Resolved methods

What a request leads to depends on the request alone.  So methods with one request and
one access key have the same body, up to the numbers of its loop variables.

## Implementations

The implementations of a file belong to the requests of its package, one to each, in
the order in which the requests are used first.  A later method with a request adds no
implementation: it agrees with the first one, or a conflict is reported.
-/

namespace AccessChecks

open ResolvedMethod

namespace SchemaFile

theorem access_of_mem_resolvedMethods {s : Schema} {f : SchemaFile}
    {m : ResolvedMethod} (h : m ∈ f.resolvedMethods s) :
    m.access = .isPublic ∨
      ∃ permission, m.access = .gated permission (discover s m.request).1 := by
  rcases List.mem_map.mp h with ⟨⟨service, declared⟩, _, rfl⟩
  rw [Method.resolve, Method.access]
  cases declared.isPublic with
  | true => cases declared.statedPermission <;> exact Or.inl rfl
  | false => exact Or.inr ⟨_, rfl⟩

theorem access_cases {s : Schema} {f : SchemaFile} {m n : ResolvedMethod}
    (hm : m ∈ f.resolvedMethods s) (hn : n ∈ f.resolvedMethods s)
    (hrequest : m.request = n.request) :
    (m.access = .isPublic ∧ n.access = .isPublic) ∨
    (m.access = .isPublic ∧ ∃ q r, n.access = .gated q r) ∨
    ((∃ p r, m.access = .gated p r) ∧ n.access = .isPublic) ∨
    ∃ p q, m.access = .gated p (discover s n.request).1 ∧
      n.access = .gated q (discover s n.request).1 := by
  have hm' := access_of_mem_resolvedMethods hm
  rw [hrequest] at hm'
  rcases hm' with hpublic | ⟨p, hgated⟩
  · rcases access_of_mem_resolvedMethods hn with hpublic' | ⟨q, hgated'⟩
    · exact Or.inl ⟨hpublic, hpublic'⟩
    · exact Or.inr (Or.inl ⟨hpublic, q, _, hgated'⟩)
  · rcases access_of_mem_resolvedMethods hn with hpublic' | ⟨q, hgated'⟩
    · exact Or.inr (Or.inr (Or.inl ⟨⟨p, _, hgated⟩, hpublic'⟩))
    · exact Or.inr (Or.inr (Or.inr ⟨p, q, hgated, hgated'⟩))

theorem body_eq_of_accessKey_eq {s : Schema} {f : SchemaFile}
    {m n : ResolvedMethod} (hm : m ∈ f.resolvedMethods s)
    (hn : n ∈ f.resolvedMethods s) (hrequest : m.request = n.request)
    (hkey : m.accessKey = n.accessKey) : m.body = n.body := by
  rw [accessKey, accessKey] at hkey
  rw [body, body]
  rcases access_cases hm hn hrequest with
    ⟨hpublic, hpublic'⟩ | ⟨hpublic, q, r, hgated⟩ | ⟨⟨p, r, hgated⟩, hpublic⟩ |
      ⟨p, q, hgated, hgated'⟩
  · rw [hpublic, hpublic']
  · rw [hpublic, hgated] at hkey
    cases hkey
  · rw [hgated, hpublic] at hkey
    cases hkey
  · rw [hgated, hgated', AccessKey.mk.injEq, Option.some.injEq] at hkey
    rw [hgated, hgated', hkey.1, hkey.2]

end SchemaFile

/-!
## Implementations
-/

namespace SchemaFile

variable {s : Schema} {options : Options} {f : SchemaFile}

/-- The item implements the message behind a request with the body of the first method
for it. -/
inductive ImplementsFirst (s : Schema) (f : SchemaFile) (target : MessageRef)
    (item : Implementation) : Prop where
  | intro {first : ResolvedMethod} {request : Message} {issued : Nat} :
      firstFor? (f.resolvedMethods s) target = some first →
      s.message? target = some request →
      Name.ofMessage request = .ok item.type →
      (first.body.run.run issued).1 = .ok item.body →
      ImplementsFirst s f target item

theorem forall₂_implementsFirst {items : List Implementation}
    (emitted : implementations (f.plan s).claims = .ok items) :
    List.Forall₂ (f.ImplementsFirst s) (f.ownRequests s) items := by
  have hclaimed := f.claimed_plan s
  have hclaims : ∀ c ∈ (f.plan s).claims,
      firstFor? (f.resolvedMethods s) c.method.request = some c.method ∧
        s.message? c.method.request = some c.request :=
    fun c hc => ⟨firstFor?_of_mem_claims hc, hclaimed.known c hc⟩
  rw [ownRequests_eq, ← hclaimed.requests, List.forall₂_map_left_iff]
  apply List.Forall₂.imp _ (Claim.forall₂_emits emitted hclaims)
  rintro c item ⟨⟨hfirst, hknown⟩, htype, issued, hbody⟩
  exact ImplementsFirst.intro hfirst hknown htype hbody

theorem exists_mem_zip_of_forall₂ {α β : Type} {R : α → β → Prop} {l : List α}
    {l' : List β} (h : List.Forall₂ R l l') {a : α} (ha : a ∈ l) :
    ∃ b, (a, b) ∈ l.zip l' ∧ R a b := by
  induction h with
  | nil => cases ha
  | cons hr _ ih =>
      rcases List.mem_cons.mp ha with rfl | hrest
      · exact ⟨_, List.mem_cons_self, hr⟩
      · rcases ih hrest with ⟨b, hmem, hb⟩
        exact ⟨b, List.mem_cons_of_mem _ hmem, hb⟩

theorem firstFor?_of_split (after : List ResolvedMethod) {target : MessageRef}
    {before : List ResolvedMethod} {first : ResolvedMethod}
    (h : firstFor? before target = some first) :
    firstFor? (before ++ after) target = some first := by
  rw [firstFor?, List.find?_append, ← firstFor?, h]
  rfl

theorem filter_isConflict_of_generate
    {result : Option GeneratedFile × List Diagnostic}
    (generated : f.generate s options = .ok result) :
    result.2.filter Diagnostic.isConflict = f.conflicts s := by
  rcases exists_comesTo_of_generate generated with ⟨_, _, comes⟩
  rcases comes.exists_reports with ⟨reasons, hfaults⟩
  have hrender : (reasons.map (Diagnostic.render f.name)).filter
      Diagnostic.isConflict = [] := by
    rw [List.filter_eq_nil_iff]
    intro d hd
    rcases List.mem_map.mp hd with ⟨reason, _, rfl⟩
    simp [Diagnostic.isConflict]
  rw [hfaults, List.filter_append, hrender, List.append_nil,
    (f.claimed_plan s).conflicts]
  rfl

theorem mem_conflicts_of_split {before after : List ResolvedMethod}
    {m first : ResolvedMethod}
    (split : f.resolvedMethods s = before ++ m :: after)
    (hin : s.HasIn f.package m.request)
    (hfirst : firstFor? before m.request = some first)
    (hkeys : first.accessKey ≠ m.accessKey) :
    .conflictingRequestType m.request.name first.label m.label ∈
      (f.plan s).faults := by
  rw [mem_plan_faults_iff]
  exact Fault.conflict
    ⟨before, m, after, split, Conflict.keys hin hfirst hkeys⟩

end SchemaFile

/-- A file has one implementation for each request of its package, with the body of
the first method for the request, and comes to what is made of these.  Every later
method with the request has the access key of the first one, no conflict and the same
body up to the numbers of loop variables, or its key is another one and the conflict is
among the reports. -/
theorem generate_implements_requests_once {s : Schema} {options : Options}
    {f : SchemaFile} {result : Option GeneratedFile × List Diagnostic}
    (generated : f.generate s options = .ok result) :
    ∃ items,
      implementations (f.plan s).claims = .ok items ∧
      f.ComesTo s options items result ∧
      (f.ownRequests s).Nodup ∧
      List.Forall₂ (f.ImplementsFirst s) (f.ownRequests s) items ∧
      result.2.filter Diagnostic.isConflict = f.conflicts s ∧
      ∀ before m after first,
        f.resolvedMethods s = before ++ m :: after →
        s.HasIn f.package m.request →
        firstFor? before m.request = some first →
        (first.accessKey = m.accessKey ∧
          conflictOf s f.package before m = [] ∧
          ∃ item, (m.request, item) ∈ (f.ownRequests s).zip items ∧
            ∀ issued, ∃ b, (m.body.run.run issued).1 = .ok b ∧
              item.body.SameUpToNumbers b) ∨
        (first.accessKey ≠ m.accessKey ∧
          ∀ sink : Diagnostics,
            .conflictingRequestType m.request.name first.label m.label ∈
              (sink.reportAll result.2).items) := by
  rcases SchemaFile.exists_comesTo_of_generate generated with ⟨items, hitems, comes⟩
  rcases comes.exists_reports with ⟨reasons, hfaults⟩
  have himplements := SchemaFile.forall₂_implementsFirst hitems
  have hdistinct : (f.ownRequests s).Nodup := by
    rw [SchemaFile.ownRequests_eq]
    exact nodup_requestsIn _
  refine ⟨items, hitems, comes, hdistinct, himplements,
    SchemaFile.filter_isConflict_of_generate generated, ?_⟩
  intro before m after first split hin hfirst
  have hm : m ∈ f.resolvedMethods s := by
    rw [split]
    exact List.mem_append_right _ List.mem_cons_self
  have hown : m.request ∈ f.ownRequests s := by
    rw [SchemaFile.ownRequests_eq]
    exact mem_requestsIn.mpr ⟨⟨m, hm, rfl⟩, hin⟩
  have hwhole := SchemaFile.firstFor?_of_split (m :: after) hfirst
  rw [← split] at hwhole
  by_cases hkeys : first.accessKey = m.accessKey
  · refine Or.inl ⟨hkeys, ?_, ?_⟩
    · rw [conflictOf, hfirst]
      exact if_neg fun h => h.2 hkeys
    · rcases SchemaFile.exists_mem_zip_of_forall₂ himplements hown with
        ⟨item, hmem, hitem⟩
      refine ⟨item, hmem, ?_⟩
      intro issued
      cases hitem with
      | intro hfirst' _ _ hbody =>
          cases hwhole.symm.trans hfirst'
          rcases mem_of_firstFor? hwhole with ⟨hfirstMem, hrequest⟩
          rw [← SchemaFile.body_eq_of_accessKey_eq hfirstMem hm hrequest hkeys]
          exact exists_body_sameUpToNumbers hbody issued
  · refine Or.inr ⟨hkeys, ?_⟩
    intro sink
    rw [Diagnostics.mem_reportAll, hfaults]
    exact Or.inr (List.mem_append_left _
      (SchemaFile.mem_conflicts_of_split split hin hfirst hkeys))

namespace Sample

def deskFile : SchemaFile :=
  { name := "desk.proto", package := "desk"
    services :=
      [⟨"Desk",
        [{ name := "Ping", input := ⟨"Empty"⟩, isPublic := true },
          { name := "Get", input := ⟨"desk.Note"⟩, permission := some "view" },
          { name := "Open", input := ⟨"desk.Folder"⟩, permission := some "view" },
          { name := "Scan", input := ⟨"desk.Note"⟩, permission := some "view" }]⟩,
        ⟨"Bin",
          [{ name := "Purge", input := ⟨"desk.Note"⟩
             permission := some "purge" }]⟩] }

def idsMark : Field :=
  ⟨"ids", .list (.scalar .string), false, false, ⟨true, false, none⟩⟩

def deskSchema : Schema :=
  { messages :=
      [{ package := "desk", name := "Note", resourceType := some "note"
         fields := [idsMark] },
        { package := "desk", name := "Folder", resourceType := some "folder"
          fields := [idsMark] },
        { package := "", name := "Empty" }]
    files := [deskFile] }

theorem renders_deskFile : deskFile.Renders deskSchema {} := by
  apply SchemaFile.renders_of_any rfl
  cbv

theorem ownRequests_deskFile :
    deskFile.ownRequests deskSchema = [⟨"desk.Note"⟩, ⟨"desk.Folder"⟩] := by
  cbv

theorem hasIn_desk : deskSchema.HasIn deskFile.package ⟨"desk.Note"⟩ := by
  refine ⟨deskSchema.messages.head (by decide), ?_, rfl⟩
  simp only [Schema.message?, Message.reference, Message.fullName, splitOn_dot]
  decide +kernel

def deskMethod (service name request permission : String) : ResolvedMethod :=
  (Method.resolve deskSchema service
    { name := name, input := ⟨request⟩, permission := some permission }).1

theorem resolvedMethods_deskFile :
    deskFile.resolvedMethods deskSchema =
      [(Method.resolve deskSchema "Desk"
          { name := "Ping", input := ⟨"Empty"⟩, isPublic := true }).1,
        deskMethod "Desk" "Get" "desk.Note" "view",
        deskMethod "Desk" "Open" "desk.Folder" "view",
        deskMethod "Desk" "Scan" "desk.Note" "view",
        deskMethod "Bin" "Purge" "desk.Note" "purge"] :=
  rfl

end Sample

theorem generate_deskFile_implements_requests_once :
    ∃ file items page,
      Sample.deskFile.generate Sample.deskSchema {} =
        .ok (some file, (Sample.deskFile.plan Sample.deskSchema).faults) ∧
      RuntimePath.page (.names ⟨true, ["permit_core"]⟩) items = .ok page ∧
      file = ⟨"desk_permit.rs", header "desk.proto" ++ page⟩ ∧
      List.Forall₂ (Sample.deskFile.ImplementsFirst Sample.deskSchema)
        [⟨"desk.Note"⟩, ⟨"desk.Folder"⟩] items ∧
      (∃ item, (⟨"desk.Note"⟩, item) ∈
          (Sample.deskFile.ownRequests Sample.deskSchema).zip items ∧
        ∀ issued, ∃ b,
          ((Sample.deskMethod "Desk" "Scan" "desk.Note" "view").body.run.run
            issued).1 = .ok b ∧ item.body.SameUpToNumbers b) ∧
      ∀ sink : Diagnostics,
        .conflictingRequestType "desk.Note" "Desk.Get" "Bin.Purge" ∈
          (sink.reportAll (Sample.deskFile.plan Sample.deskSchema).faults).items := by
  rcases SchemaFile.exists_file_of_renders Sample.renders_deskFile (by decide) with
    ⟨file, hfile⟩
  rcases generate_implements_requests_once hfile with
    ⟨items, _, comes, _, himplements, _, hlater⟩
  rcases comes.exists_page rfl with ⟨page, hpage, hcontent⟩
  have hname : outputName "desk.proto" "_permit.rs" = "desk_permit.rs" := by
    decide +kernel
  rw [Sample.resolvedMethods_deskFile] at hlater
  have hscan := hlater [_, _, _] _ [_]
    (Sample.deskMethod "Desk" "Get" "desk.Note" "view") rfl Sample.hasIn_desk rfl
  have hpurge := hlater [_, _, _, _] _ []
    (Sample.deskMethod "Desk" "Get" "desk.Note" "view") rfl Sample.hasIn_desk rfl
  refine ⟨file, items, page, hfile, hpage, ?_, ?_, ?_, ?_⟩
  · rw [← hname]
    exact hcontent
  · rw [← Sample.ownRequests_deskFile]
    exact himplements
  · rcases hscan with ⟨_, _, hitem⟩ | ⟨hkeys, _⟩
    · exact hitem
    · exact absurd (by rfl) hkeys
  · rcases hpurge with ⟨hkeys, _⟩ | ⟨_, hreported⟩
    · exact absurd hkeys (by decide)
    · exact hreported

end AccessChecks
