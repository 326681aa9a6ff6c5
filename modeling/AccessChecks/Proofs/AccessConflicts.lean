import AccessChecks.Proofs.OnePerRequest

/-!
# Conflicts on access

## Frames

The frame of a body is what it states whatever it loops over: the permission and the
result, which has the mode.  Frames hold no loop variables.

## Conflicts and bodies

Access keys are compared as they are stated, but a body depends on them less: a mode
that is left out stands for one that is spelled out, and with one check there is no
mode at all.  So a conflict is reported between some methods with the same body.
-/

namespace AccessChecks

open Emission ResolvedMethod

namespace Body

/-- The second statement of a body and its result. -/
def frame (b : Body) : Option Stmt × Expr :=
  (b.statements[1]?, b.result)

theorem frame_renumber (σ : Nat → Nat) (b : Body) :
    (b.renumber σ).frame =
      (b.frame.1.map (Stmt.renumber σ), b.frame.2.renumber σ) := by
  rw [frame, renumber, Stmt.renumberAll_eq_map, List.getElem?_map]
  rfl

end Body

namespace Emission

def gatedFrame (resource : Resource) (permission : String)
    (mode : Option BulkMode) : Option Stmt × Expr :=
  (some (.bind false permissionVariable none (.text permission)),
    .record .checkConfig
      [(kindVariable, .name kindVariable),
        ("mode", statedMode resource mode),
        (checksVariable, .name checksVariable)])

theorem yields_gatedFrame (resource : Resource) (permission : String)
    (mode : Option BulkMode) :
    Yields (fun _ => True) (gatedBody resource permission mode) fun b =>
      b.frame = gatedFrame resource permission mode := by
  have hinstances : Yields (fun _ => True)
      (walk resource.needsInstance (instanceChecks resource)
        resource.path.segments (.ref (.name requestRoot))) fun _ => True := by
    intro issued
    split <;> trivial
  apply yields_map
  exact yields_mono hinstances fun _ _ => rfl

theorem statedMode_eq_iff {resource : Resource} {mode mode' : Option BulkMode} :
    statedMode resource mode = statedMode resource mode' ↔
      (resource.isMultiple = true → mode.getD .allOf = mode'.getD .allOf) := by
  rw [statedMode, statedMode]
  cases resource.isMultiple with
  | false => simp
  | true => simp

theorem gatedFrame_eq_iff {resource : Resource} {p q : String}
    {mode mode' : Option BulkMode} :
    gatedFrame resource p mode = gatedFrame resource q mode' ↔
      p = q ∧
      (resource.isMultiple = true → mode.getD .allOf = mode'.getD .allOf) := by
  rw [← statedMode_eq_iff]
  simp [gatedFrame]

end Emission

namespace ResolvedMethod

def frame (m : ResolvedMethod) : Option Stmt × Expr :=
  match m.access with
  | .isPublic => publicBody.frame
  | .gated _ none => uncheckedBody.frame
  | .gated permission (some resource) =>
      gatedFrame resource permission m.mode

theorem yields_frame (m : ResolvedMethod) :
    Yields (fun _ => True) m.body fun b => b.frame = m.frame := by
  rcases haccess : m.access with _ | ⟨permission, _ | resource⟩
  · rw [body, frame, haccess]
    exact yields_pure rfl
  · rw [body, frame, haccess]
    exact yields_pure rfl
  · rw [body, frame, haccess]
    exact yields_gatedFrame _ _ _

theorem frame_of_emitted {m : ResolvedMethod} {issued : Nat} {b : Body}
    (emitted : (m.body.run.run issued).1 = .ok b) : b.frame = m.frame := by
  have hone := m.yields_frame issued
  rwa [emitted] at hone

theorem exists_body_of_isSome {m : ResolvedMethod} {issued : Nat}
    (h : (m.body.run.run issued).1.toOption.isSome = true) :
    ∃ b, (m.body.run.run issued).1 = .ok b := by
  cases hresult : (m.body.run.run issued).1 with
  | error e =>
      rw [hresult] at h
      cases h
  | ok b => exact ⟨b, rfl⟩

theorem renumber_frame (σ : Nat → Nat) (m : ResolvedMethod) :
    (m.frame.1.map (Stmt.renumber σ), m.frame.2.renumber σ) = m.frame := by
  rw [frame]
  split
  · rfl
  · rfl
  · simp (disch := decide) [gatedFrame, renumber_statedMode, Name.renumber_of_isPlain]

theorem frame_eq_of_sameUpToNumbers {m n : ResolvedMethod}
    {issued issued' : Nat} {b c : Body}
    (hb : (m.body.run.run issued).1 = .ok b)
    (hc : (n.body.run.run issued').1 = .ok c) (h : b.SameUpToNumbers c) :
    m.frame = n.frame := by
  rcases h.1 with ⟨σ, hσ⟩
  have hframe := Body.frame_renumber σ b
  rwa [hσ, frame_of_emitted hb, frame_of_emitted hc, renumber_frame, eq_comm]
    at hframe

end ResolvedMethod

namespace SchemaFile

variable {s : Schema} {f : SchemaFile} {m n : ResolvedMethod}

/-- Two methods differ in what is checked: one of them only is public, or their
permissions differ, or the modes that several checks have. -/
def ChecksDiffer (s : Schema) (m n : ResolvedMethod) : Prop :=
  m.isPublic ≠ n.isPublic ∨
    ∃ r, (discover s n.request).1 = some r ∧
      (m.permission ≠ n.permission ∨
        r.isMultiple = true ∧ m.mode.getD .allOf ≠ n.mode.getD .allOf)

theorem isPublic_of_access {m : ResolvedMethod} (h : m.access = .isPublic) :
    m.isPublic = true := by
  rw [isPublic, h]
  rfl

theorem isPublic_of_gated {m : ResolvedMethod} {permission : String}
    {resource : Option Resource} (h : m.access = .gated permission resource) :
    m.isPublic = false ∧ m.permission = permission := by
  rw [isPublic, ResolvedMethod.permission, h]
  exact ⟨rfl, rfl⟩

theorem frame_ne_of_public_of_gated {p : String} {resource : Option Resource}
    (hm : m.access = .isPublic) (hn : n.access = .gated p resource) :
    m.frame ≠ n.frame := by
  intro hframe
  -- the results name different kinds
  have hresult := congrArg Prod.snd hframe
  rw [frame, frame, hm, hn] at hresult
  cases resource with
  | none => cases hresult
  | some r => cases hresult

theorem frame_ne_iff_checksDiffer (hm : m ∈ f.resolvedMethods s)
    (hn : n ∈ f.resolvedMethods s) (hrequest : m.request = n.request)
    (hkeys : m.accessKey ≠ n.accessKey) :
    m.frame ≠ n.frame ↔ ChecksDiffer s m n := by
  rcases access_cases hm hn hrequest with
    ⟨hpublic, hpublic'⟩ | ⟨hpublic, q, r, hgated⟩ | ⟨⟨p, r, hgated⟩, hpublic⟩ |
      ⟨p, q, hgated, hgated'⟩
  · rw [accessKey, accessKey, hpublic, hpublic'] at hkeys
    exact absurd rfl hkeys
  · refine iff_of_true (frame_ne_of_public_of_gated hpublic hgated) (Or.inl ?_)
    rw [isPublic_of_access hpublic, (isPublic_of_gated hgated).1]
    decide
  · refine iff_of_true (frame_ne_of_public_of_gated hpublic hgated).symm (Or.inl ?_)
    rw [isPublic_of_access hpublic, (isPublic_of_gated hgated).1]
    decide
  · rw [ChecksDiffer, (isPublic_of_gated hgated).1, (isPublic_of_gated hgated').1,
      (isPublic_of_gated hgated).2, (isPublic_of_gated hgated').2, frame, frame,
      hgated, hgated']
    cases hfound : (discover s n.request).1 with
    | none => simp
    | some r =>
        rw [ne_eq, gatedFrame_eq_iff]
        simp [imp_iff_not_or, not_or]

theorem body_eq_of_frame_eq (hm : m ∈ f.resolvedMethods s)
    (hn : n ∈ f.resolvedMethods s) (hrequest : m.request = n.request)
    (hframe : m.frame = n.frame) : m.body = n.body := by
  rcases access_cases hm hn hrequest with
    ⟨hpublic, hpublic'⟩ | ⟨hpublic, q, r, hgated⟩ | ⟨⟨p, r, hgated⟩, hpublic⟩ |
      ⟨p, q, hgated, hgated'⟩
  · rw [body, body, hpublic, hpublic']
  · exact absurd hframe (frame_ne_of_public_of_gated hpublic hgated)
  · exact absurd hframe.symm (frame_ne_of_public_of_gated hpublic hgated)
  · rw [frame, frame, hgated, hgated'] at hframe
    rw [body, body, hgated, hgated']
    cases hfound : (discover s n.request).1 with
    | none => rfl
    | some r =>
        rw [hfound] at hframe
        rcases gatedFrame_eq_iff.mp hframe with ⟨rfl, hmode⟩
        dsimp only
        rw [gatedBody, gatedBody, statedMode_eq_iff.mpr hmode]

theorem sameUpToNumbers_iff_frame_eq (hm : m ∈ f.resolvedMethods s)
    (hn : n ∈ f.resolvedMethods s) (hrequest : m.request = n.request)
    {issued issued' : Nat} {b c : Body}
    (hb : (m.body.run.run issued).1 = .ok b)
    (hc : (n.body.run.run issued').1 = .ok c) :
    b.SameUpToNumbers c ↔ m.frame = n.frame := by
  constructor
  · exact frame_eq_of_sameUpToNumbers hb hc
  · intro hframe
    rcases exists_body_sameUpToNumbers hb issued' with ⟨c', hc', hsame⟩
    rw [body_eq_of_frame_eq hm hn hrequest hframe] at hc'
    cases hc.symm.trans hc'
    exact hsame

end SchemaFile

/-- A method with another access key than the first one for its request is reported.
The conflict is one between the bodies exactly if the methods differ in what is checked:
it is reported in vain if they state the same mode differently, if their modes differ
but there is only one check, and if there is no resource to check at all. -/
theorem reported_bodies_differ_iff {s : Schema} {f : SchemaFile}
    {before after : List ResolvedMethod} {m first : ResolvedMethod}
    (split : f.resolvedMethods s = before ++ m :: after)
    (hin : s.HasIn f.package m.request)
    (hfirst : firstFor? before m.request = some first)
    (hkeys : first.accessKey ≠ m.accessKey)
    {issued issued' : Nat} {b c : Body}
    (hb : (first.body.run.run issued).1 = .ok b)
    (hc : (m.body.run.run issued').1 = .ok c) :
    .conflictingRequestType m.request.name first.label m.label ∈
        (f.plan s).faults ∧
      (¬ b.SameUpToNumbers c ↔ SchemaFile.ChecksDiffer s first m) := by
  rcases mem_of_firstFor? hfirst with ⟨hmem, hrequest⟩
  have hfirstMem : first ∈ f.resolvedMethods s := by
    rw [split]
    exact List.mem_append_left _ hmem
  have hm : m ∈ f.resolvedMethods s := by
    rw [split]
    exact List.mem_append_right _ List.mem_cons_self
  refine ⟨SchemaFile.mem_conflicts_of_split split hin hfirst hkeys, ?_⟩
  rw [SchemaFile.sameUpToNumbers_iff_frame_eq hfirstMem hm hrequest hb hc]
  exact SchemaFile.frame_ne_iff_checksDiffer hfirstMem hm hrequest hkeys

namespace Sample

def shelfFile : SchemaFile :=
  { name := "shelf.proto", package := ""
    services :=
      [⟨"Shelf",
        [{ name := "Get", input := ⟨"Note"⟩, permission := some "view"
           mode := some .anyOf },
          { name := "Fetch", input := ⟨"Note"⟩, permission := some "view"
            mode := some .allOf },
          { name := "Open", input := ⟨"Folder"⟩, permission := some "view" },
          { name := "Scan", input := ⟨"Folder"⟩, permission := some "view"
            mode := some .allOf }]⟩] }

def shelfSchema : Schema :=
  { messages :=
      [{ package := "", name := "Note", resourceType := some "note"
         fields :=
          [⟨"id", .single (.scalar .string), false, false, ⟨true, false, none⟩⟩] },
        { package := "", name := "Folder", resourceType := some "folder"
          fields := [idsMark] }]
    files := [shelfFile] }

def shelfMethod (name request : String) (mode : Option BulkMode) : ResolvedMethod :=
  (Method.resolve shelfSchema "Shelf"
    { name := name, input := ⟨request⟩, permission := some "view"
      mode := mode }).1

theorem resolvedMethods_shelfFile :
    shelfFile.resolvedMethods shelfSchema =
      [shelfMethod "Get" "Note" (some .anyOf),
        shelfMethod "Fetch" "Note" (some .allOf),
        shelfMethod "Open" "Folder" none,
        shelfMethod "Scan" "Folder" (some .allOf)] :=
  rfl

theorem renders_shelfFile : shelfFile.Renders shelfSchema {} := by
  apply SchemaFile.renders_of_any rfl
  cbv

theorem faults_shelfFile :
    (shelfFile.plan shelfSchema).faults =
      [.conflictingRequestType "Note" "Shelf.Get" "Shelf.Fetch",
        .conflictingRequestType "Folder" "Shelf.Open" "Shelf.Scan"] := by
  cbv

theorem body_eq_of_one_check :
    (shelfMethod "Fetch" "Note" (some .allOf)).body =
      (shelfMethod "Get" "Note" (some .anyOf)).body := by
  cbv

theorem body_eq_of_default_mode :
    (shelfMethod "Scan" "Folder" (some .allOf)).body =
      (shelfMethod "Open" "Folder" none).body :=
  rfl

theorem exists_bodies :
    (∃ b, ((shelfMethod "Get" "Note" (some .anyOf)).body.run.run 0).1 = .ok b) ∧
      ∃ b, ((shelfMethod "Open" "Folder" none).body.run.run 0).1 = .ok b := by
  constructor
  · apply exists_body_of_isSome
    cbv
  · apply exists_body_of_isSome
    cbv

end Sample

/-- The run fails for the two conflicts alone, between methods with equal bodies. -/
theorem generate_shelfSchema_conflicts_of_equal_bodies :
    ∃ output,
      generate Sample.shelfSchema {} = .ok output ∧
      output.isOk = false ∧
      output.diagnostics.items =
        [.conflictingRequestType "Note" "Shelf.Get" "Shelf.Fetch",
          .conflictingRequestType "Folder" "Shelf.Open" "Shelf.Scan"] ∧
      (∃ b,
        ((Sample.shelfMethod "Get" "Note" (some .anyOf)).body.run.run 0).1 = .ok b ∧
        ((Sample.shelfMethod "Fetch" "Note" (some .allOf)).body.run.run 0).1 =
          .ok b) ∧
      ∃ b,
        ((Sample.shelfMethod "Open" "Folder" none).body.run.run 0).1 = .ok b ∧
        ((Sample.shelfMethod "Scan" "Folder" (some .allOf)).body.run.run 0).1 =
          .ok b := by
  rcases SchemaFile.exists_generate_of_renders Sample.renders_shelfFile with
    ⟨file, hfile⟩
  have hrun : generate Sample.shelfSchema {} =
      .ok (Output.add {} (file, (Sample.shelfFile.plan Sample.shelfSchema).faults)) := by
    rw [generate, Sample.shelfSchema, List.foldlM_cons, ← Sample.shelfSchema, hfile]
    rfl
  rw [Sample.faults_shelfFile] at hrun
  rw [Sample.body_eq_of_one_check, Sample.body_eq_of_default_mode]
  rcases Sample.exists_bodies with ⟨⟨b, hb⟩, c, hc⟩
  exact ⟨_, hrun, rfl, rfl, ⟨b, hb, hb⟩, c, hc, hc⟩

theorem reported_bodies_differ_iff_shelfFile :
    ∃ b c,
      ((Sample.shelfMethod "Open" "Folder" none).body.run.run 0).1 = .ok b ∧
      ((Sample.shelfMethod "Scan" "Folder" (some .allOf)).body.run.run 3).1 =
        .ok c ∧
      .conflictingRequestType "Folder" "Shelf.Open" "Shelf.Scan" ∈
        (Sample.shelfFile.plan Sample.shelfSchema).faults ∧
      (¬ b.SameUpToNumbers c ↔
        SchemaFile.ChecksDiffer Sample.shelfSchema
          (Sample.shelfMethod "Open" "Folder" none)
          (Sample.shelfMethod "Scan" "Folder" (some .allOf))) := by
  have hin : Sample.shelfSchema.HasIn Sample.shelfFile.package ⟨"Folder"⟩ := by
    refine ⟨Sample.shelfSchema.messages.getLast (by decide), ?_, rfl⟩
    cbv
  rcases Sample.exists_bodies.2 with ⟨b, hb⟩
  rcases exists_body_sameUpToNumbers hb 3 with ⟨c, hc, -⟩
  rw [← Sample.body_eq_of_default_mode] at hc
  refine ⟨b, c, hb, hc, ?_⟩
  have hiff := @reported_bodies_differ_iff Sample.shelfSchema Sample.shelfFile
    [_, _, _] [] _ _ Sample.resolvedMethods_shelfFile hin rfl (by decide) 0 3 b c
  exact hiff hb hc

end AccessChecks
