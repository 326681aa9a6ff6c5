import AccessChecks.Proofs.FiniteRequests
import AccessChecks.Proofs.RequestClaims

/-!
# Checks on the wire

## Generated bodies

Each implementation of a file has the body of the method that claims its request
type, and methods are claimed as they are resolved.  So a generated body states no
checks, or the checks that a request has for a discovered resource.

## Reading back

The configuration that a generated body computes for a request with finite numbers is
read back from its text, with the attributes of its checks in normal form.
-/

namespace AccessChecks

namespace Emission

theorem yields_of_fails {α : Type} {fails other : IllegalName → Prop}
    {emission : Emission α} {P : α → Prop} (h : Yields fails emission P)
    (hfails : ∀ e, fails e → other e) : Yields other emission P := by
  intro issued
  have hone := h issued
  cases hresult : (emission.run.run issued).1 with
  | error e =>
      rw [hresult] at hone
      exact hfails e hone
  | ok a =>
      rw [hresult] at hone
      exact hone

theorem run_constantBody (kind : CheckKind) (d : Data) :
    (constantBody kind).run d = some ⟨kind, none, []⟩ :=
  rfl

end Emission

/-!
## Claims
-/

namespace Plan

theorem exists_method_of_mem_claims {s : Schema} {f : SchemaFile} {c : Claim}
    (h : c ∈ (f.plan s).claims) :
    ∃ service m, c.method = (Method.resolve s service m).1 := by
  have hmem := (ResolvedMethod.mem_of_firstFor? (SchemaFile.firstFor?_of_mem_claims h)).1
  rcases List.mem_map.mp hmem with ⟨⟨service, m⟩, _, hm⟩
  exact ⟨service, m, hm.symm⟩

end Plan

/-!
## A schema of meters
-/

namespace Sample

def meterIdField : Field :=
  ⟨"id", .single (.scalar .string), false, false, ⟨true, false, none⟩⟩

def quotaField : Field :=
  ⟨"quota", .single (.scalar .uint64), false, false,
    ⟨false, false, some "quota"⟩⟩

def marksField : Field :=
  ⟨"marks", .list (.scalar .int32), false, false, ⟨false, false, some "marks"⟩⟩

def loadField : Field :=
  ⟨"load", .single (.scalar .double), false, false,
    ⟨false, false, some "load"⟩⟩

def meterMessage : Message :=
  { package := "", name := "Meter", resourceType := some "meter"
    fields := [meterIdField, quotaField, marksField, loadField] }

def meterFile : SchemaFile :=
  { name := "meters.proto", package := ""
    services :=
      [⟨"Meters",
        [{ name := "Read", input := ⟨"Meter"⟩, permission := some "read" }]⟩] }

def meterSchema : Schema :=
  { messages := [meterMessage], files := [meterFile] }

def load : Double := ⟨0x4023CCCCCCCCCCCC⟩

def meterData : Data :=
  .message
    [("id", .string "m1"), ("quota", .scalar (.uint64 5)),
      ("marks", .list [.scalar (.int32 1), .scalar (.int32 2)]),
      ("load", .scalar (.double load))]

def meterConfig (attributes : Attributes) : CheckConfig :=
  ⟨.single, none, [⟨"default", "read", ⟨"meter", "m1", attributes⟩⟩]⟩

def meterAttributes : Attributes :=
  [("load", .float load), ("marks", .list [.int 1, .int 2]),
    ("quota", .uint 5)]

def meterAttributesRead : Attributes :=
  [("load", .float ⟨0x4023CCCCCCCCCCCD⟩), ("marks", .bytes [1, 2]),
    ("quota", .int 5)]

theorem holds_meterData :
    meterSchema.Holds (.message ⟨"Meter"⟩) meterData := by
  have registered : meterSchema.message? ⟨"Meter"⟩ = some meterMessage := by cbv
  have hid : Name.ofField "id" = .ok "id" := by cbv
  have hquota : Name.ofField "quota" = .ok "quota" := by cbv
  have hmarks : Name.ofField "marks" = .ok "marks" := by cbv
  have hload : Name.ofField "load" = .ok "load" := by cbv
  apply Schema.holds_of_holdsMessage registered
  intro f hf x hx
  change f ∈ [meterIdField, quotaField, marksField, loadField] at hf
  simp only [List.mem_cons, List.not_mem_nil, or_false] at hf
  rcases hf with rfl | rfl | rfl | rfl
  · cases hid.symm.trans hx
    exact ⟨_, rfl, Schema.HoldsField.plain rfl rfl (Schema.Holds.scalar rfl)⟩
  · cases hquota.symm.trans hx
    exact ⟨_, rfl, Schema.HoldsField.plain rfl rfl (Schema.Holds.scalar rfl)⟩
  · cases hmarks.symm.trans hx
    refine ⟨_, rfl, Schema.HoldsField.list rfl ?_⟩
    intro d hd
    simp only [List.mem_cons, List.not_mem_nil, or_false] at hd
    rcases hd with rfl | rfl
    · exact Schema.Holds.scalar rfl
    · exact Schema.Holds.scalar rfl
  · cases hload.symm.trans hx
    exact ⟨_, rfl, Schema.HoldsField.plain rfl rfl (Schema.Holds.scalar rfl)⟩

theorem hasFiniteNumbers_meterData : meterData.HasFiniteNumbers := by
  apply Data.HasFiniteNumbers.message
  intro f hf
  simp only [List.mem_cons, List.not_mem_nil, or_false] at hf
  rcases hf with rfl | rfl | rfl | rfl
  · exact Data.HasFiniteNumbers.scalar rfl
  · exact Data.HasFiniteNumbers.scalar rfl
  · apply Data.HasFiniteNumbers.list
    intro d hd
    simp only [List.mem_cons, List.not_mem_nil, or_false] at hd
    rcases hd with rfl | rfl
    · exact Data.HasFiniteNumbers.scalar rfl
    · exact Data.HasFiniteNumbers.scalar rfl
  · exact Data.HasFiniteNumbers.scalar rfl

theorem exists_implementations_meterFile :
    ∃ items item,
      implementations (meterFile.plan meterSchema).claims = .ok items ∧
      items.head? = some item ∧
      item.body.run meterData = some (meterConfig meterAttributes) := by
  have hrun : ((implementations (meterFile.plan meterSchema).claims).toOption.bind
      fun items => items.head?.bind fun item => item.body.run meterData) =
        some (meterConfig meterAttributes) := by
    cbv
  rcases Option.bind_eq_some_iff.mp hrun with ⟨items, hitems, hfirst⟩
  rcases Option.bind_eq_some_iff.mp hfirst with ⟨item, hitem, hconfig⟩
  refine ⟨items, item, ?_, hitem, hconfig⟩
  cases hresult : implementations (meterFile.plan meterSchema).claims with
  | error e =>
      rw [hresult] at hitems
      cases hitems
  | ok found =>
      rw [hresult] at hitems
      cases hitems
      rfl

theorem serializes_of_mem_meterConfig :
    ∀ check ∈ (meterConfig meterAttributes).checks, check.Serializes 123 := by
  intro check hcheck
  rw [List.mem_singleton.mp hcheck]
  apply AttributeValue.Serializes.map
  · change ["load", "marks", "quota"].Pairwise (· < ·)
    decide
  · intro e he
    simp only [meterAttributes, List.mem_cons, List.not_mem_nil, or_false] at he
    rcases he with rfl | rfl | rfl
    · exact AttributeValue.Serializes.float rfl
    · apply AttributeValue.Serializes.list
      intro v hv
      simp only [List.mem_cons, List.not_mem_nil, or_false] at hv
      rcases hv with rfl | rfl
      · exact AttributeValue.Serializes.int 1
      · exact AttributeValue.Serializes.int 2
    · exact AttributeValue.Serializes.uint 5

theorem normal_meterConfig :
    (meterConfig meterAttributes).normal = meterConfig meterAttributesRead := by
  have hload : load.reread = ⟨0x4023CCCCCCCCCCCD⟩ := by decide +kernel
  rw [meterAttributesRead, ← hload]
  rfl

end Sample

/-!
## Bodies of methods
-/

/-- The body computes a configuration for every request with finite numbers, and the
configuration is read back from its text, with attributes in normal form. -/
def Body.ReadsBackNormal (s : Schema) (target : MessageRef) (body : Body) :
    Prop :=
  ∀ d, s.Holds (.message target) d → d.HasFiniteNumbers →
    ∃ c, body.run d = some c ∧
      CheckConfig.deserialize? c.serialize = some c.normal

theorem yields_resolvedBody (s : Schema) (service : String) (m : Method) :
    Emission.Yields (fun _ => True) (m.resolve s service).1.body
      (Body.ReadsBackNormal s m.input) := by
  have hconstant : ∀ (kind : CheckKind) (d : Data),
      ∃ c, (Emission.constantBody kind).run d = some c ∧
        CheckConfig.deserialize? c.serialize = some c.normal := by
    intro kind d
    refine ⟨_, Emission.run_constantBody kind d, ?_⟩
    apply CheckConfig.deserialize?_serialize
    intro check hcheck
    cases hcheck
  rw [Method.resolve, ResolvedMethod.body, Method.access]
  cases m.isPublic with
  | true =>
      cases m.statedPermission <;>
        exact Emission.yields_pure fun d _ _ => hconstant .isPublic d
  | false =>
      dsimp only
      cases hfound : (discover s m.input).1 with
      | none => exact Emission.yields_pure fun d _ _ => hconstant .single d
      | some r =>
          refine Emission.yields_of_fails (Emission.yields_mono
            (yields_gatedBody_of_discover hfound _ m.mode) ?_) fun _ _ => trivial
          intro body hrun d hd hfinite
          refine ⟨_, hrun d hd, ?_⟩
          apply CheckConfig.deserialize?_serialize
          intro check hcheck
          exact serializes_of_mem_checksIn hfinite hcheck 119

theorem forall₂_of_implementations {claims : List Claim}
    {items : List Implementation} {R : Claim → Body → Prop}
    (emitted : implementations claims = .ok items)
    (h : ∀ c ∈ claims, Emission.Yields (fun _ => True) c.method.body (R c)) :
    List.Forall₂ (fun c item => R c item.body) claims items := by
  refine (Claim.forall₂_emits emitted h).imp ?_
  rintro c item ⟨hyields, _, issued, hbody⟩
  have hone := hyields issued
  rwa [hbody] at hone

/-- What the implementations of a file compute for requests with finite numbers is
read back from its text, with attributes in normal form. -/
theorem implementations_read_back_normal {s : Schema} {f : SchemaFile}
    {items : List Implementation}
    (emitted : implementations (f.plan s).claims = .ok items) :
    List.Forall₂
      (fun claim item => item.body.ReadsBackNormal s claim.method.request)
      (f.plan s).claims items := by
  refine forall₂_of_implementations
    (R := fun c body => body.ReadsBackNormal s c.method.request) emitted ?_
  intro c hc
  rcases Plan.exists_method_of_mem_claims hc with ⟨service, m, hm⟩
  rw [hm]
  exact yields_resolvedBody s service m

theorem implementations_meterFile_read_back_normal :
    ∃ items,
      implementations (Sample.meterFile.plan Sample.meterSchema).claims =
        .ok items ∧
      List.Forall₂
        (fun claim item => item.body.ReadsBackNormal Sample.meterSchema
          claim.method.request)
        (Sample.meterFile.plan Sample.meterSchema).claims items := by
  rcases Sample.exists_implementations_meterFile with ⟨items, _, hitems, _⟩
  exact ⟨items, hitems, implementations_read_back_normal hitems⟩

/-- A generated body may compute a configuration that is read back as another one: an
unsigned integer as a signed one, a list of small integers as bytes, and a
floating-point number as one next to it. -/
theorem meterFile_config_not_read_back :
    Sample.meterSchema.Holds (.message ⟨"Meter"⟩) Sample.meterData ∧
    Sample.meterData.HasFiniteNumbers ∧
    (∃ items item,
      implementations (Sample.meterFile.plan Sample.meterSchema).claims =
        .ok items ∧
      items.head? = some item ∧
      item.body.run Sample.meterData =
        some (Sample.meterConfig Sample.meterAttributes)) ∧
    CheckConfig.deserialize?
        (Sample.meterConfig Sample.meterAttributes).serialize =
      some (Sample.meterConfig Sample.meterAttributesRead) ∧
    Sample.meterConfig Sample.meterAttributesRead ≠
      Sample.meterConfig Sample.meterAttributes := by
  refine ⟨Sample.holds_meterData, Sample.hasFiniteNumbers_meterData, ?_⟩
  have hread := CheckConfig.deserialize?_serialize
    Sample.serializes_of_mem_meterConfig
  rw [Sample.normal_meterConfig] at hread
  refine ⟨Sample.exists_implementations_meterFile, hread, ?_⟩
  intro heq
  have hattributes := congrArg
    (fun c => c.checks.map fun check => check.resource.attributes.map Prod.snd)
    heq
  cases hattributes

end AccessChecks
