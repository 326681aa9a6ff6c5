import AccessChecks.Proofs.CheckRoundTrip
import AccessChecks.Proofs.LegalNames

/-!
# Decided configurations

## Methods

A public method decides that a request is public.  A gated one with a permission and a
resource decides the configuration of the checks that the request has for it.

## Implementations

If all names are legal, every file has its implementations, and each of them computes
what the first method for its request type decides.
-/

namespace AccessChecks

open Emission (Yields)

/-!
## Methods
-/

/-- What a method decides for the data of a request. -/
inductive Method.Decides (s : Schema) (m : Method) (d : Data) : CheckConfig → Prop where
  | isPublic : m.isPublic = true → Decides s m d ⟨.isPublic, none, []⟩
  | gated {permission : String} {r : Resource} :
      m.isPublic = false → m.statedPermission = some permission →
      (discover s m.input).1 = some r →
      Decides s m d (r.configIn permission m.mode d)

/-- The body computes what the method decides for each of its requests. -/
def Body.Follows (s : Schema) (m : Method) (body : Body) : Prop :=
  ∀ d, s.Holds (.message m.input) d → ∀ config, m.Decides s d config →
    body.run d = some config

theorem yields_resolve {s : Schema} (legal : s.HasLegalFields) (service : String)
    (m : Method) :
    Yields (fun _ => False) (m.resolve s service).1.body (Body.Follows s m) := by
  rw [Method.resolve, ResolvedMethod.body, Method.access]
  cases hpublic : m.isPublic with
  | true =>
      have hconstant : Body.Follows s m Emission.publicBody := by
        intro d _ config hdecides
        cases hdecides with
        | isPublic _ => exact Emission.run_constantBody .isPublic d
        | gated hgated _ _ =>
            rw [hpublic] at hgated
            cases hgated
      cases m.statedPermission <;> exact Emission.yields_pure hconstant
  | false =>
      dsimp only
      cases hfound : (discover s m.input).1 with
      | none =>
          apply Emission.yields_pure
          intro d _ config hdecides
          cases hdecides with
          | isPublic hopen =>
              rw [hpublic] at hopen
              cases hopen
          | gated _ _ hresource =>
              rw [hfound] at hresource
              cases hresource
      | some r =>
          refine Emission.yields_of_fails (Emission.yields_mono
            (yields_gatedBody_of_discover hfound _ m.mode) ?_)
            fun e => not_illegalOn_of_discover legal hfound e
          intro body hrun d hd config hdecides
          cases hdecides with
          | isPublic hopen =>
              rw [hpublic] at hopen
              cases hopen
          | gated _ hstated hresource =>
              cases hfound.symm.trans hresource
              rw [hrun d hd, hstated]
              rfl

/-!
## Implementations
-/

namespace SchemaFile

variable {s : Schema} {f : SchemaFile}

def firstMethod? (f : SchemaFile) (target : MessageRef) : Option (String × Method) :=
  f.methods.find? fun entry => entry.2.input == target

theorem firstFor?_resolvedMethods (target : MessageRef) :
    ResolvedMethod.firstFor? (f.resolvedMethods s) target =
      (f.firstMethod? target).map fun entry => (entry.2.resolve s entry.1).1 := by
  rw [ResolvedMethod.firstFor?, resolvedMethods, List.find?_map]
  rfl

/-- The item implements the request of a claim: it has the type of the message, and its
body follows the first method for it. -/
structure ImplementsClaim (s : Schema) (f : SchemaFile) (c : Claim)
    (item : Implementation) : Prop where
  known : s.message? c.method.request = some c.request
  type : Name.ofMessage c.request = .ok item.type
  body : ∀ service m, f.firstMethod? c.method.request = some (service, m) →
    item.body.Follows s m

theorem method_of_mem_claims {c : Claim} (h : c ∈ (f.plan s).claims) :
    ∃ service m, f.firstMethod? c.method.request = some (service, m) ∧
      c.method = (m.resolve s service).1 := by
  have hfirst := firstFor?_of_mem_claims h
  rw [firstFor?_resolvedMethods] at hfirst
  rcases Option.map_eq_some_iff.mp hfirst with ⟨⟨service, m⟩, hm, hmethod⟩
  exact ⟨service, m, hm, hmethod.symm⟩

theorem yields_claim_body (legal : s.HasLegalFields) {c : Claim}
    (h : c ∈ (f.plan s).claims) :
    Yields (fun _ => False) c.method.body fun body =>
      ∀ service m, f.firstMethod? c.method.request = some (service, m) →
        body.Follows s m := by
  rcases method_of_mem_claims h with ⟨service, m, hfirst, hmethod⟩
  rw [hfirst, hmethod]
  apply Emission.yields_mono (yields_resolve legal service m)
  intro body hbody service' m' hsame
  cases hsame
  exact hbody

theorem exists_implementations_of_claims (legal : s.HasLegalFields)
    (types : ∀ c ∈ (f.plan s).claims, ∃ type, Name.ofMessage c.request = .ok type) :
    ∃ items, implementations (f.plan s).claims = .ok items ∧
      List.Forall₂ (f.ImplementsClaim s) (f.plan s).claims items := by
  have hyields : Yields (fun _ => False)
      ((f.plan s).claims.mapM Claim.implementation)
      (List.Forall₂ (f.ImplementsClaim s) (f.plan s).claims) := by
    apply Emission.yields_mapM
    intro c hc
    have hknown := (f.claimed_plan s).known c hc
    rcases types c hc with ⟨type, htype⟩
    apply Emission.yields_bind
    apply Emission.yields_mono (yields_claim_body legal hc)
    intro body hbody
    rw [Emission.implementation, htype]
    exact Emission.yields_pure ⟨hknown, htype, hbody⟩
  exact Emission.exists_result_of_yields hyields (fun _ h => h) 0

theorem exists_implementations (legal : s.HasLegalFields)
    (types : ∀ m ∈ s.messages, ∃ type, Name.ofMessage m = .ok type) :
    ∃ items, implementations (f.plan s).claims = .ok items ∧
      List.Forall₂ (f.ImplementsClaim s) (f.plan s).claims items := by
  apply exists_implementations_of_claims legal
  intro c hc
  exact types c.request (Schema.mem_of_message? ((f.claimed_plan s).known c hc))

theorem exists_claim {target : MessageRef} (hin : s.HasIn f.package target)
    {service : String} {m : Method} (hfirst : f.firstMethod? target = some (service, m)) :
    ∃ c ∈ (f.plan s).claims, c.method.request = target ∧
      s.message? target = some c.request := by
  have hresolved : ∃ n ∈ f.resolvedMethods s, n.request = target := by
    have hinput := List.find?_some hfirst
    exact ⟨(m.resolve s service).1,
      List.mem_map_of_mem (List.mem_of_find?_eq_some hfirst), eq_of_beq hinput⟩
  have hmem := ResolvedMethod.mem_requestsIn.mpr ⟨hresolved, hin⟩
  rw [← (f.claimed_plan s).requests] at hmem
  rcases List.mem_map.mp hmem with ⟨c, hc, rfl⟩
  exact ⟨c, hc, rfl, (f.claimed_plan s).known c hc⟩

end SchemaFile

end AccessChecks
