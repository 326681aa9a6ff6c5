import AccessChecks.Schema.Basic

/-!
# Diagnostics

## Faults of a schema

Each constructor is one kind of fault and carries what its wording needs.

## Reports

Reports are kept in the order in which they were made, and a report that was
made before is not made again.
-/

namespace AccessChecks

inductive Diagnostic where
  | missingPermissionOrPublic (service method : String)
  | missingResourceForGatedMethod (service method request : String)
  | conflictingAccessAnnotations (service method permission : String)
  | invalidIdFieldType (message field found : String)
  | invalidTenantFieldType (message field found : String)
  | invalidAttributeFieldType (message field attributeName found : String)
  | duplicateAttributeName (resource attributeName first second : String)
  | conflictingRequestType (request first second : String)
  | render (file message : String)
deriving DecidableEq, Repr, Inhabited

namespace Diagnostic

def renderLead (file : String) : String :=
  "failed to render code for " ++ file ++ ":"

def message : Diagnostic → String
  | missingPermissionOrPublic service method =>
      "method " ++ service ++ "." ++ method ++
        " must specify a permission or be marked public"
  | missingResourceForGatedMethod service method request =>
      "method " ++ service ++ "." ++ method ++
        " requires a resource: no message reachable from " ++ request ++
        " declares a resource_type"
  | conflictingAccessAnnotations service method permission =>
      "method " ++ service ++ "." ++ method ++
        " is marked public but also requires permission \"" ++ permission ++ "\""
  | invalidIdFieldType message field found =>
      message ++ "." ++ field ++
        " must be a string, enum, or integer type or a list or map of those" ++
        " types, found " ++ found
  | invalidTenantFieldType message field found =>
      message ++ "." ++ field ++
        " must be a string, enum, or integer type, found " ++ found
  | invalidAttributeFieldType message field attributeName found =>
      "attribute \"" ++ attributeName ++ "\" on " ++ message ++ "." ++ field ++
        " must be a scalar or enum, or a list or map of those, found " ++ found
  | duplicateAttributeName resource attributeName first second =>
      "attribute \"" ++ attributeName ++ "\" of resource " ++ resource ++
        " is declared at both " ++ first ++ " and " ++ second
  | conflictingRequestType request first second =>
      "request type " ++ request ++ " is used by " ++ first ++ " and " ++
        second ++ " with different access annotations"
  | render file message => renderLead file ++ " " ++ message

end Diagnostic

structure Diagnostics where
  items : List Diagnostic := []
deriving DecidableEq, Repr, Inhabited

namespace Diagnostics

/-- Adds a report unless it was made before. -/
def report (ds : Diagnostics) (d : Diagnostic) : Diagnostics :=
  if d ∈ ds.items then ds else ⟨ds.items ++ [d]⟩

def reportAll (ds : Diagnostics) (reports : List Diagnostic) : Diagnostics :=
  reports.foldl report ds

def isEmpty (ds : Diagnostics) : Bool :=
  ds.items.isEmpty

def length (ds : Diagnostics) : Nat :=
  ds.items.length

def text (ds : Diagnostics) : String :=
  "\n".intercalate (ds.items.map Diagnostic.message)

theorem mem_report (ds : Diagnostics) (d e : Diagnostic) :
    e ∈ (ds.report d).items ↔ e ∈ ds.items ∨ e = d := by
  unfold report
  split <;> rename_i h
  · constructor
    · exact Or.inl
    · rintro (he | rfl)
      · exact he
      · exact h
  · simp

theorem mem_reportAll (ds : Diagnostics) (reports : List Diagnostic)
    (e : Diagnostic) :
    e ∈ (ds.reportAll reports).items ↔ e ∈ ds.items ∨ e ∈ reports := by
  induction reports generalizing ds with
  | nil => simp [reportAll]
  | cons d rest ih =>
      have step : ds.reportAll (d :: rest) = (ds.report d).reportAll rest := rfl
      rw [step, ih, mem_report]
      simp [or_assoc]

end Diagnostics

end AccessChecks
