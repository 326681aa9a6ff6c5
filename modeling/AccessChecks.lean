import AccessChecks.Check.Json
import AccessChecks.Code.Tokens
import AccessChecks.Conformance
import AccessChecks.Main
import AccessChecks.Wire.RoundTrip
import AccessChecks.Proofs.FirstMatch
import AccessChecks.Proofs.ResourceSearch
import AccessChecks.Proofs.DiscoveredPaths
import AccessChecks.Proofs.ConvertedLists
import AccessChecks.Proofs.EmittedValues
import AccessChecks.Proofs.EmittedLoops
import AccessChecks.Proofs.EmittedKeys
import AccessChecks.Proofs.EmittedConversions
import AccessChecks.Proofs.EmittedAttributes
import AccessChecks.Proofs.EmittedChecks
import AccessChecks.Proofs.EmittedBodies
import AccessChecks.Proofs.CheckOrder
import AccessChecks.Proofs.CheckKeys
import AccessChecks.Proofs.CheckAttributes
import AccessChecks.Proofs.ResourceReachability
import AccessChecks.Proofs.CheckDecisions
import AccessChecks.Proofs.ResourceFaults
import AccessChecks.Proofs.PlanFaults
import AccessChecks.Proofs.CleanRuns
import AccessChecks.Proofs.NumberText
import AccessChecks.Proofs.NumberValues
import AccessChecks.Proofs.Rounding
import AccessChecks.Proofs.DecimalText
import AccessChecks.Proofs.DecimalValues
import AccessChecks.Proofs.DoubleText
import AccessChecks.Proofs.JsonText
import AccessChecks.Proofs.CheckText
import AccessChecks.Proofs.CheckRoundTrip
import AccessChecks.Proofs.UntaggedValues
import AccessChecks.Proofs.FiniteRequests
import AccessChecks.Proofs.CodeTyping
import AccessChecks.Proofs.FreshNames
import AccessChecks.Proofs.TypedAttributes
import AccessChecks.Proofs.FieldShapes
import AccessChecks.Proofs.TypedValues
import AccessChecks.Proofs.TypedConversions
import AccessChecks.Proofs.TypedLoops
import AccessChecks.Proofs.TypedChecks
import AccessChecks.Proofs.TypedBodies
import AccessChecks.Proofs.Renumbering
import AccessChecks.Proofs.RenumberedBodies
import AccessChecks.Proofs.OnePerRequest
import AccessChecks.Proofs.AccessConflicts
import AccessChecks.Proofs.AgreeingSchemas
import AccessChecks.Proofs.IsolatedFiles
import AccessChecks.Proofs.LinkedParts
import AccessChecks.Proofs.DeclarationOrder
import AccessChecks.Proofs.LoopNames
import AccessChecks.Proofs.PrintedWords
import AccessChecks.Proofs.LoopNumbers
import AccessChecks.Proofs.ImplementedFiles
import AccessChecks.Proofs.Spellings
import AccessChecks.Proofs.CarriedRequests
import AccessChecks.Proofs.Responses
import AccessChecks.Proofs.Answers
import AccessChecks.Proofs.ReorderedPools
import AccessChecks.Proofs.ReorderedLinking
import AccessChecks.Proofs.LinkedOutlines
import AccessChecks.Proofs.QualifiedNames
import AccessChecks.Proofs.ReorderedRequests
import AccessChecks.Proofs.LinkedReferences
import AccessChecks.Proofs.ClosedSchemas
import AccessChecks.Proofs.ResourceOrder
import AccessChecks.Proofs.KeyOrder
import AccessChecks.Proofs.AttributeChains
import AccessChecks.Proofs.AttributeOrder
import AccessChecks.Proofs.MapAttributes
import AccessChecks.Proofs.ReorderedValues
import AccessChecks.Proofs.NormalValues
import AccessChecks.Proofs.LegalNames
import AccessChecks.Proofs.DecidedConfigs
import AccessChecks.Proofs.ConformanceRequests
import AccessChecks.Proofs.ConformanceChecks
import AccessChecks.Proofs.ReorderedChecks
import AccessChecks.Proofs.LocalDiscovery
import AccessChecks.Proofs.BlankText
import AccessChecks.Proofs.OptionEntries
import AccessChecks.Proofs.OptionTexts
import AccessChecks.Proofs.AnnotationPackages
import AccessChecks.Proofs.CasedWords
import AccessChecks.Proofs.UsableNames
import AccessChecks.Proofs.LegalRuns
import AccessChecks.Proofs.WordBoundaries
import AccessChecks.Proofs.RestoredBranches
import AccessChecks.Proofs.StoredPaths
