import ShaderReflection.Layout.RecordFormat
import ShaderReflection.Main
import ShaderReflection.Proofs.Module.Steps
import ShaderReflection.Proofs.Layout.Conservation
import ShaderReflection.Proofs.Module.Equivalence
import ShaderReflection.Proofs.Module.TypeTable
import ShaderReflection.Proofs.Module.Aliasing
import ShaderReflection.Proofs.Module.Allocation
import ShaderReflection.Proofs.Module.Variables
import ShaderReflection.Proofs.Module.SlotRank
import ShaderReflection.Proofs.Module.Alike
import ShaderReflection.Proofs.Module.TwoRuns
import ShaderReflection.Proofs.Module.AlikeQueries
import ShaderReflection.Proofs.Module.SlotAssignment
import ShaderReflection.Proofs.Reflection.AlikeShaders
import ShaderReflection.Proofs.Reflection.AlikeDocuments
import ShaderReflection.Proofs.Reflection.AlikeModules
import ShaderReflection.Proofs.Reflection.Stripping
import ShaderReflection.Proofs.Naming.HandedOut
import ShaderReflection.Proofs.Reflection.EveryStruct
import ShaderReflection.Proofs.Reflection.Completeness
import ShaderReflection.Proofs.Assembly.RoundTrip
import ShaderReflection.Proofs.Module.RenamedModules
import ShaderReflection.Proofs.Reflection.Products
import ShaderReflection.Proofs.Module.Annotations
import ShaderReflection.Proofs.Module.Reordering
import ShaderReflection.Proofs.Reflection.TwinShaders
import ShaderReflection.Proofs.Reflection.AnnotationPlacement
import ShaderReflection.Proofs.Module.Pointers
import ShaderReflection.Proofs.Reflection.Categories
import ShaderReflection.Proofs.Module.BuiltIns
import ShaderReflection.Proofs.Module.Stability
import ShaderReflection.Proofs.Module.ImageTypes
import ShaderReflection.Proofs.Module.StorageImages
import ShaderReflection.Proofs.Naming.FieldNames
import ShaderReflection.Proofs.Assembly.Acceptance
import ShaderReflection.Proofs.Assembly.Concatenation
import ShaderReflection.Proofs.Module.Scoping
import ShaderReflection.Proofs.CommandLine.AllOrNone
import ShaderReflection.Proofs.Json.QuotedTexts
import ShaderReflection.Proofs.Json.RoundTrip
import ShaderReflection.Proofs.Json.Sidecar
import ShaderReflection.Proofs.Module.AliasChains
import ShaderReflection.Proofs.Layout.RecordFields
import ShaderReflection.Proofs.Reflection.RecordTiling
import ShaderReflection.Proofs.Artifact.OneLine
import ShaderReflection.Proofs.Artifact.Reading
import ShaderReflection.Proofs.Reflection.AliasedStructs
import ShaderReflection.Proofs.Artifact.HeaderReading
import ShaderReflection.Proofs.Artifact.ImplementationReading
import ShaderReflection.Proofs.Artifact.Agreement
import ShaderReflection.Proofs.Layout.SizeAccounting
import ShaderReflection.Proofs.Naming.Numbering
import ShaderReflection.Proofs.Module.EndingComparisons
import ShaderReflection.Proofs.Number.Rounding
import ShaderReflection.Proofs.Number.PowerRounding
import ShaderReflection.Proofs.Assembly.NumeralValues
import ShaderReflection.Proofs.Assembly.NumberOperands
import ShaderReflection.Proofs.Module.TypeIdentities
import ShaderReflection.Proofs.Text.CamelCase
