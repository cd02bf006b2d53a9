import ShaderReflection.Layout.Binding
import ShaderReflection.Layout.VertexInput

/-! Reflection of a shader: a complete document, or the first reason why there is none. -/
namespace ShaderReflection

/-- The parts of a document that every shader must have. -/
inductive Part where
  | uniformBuffers
  | stageInputs
  | sampledImages
  | stageOutputs
  deriving DecidableEq, Repr

def Part.phrase : Part → String
  | .uniformBuffers => "uniform buffers"
  | .stageInputs => "stage inputs"
  | .sampledImages => "sampled images"
  | .stageOutputs => "stage outputs"

/-- The lists of resources that make up a part, in order. -/
def Part.categories : Part → List Category
  | .uniformBuffers => [.uniformBuffers]
  | .stageInputs => [.stageInputs]
  | .sampledImages => [.sampledImages, .separateImages, .separateSamplers]
  | .stageOutputs => [.stageOutputs]

inductive ReflectionError where
  | entryPointCount (count : Nat)
  /-- In each of the lists of a part that fail, the first resource without a type. -/
  | unresolved (part : Part) (resources : List Resource)
  /-- A number in a struct has too many digits. What was left out before is kept. -/
  | unwritable (vertexSkips : List VertexSkip) (structSkips : List StructSkip)
  deriving DecidableEq, Repr

def ReflectionError.message : ReflectionError → String
  | .entryPointCount n => "Expected exactly one entrypoint, found " ++ toString n
  | .unresolved part _ => "Could not reflect " ++ part.phrase
  | .unwritable .. => Number.unwritableText

def ExecutionModel.stage : ExecutionModel → String
  | .vertex => "vertex"
  | .fragment => "fragment"
  | .glCompute | .unknown => "unsupported"

structure ReflectionOptions where
  shaderName : String
  headerFileName : String
  deriving DecidableEq, Repr

/-- A document, and the optional parts of it that were left out. -/
structure Reflection where
  document : Document
  vertexSkips : List VertexSkip
  structSkips : List StructSkip
  deriving DecidableEq, Repr

namespace Shader

/-- The bindings of a part: those of its lists, one after another. Every list is tried. -/
def part (s : Shader) (p : Part) : Except ReflectionError (List ResourceBinding) :=
  let results := p.categories.map fun c => s.bindings (s.resources c)
  let failures := results.filterMap fun
    | .error r => some r
    | .ok _ => none
  if failures.isEmpty then
    .ok (results.flatMap fun
      | .ok bs => bs
      | .error _ => [])
  else .error (.unresolved p failures)

structure Interface where
  uniformBuffers : List ResourceBinding
  stageInputs : List ResourceBinding
  sampledImages : List ResourceBinding
  stageOutputs : List ResourceBinding
  deriving DecidableEq, Repr

/-- The bindings of all parts, or the first part that fails. -/
def interface (s : Shader) : Except ReflectionError Interface := do
  let uniformBuffers ← s.part .uniformBuffers
  let stageInputs ← s.part .stageInputs
  let sampledImages ← s.part .sampledImages
  let stageOutputs ← s.part .stageOutputs
  return { uniformBuffers, stageInputs, sampledImages, stageOutputs }

/-- The entry point of a shader that has exactly one. -/
def entryPoint (s : Shader) : Except ReflectionError EntryPoint :=
  match s.entryPoints with
  | [entry] => .ok entry
  | entries => .error (.entryPointCount entries.length)

/-- What becomes of the vertex struct, which only vertex shaders have. -/
def vertexOutcomes (s : Shader) (model : ExecutionModel) :
    List (Except (Absence VertexSkip) StructDefinition) :=
  if model = .vertex then [s.vertexStruct (s.resources .stageInputs)] else []

/-- Reflect a shader. Every resource must have a type; a vertex struct and the definitions of
single structs are left out where they fail. -/
def reflect (s : Shader) (o : ReflectionOptions) (namer : Namer) :
    Except ReflectionError Reflection × Namer :=
  match s.entryPoint, s.interface with
  | .error e, _ => (.error e, namer)
  | _, .error e => (.error e, namer)
  | .ok entry, .ok i =>
    let vertex := s.vertexOutcomes entry.model
    if isBroken vertex then (.error (.unwritable [] []), namer)
    else
      let (outcomes, namer) := s.allStructOutcomes namer
      if isBroken outcomes then (.error (.unwritable (skipsOf vertex) (skipsOf outcomes)), namer)
      else
        (.ok {
          document := {
            entryPoint := entry.name
            shaderName := o.shaderName
            stage := entry.model.stage
            headerFileName := o.headerFileName
            uniformBuffers := i.uniformBuffers
            stageInputs := i.stageInputs
            sampledImages := i.sampledImages
            stageOutputs := i.stageOutputs
            structs := definitionsOf vertex ++ definitionsOf outcomes }
          vertexSkips := skipsOf vertex
          structSkips := skipsOf outcomes }, namer)

end Shader
end ShaderReflection
