import ShaderReflection.Document
import ShaderReflection.Text.CamelCase

/-! The two sources that are generated for a document, as lists of lines: a header with one struct
that declares everything the document lists, and an implementation that checks the layouts of
structs and lists all stage inputs and outputs in arrays. -/
namespace ShaderReflection.Artifact

/-- Lines as text; every line is ended. -/
def text (lines : List String) : String := String.join (lines.map (· ++ "\n"))

def stageTag (stage : String) : String :=
  if stage = "vertex" then "ShaderStage::kVertex"
  else if stage = "fragment" then "ShaderStage::kFragment"
  else "ShaderStage::kUnknown"

def shaderStruct (d : Document) : String :=
  Text.camelCase d.shaderName ++ Text.camelCase d.stage ++ "Shader"

def inputConstant (b : ResourceBinding) : String := "kInput" ++ Text.camelCase b.name

def outputConstant (b : ResourceBinding) : String := "kOutput" ++ Text.camelCase b.name

/-- The lines at the top of both sources. -/
def preamble (d : Document) : List String := [
  "// Generated by reflc - do not edit.",
  "// Shader: " ++ d.shaderName ++ " (" ++ d.stage ++ "), entrypoint \"" ++ d.entryPoint ++ "\"",
  ""]

section Header

def banner (title : String) : List String := [
  "  // ===========================================================================",
  "  // " ++ title ++ " " ++ String.ofList (List.replicate (74 - title.length) '='),
  "  // ==========================================================================="]

def headerOpening (d : Document) : List String := [
  "#pragma once",
  "",
  "#include <array>",
  "#include <cstddef>",
  "#include <cstdint>",
  "#include <string_view>",
  "",
  "#include \"impeller/core/shader_types.h\"",
  "#include \"impeller/geometry/matrix.h\"",
  "#include \"impeller/geometry/point.h\"",
  "#include \"impeller/geometry/vector.h\"",
  "",
  "namespace impeller \x7b",
  "",
  "struct " ++ shaderStruct d ++ " \x7b"]

def stageInfo (d : Document) : List String :=
  banner "Stage Info" ++ [
    "  static constexpr std::string_view kLabel = \"" ++ Text.camelCase d.shaderName ++ "\";",
    "  static constexpr std::string_view kEntrypointName = \"" ++ d.entryPoint ++ "\";",
    "  static constexpr ShaderStage kShaderStage = " ++ stageTag d.stage ++ ";"]

def memberDeclaration (m : StructMember) : String :=
  "    " ++ m.type ++ " " ++ m.name ++ "; // (offset " ++ toString m.offset ++ ", size "
    ++ toString m.byteLength ++ ")"

def structOpening (s : StructDefinition) : String := "  struct " ++ s.name ++ " \x7b"

def structClosing (s : StructDefinition) : String :=
  "  \x7d; // struct " ++ s.name ++ " (size " ++ toString s.byteLength ++ ")"

def structDeclaration (s : StructDefinition) : List String :=
  ["", structOpening s] ++ s.members.map memberDeclaration ++ [structClosing s]

def structSection (d : Document) : List String :=
  if d.structs.isEmpty then []
  else banner "Struct Definitions" ++ d.structs.flatMap structDeclaration

def bufferDeclaration (b : ResourceBinding) : List String := [
  "",
  "  static constexpr auto kResource" ++ Text.camelCase b.name ++ " = ShaderUniformSlot \x7b",
  "    \"" ++ b.name ++ "\",      // name",
  "    " ++ toString b.slots.first ++ "u,  // binding",
  "    " ++ toString b.descriptorSet ++ "u,  // set",
  "  \x7d;"]

def bufferSection (d : Document) : List String :=
  if d.uniformBuffers.isEmpty then []
  else "" :: banner "Stage Uniforms" ++ d.uniformBuffers.flatMap bufferDeclaration

def slotOpening (constant : String) : String :=
  "  static constexpr auto " ++ constant ++ " = ShaderStageIOSlot \x7b"

def slotDeclaration (constant : String) (b : ResourceBinding) : List String := [
  slotOpening constant,
  "    \"" ++ b.name ++ "\",  // name",
  "    " ++ toString b.location ++ "u,  // attribute location",
  "    " ++ toString b.descriptorSet ++ "u,  // attribute set",
  "    " ++ toString b.binding ++ "u,  // attribute binding",
  "    " ++ b.type.typeName ++ ",  // type",
  "    " ++ toString b.type.bitWidth ++ "u,  // bit width of type",
  "    " ++ toString b.type.vecSize ++ "u,  // vec size",
  "    " ++ toString b.type.columns ++ "u  // number of columns",
  "  \x7d;"]

def slotArray (name : String) (count : Nat) : String :=
  "  static const std::array<const ShaderStageIOSlot*, " ++ toString count ++ "> " ++ name ++ ";"

def inputSection (d : Document) : List String :=
  "" :: banner "Stage Inputs"
    ++ d.stageInputs.flatMap (fun b => slotDeclaration (inputConstant b) b)
    ++ [slotArray "kAllShaderStageInputs" d.stageInputs.length]

def imageDeclaration (b : ResourceBinding) : List String := [
  "",
  "  static constexpr auto kResource" ++ Text.camelCase b.name ++ " = SampledImageSlot \x7b",
  "    \"" ++ b.name ++ "\",  // name",
  "    " ++ toString b.slots.first ++ "u,  // texture",
  "    " ++ toString b.slots.second ++ "u,  // sampler",
  "    " ++ toString b.binding ++ "u,  // binding",
  "    " ++ toString b.descriptorSet ++ "u,  // set",
  "  \x7d;"]

def imageSection (d : Document) : List String :=
  if d.sampledImages.isEmpty then []
  else "" :: banner "Sampled Images" ++ d.sampledImages.flatMap imageDeclaration

def outputSection (d : Document) : List String :=
  "" :: banner "Stage Outputs"
    ++ d.stageOutputs.flatMap (fun b => slotDeclaration (outputConstant b) b)
    ++ [slotArray "kAllShaderStageOutputs" d.stageOutputs.length]

def headerClosing (d : Document) : List String := [
  "\x7d;  // struct " ++ shaderStruct d,
  "",
  "\x7d  // namespace impeller"]

def headerLines (d : Document) : List String :=
  preamble d ++ headerOpening d ++ stageInfo d ++ structSection d ++ bufferSection d
    ++ inputSection d ++ imageSection d ++ outputSection d ++ headerClosing d

/-- The numbers in the header: those of structs, uniform buffers, stage inputs, sampled images and
stage outputs. -/
def headerNumbers (d : Document) : List Int :=
  d.structs.flatMap structNumbers ++ d.uniformBuffers.flatMap bufferNumbers
    ++ d.stageInputs.flatMap slotNumbers ++ d.sampledImages.flatMap imageNumbers
    ++ d.stageOutputs.flatMap slotNumbers
where
  structNumbers (s : StructDefinition) : List Int :=
    s.members.flatMap (fun m => [m.offset, m.byteLength]) ++ [s.byteLength]
  bufferNumbers (b : ResourceBinding) : List Int := [b.slots.first, b.descriptorSet]
  slotNumbers (b : ResourceBinding) : List Int :=
    [b.location, b.descriptorSet, b.binding, b.type.bitWidth, b.type.vecSize, b.type.columns]
  imageNumbers (b : ResourceBinding) : List Int :=
    [b.slots.first, b.slots.second, b.binding, b.descriptorSet]

def header (d : Document) : String := text (headerLines d)

end Header

section Implementation

def implementationOpening (d : Document) : List String := [
  "#include \"" ++ d.headerFileName ++ "\"",
  "",
  "#include <type_traits>",
  "",
  "namespace impeller \x7b",
  "",
  "using Shader = " ++ shaderStruct d ++ ";",
  ""]

def standardLayoutCheck (s : StructDefinition) : String :=
  "static_assert(std::is_standard_layout_v<Shader::" ++ s.name ++ ">);"

def offsetCheck (s : StructDefinition) (m : StructMember) : String :=
  "static_assert(offsetof(Shader::" ++ s.name ++ ", " ++ m.name ++ ") == " ++ toString m.offset
    ++ ");"

def sizeCheck (s : StructDefinition) : String :=
  "static_assert(sizeof(Shader::" ++ s.name ++ ") == " ++ toString s.byteLength ++ ");"

def structChecks (s : StructDefinition) : List String :=
  standardLayoutCheck s :: s.members.map (offsetCheck s) ++ [sizeCheck s]

def slotEntry (constant : String) (b : ResourceBinding) : String :=
  "  &Shader::" ++ constant ++ ",  // " ++ b.name

def slotArrayDefinition (comment name : String) (entries : List String) : List String :=
  [ comment,
    "const std::array<const ShaderStageIOSlot*, " ++ toString entries.length ++ ">",
    "    Shader::" ++ name ++ " = \x7b"] ++ entries ++ ["\x7d;", ""]

def implementationLines (d : Document) : List String :=
  preamble d ++ implementationOpening d ++ d.structs.flatMap structChecks ++ [""]
    ++ slotArrayDefinition "// Stage inputs, in declaration order." "kAllShaderStageInputs"
        (d.stageInputs.map fun b => slotEntry (inputConstant b) b)
    ++ slotArrayDefinition "// Stage outputs, in declaration order." "kAllShaderStageOutputs"
        (d.stageOutputs.map fun b => slotEntry (outputConstant b) b)
    ++ ["\x7d  // namespace impeller"]

/-- The numbers in the implementation. -/
def implementationNumbers (d : Document) : List Int :=
  d.structs.flatMap fun s => s.members.map (·.offset) ++ [s.byteLength]

def implementation (d : Document) : String := text (implementationLines d)

end Implementation

end ShaderReflection.Artifact
