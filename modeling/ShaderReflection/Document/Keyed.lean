import ShaderReflection.Document
import ShaderReflection.Json

/-! The keyed form of a document, which is written as JSON beside the sources. -/
namespace ShaderReflection

def TypeInfo.toJson (t : TypeInfo) : Json :=
  .object [("type_name", .text t.typeName), ("bit_width", .int t.bitWidth),
    ("vec_size", .int t.vecSize), ("columns", .int t.columns)]

def ResourceBinding.toJson (b : ResourceBinding) : Json :=
  .object [("name", .text b.name), ("descriptor_set", .int b.descriptorSet),
    ("binding", .int b.binding), ("location", .int b.location), ("index", .int b.index),
    ("msl_res_0", .int b.slots.first), ("msl_res_1", .int b.slots.second),
    ("msl_res_2", .int b.slots.third), ("msl_res_3", .int b.slots.fourth),
    ("type", b.type.toJson)]

def StructMember.toJson (m : StructMember) : Json :=
  .object [("name", .text m.name), ("type", .text m.type), ("offset", .int m.offset),
    ("byte_length", .int m.byteLength)]

def StructDefinition.toJson (s : StructDefinition) : Json :=
  .object [("name", .text s.name), ("byte_length", .int s.byteLength),
    ("members", .array (s.members.map (·.toJson)))]

def Document.toJson (d : Document) : Json :=
  .object [("entrypoint", .text d.entryPoint), ("shader_name", .text d.shaderName),
    ("shader_stage", .text d.stage), ("header_file_name", .text d.headerFileName),
    ("uniform_buffers", .array (d.uniformBuffers.map (·.toJson))),
    ("stage_inputs", .array (d.stageInputs.map (·.toJson))),
    ("sampled_images", .array (d.sampledImages.map (·.toJson))),
    ("stage_outputs", .array (d.stageOutputs.map (·.toJson))),
    ("struct_definitions", .array (d.structs.map (·.toJson)))]

/-- The JSON text of a document, if its numbers can be written. -/
def Document.jsonText? (d : Document) : Option String :=
  if d.toJson.isWritable then some d.toJson.toText else none

end ShaderReflection
