import ShaderReflection.Proofs.Artifact.HeaderReading
import ShaderReflection.Proofs.Artifact.ImplementationReading
import ShaderReflection.Proofs.Artifact.Packaged

/-! Header and implementation agree, as a reader sees them who has nothing but their texts: on the
constants that are declared and listed, on the lengths of arrays, and on structs. -/
namespace ShaderReflection.Artifact

open Text (OneLine)

/-- The lines of a header and of an implementation agree with each other and with a document. What
the arrays list is compared line by line, because names and constants can hold any text. -/
structure Agree (d : Document) (header implementation : List String) : Prop where
  inputs : constantsIn "kInput" header = d.stageInputs.map inputConstant
  outputs : constantsIn "kOutput" header = d.stageOutputs.map outputConstant
  lengths : arrayLengthsIn header = some [
    ("kAllShaderStageInputs", ((constantsIn "kInput" header).length : Int)),
    ("kAllShaderStageOutputs", ((constantsIn "kOutput" header).length : Int))]
  arrays : arraysIn implementation = some [
    { name := "kAllShaderStageInputs"
      length := (constantsIn "kInput" header).length
      entries := listing (constantsIn "kInput" header) (d.stageInputs.map (·.name)) },
    { name := "kAllShaderStageOutputs"
      length := (constantsIn "kOutput" header).length
      entries := listing (constantsIn "kOutput" header) (d.stageOutputs.map (·.name)) }]
  structs : structsIn header = some (d.structs.map declaredStruct)
  checks : checksIn implementation = some (d.structs.map checkedStruct)
  /-- Each struct has a check for each member and two more, and nothing else is checked. -/
  assertions : (assertionsIn implementation).length =
    (d.structs.map fun s => s.members.length + 2).sum

theorem agree_lines (d : Document) : Agree d (headerLines d) (implementationLines d) := by
  have hinputs : ((constantsIn "kInput" (headerLines d)).length : Int) = d.stageInputs.length := by
    rw [constantsIn_headerLines_inputs, List.length_map]
  have houtputs : ((constantsIn "kOutput" (headerLines d)).length : Int) =
      d.stageOutputs.length := by
    rw [constantsIn_headerLines_outputs, List.length_map]
  refine ⟨constantsIn_headerLines_inputs d, constantsIn_headerLines_outputs d, ?_, ?_,
    structsIn_headerLines d, checksIn_implementationLines d, ?_⟩
  · rw [hinputs, houtputs, arrayLengthsIn_headerLines]
  · rw [hinputs, houtputs, constantsIn_headerLines_inputs, constantsIn_headerLines_outputs,
      arraysIn_implementationLines]
  · have hchecks (s : StructDefinition) : (structChecks s).length = s.members.length + 2 := by
      simp [structChecks]
    rw [assertionsIn_implementationLines, List.length_flatMap]
    simp only [hchecks]

/-- A document without line breaks in its texts, whose numbers have at most `maxDigits` digits, is
rendered by the packaged templates, and the two sources agree. -/
theorem renderAll_packaged_agree {d : Document} (htexts : ∀ t ∈ d.texts, OneLine t)
    (hnumbers : ∀ n ∈ d.toJson.numbers, (Nat.toDigits 10 n.natAbs).length ≤ Number.maxDigits)
    (engine : Engine) : ∃ a, renderAll (fun _ => none) d engine = .ok a ∧
      Agree d (linesOf a.header) (linesOf a.implementation) := by
  have hlines := oneLineTexts_of_texts htexts
  have hheader : linesOf (header d) = headerLines d := linesOf_text (oneLine_headerLines hlines)
  have himplementation : linesOf (implementation d) = implementationLines d :=
    linesOf_text (oneLine_implementationLines hlines)
  refine ⟨_, renderAll_packaged_eq_ok hnumbers engine, ?_⟩
  dsimp only
  rw [hheader, himplementation]
  exact agree_lines d

/-- A document with resources of all kinds, an empty struct, and a name that reads as the end of an
entry in an array. -/
def paneDocument : Document where
  entryPoint := "main"
  shaderName := "pane-of_glass"
  stage := "fragment"
  headerFileName := "pane.h"
  uniformBuffers := [⟨"Pane", 0, 1, 0, 0, {}, ⟨"ShaderType::kStruct", 0, 1, 1⟩⟩]
  stageInputs := [⟨"uv_coords", 0, 0, 0, 0, {}, ⟨"ShaderType::kFloat", 32, 2, 1⟩⟩,
    ⟨",  // \x7b", 0, 0, -1, 0, {}, ⟨"ShaderType::kFloat", 32, 4, 1⟩⟩]
  sampledImages := [⟨"tex", 0, 2, 0, 0, {}, ⟨"ShaderType::kSampledImage", 0, 1, 1⟩⟩]
  stageOutputs := [⟨"frag_color", 0, 0, 0, 0, {}, ⟨"ShaderType::kFloat", 32, 4, 1⟩⟩]
  structs := [⟨"Pane", 16, [⟨"tint", "Vector4", 0, 16⟩]⟩, ⟨"Empty", 0, []⟩]

theorem paneDocument_agree :
    (∀ t ∈ paneDocument.texts, OneLine t) ∧
    (∀ n ∈ paneDocument.toJson.numbers,
      (Nat.toDigits 10 n.natAbs).length ≤ Number.maxDigits) ∧
    ∃ a, renderAll (fun _ => none) paneDocument = .ok a ∧
      Agree paneDocument (linesOf a.header) (linesOf a.implementation) := by
  have htexts : ∀ t ∈ paneDocument.texts, OneLine t := by
    unfold OneLine
    decide +kernel
  have hnumbers : ∀ n ∈ paneDocument.toJson.numbers,
      (Nat.toDigits 10 n.natAbs).length ≤ Number.maxDigits := by decide +kernel
  exact ⟨htexts, hnumbers, renderAll_packaged_agree htexts hnumbers placeholders⟩

end ShaderReflection.Artifact
