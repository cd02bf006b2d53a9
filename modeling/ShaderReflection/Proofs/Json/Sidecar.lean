import ShaderReflection.Document.Keyed
import ShaderReflection.Proofs.Json.RoundTrip

/-! The JSON text of a document loses nothing: it is read back as the keyed form of the document,
and no other document has the same text. -/
namespace ShaderReflection

namespace Json

mutual

def numbers : Json → List Int
  | .int n => [n]
  | .text _ => []
  | .array elements => elementNumbers elements
  | .object fields => fieldNumbers fields

def elementNumbers : List Json → List Int
  | [] => []
  | e :: es => numbers e ++ elementNumbers es

def fieldNumbers : List (String × Json) → List Int
  | [] => []
  | (_, v) :: fs => numbers v ++ fieldNumbers fs

end

mutual

theorem isWritable_iff : ∀ v : Json,
    v.isWritable = true ↔ ∀ n ∈ v.numbers, Number.isWritable n = true
  | .int n => by simp [isWritable, numbers]
  | .text s => by simp [isWritable, numbers]
  | .array es => by simpa only [isWritable, numbers] using elementsWritable_iff es
  | .object fs => by simpa only [isWritable, numbers] using fieldsWritable_iff fs

theorem elementsWritable_iff : ∀ es : List Json,
    elementsWritable es = true ↔ ∀ n ∈ elementNumbers es, Number.isWritable n = true
  | [] => by simp [elementsWritable, elementNumbers]
  | e :: es => by
    simp only [elementsWritable, elementNumbers, Bool.and_eq_true, isWritable_iff e,
      elementsWritable_iff es, List.forall_mem_append]

theorem fieldsWritable_iff : ∀ fs : List (String × Json),
    fieldsWritable fs = true ↔ ∀ n ∈ fieldNumbers fs, Number.isWritable n = true
  | [] => by simp [fieldsWritable, fieldNumbers]
  | (_, v) :: fs => by
    simp only [fieldsWritable, fieldWritable, fieldNumbers, Bool.and_eq_true, isWritable_iff v,
      fieldsWritable_iff fs, List.forall_mem_append]

end

end Json

section Keyed

theorem TypeInfo.toJson_injective : Function.Injective TypeInfo.toJson := by
  rintro ⟨⟩ ⟨⟩ h
  simpa [toJson] using h

theorem ResourceBinding.toJson_injective : Function.Injective ResourceBinding.toJson := by
  rintro ⟨_, _, _, _, _, ⟨⟩, _⟩ ⟨_, _, _, _, _, ⟨⟩, _⟩ h
  simpa [toJson, TypeInfo.toJson_injective.eq_iff, and_assoc] using h

theorem StructMember.toJson_injective : Function.Injective StructMember.toJson := by
  rintro ⟨⟩ ⟨⟩ h
  simpa [toJson] using h

theorem StructDefinition.toJson_injective : Function.Injective StructDefinition.toJson := by
  rintro ⟨⟩ ⟨⟩ h
  simpa [toJson, StructMember.toJson_injective.list_map.eq_iff] using h

theorem Document.toJson_injective : Function.Injective Document.toJson := by
  rintro ⟨⟩ ⟨⟩ h
  simpa [toJson, ResourceBinding.toJson_injective.list_map.eq_iff,
    StructDefinition.toJson_injective.list_map.eq_iff] using h

end Keyed

/-- A document has a JSON text if its numbers have at most `maxDigits` digits. The text is ASCII and
ends with its last line; a reader gets the keyed form of the document from it, with all keys in
their order, and no other document has this text. -/
theorem Document.jsonText?_lossless {d : Document}
    (h : ∀ n ∈ d.toJson.numbers, (Nat.toDigits 10 n.natAbs).length ≤ Number.maxDigits) :
    ∃ text, d.jsonText? = some text ∧ (∀ c ∈ text.toList, c.toNat < 128) ∧
      text.toList.getLast? = some '\n' ∧ Json.read? text = some d.toJson.value ∧
      ∀ d', d'.jsonText? = some text → d' = d := by
  have hwritable : d.toJson.isWritable = true :=
    (Json.isWritable_iff d.toJson).mpr fun n hn => (Number.isWritable_iff n).mpr (h n hn)
  have htext : d.toJson.toText.toList = d.toJson.textAt 0 ++ ['\n'] := String.toList_ofList
  refine ⟨d.toJson.toText, if_pos hwritable, fun c hc => ?_, by simp [htext],
    Json.read?_toText d.toJson, fun d' hd' => ?_⟩
  · rw [htext] at hc
    rcases List.mem_append.mp hc with hc | hc
    · exact Json.ascii_of_mem_textAt d.toJson 0 c hc
    · rw [List.mem_singleton.mp hc]
      decide
  · unfold jsonText? at hd'
    split at hd'
    · exact toJson_injective (Json.toText_injective (Option.some.inj hd'))
    · cases hd'

/-- A document with a quote, a backslash, a line break, a control character and characters of one
and of two units, a number of twenty digits, and nothing in most of its lists. -/
def oddDocument : Document where
  entryPoint := "m\"a\\i\nn\x7f"
  shaderName := "é😀"
  stage := "vertex"
  headerFileName := ""
  uniformBuffers := []
  stageInputs := [⟨"position", -1, 0, 18446744073709551616, 0, {}, ⟨"float", 32, 3, 1⟩⟩]
  sampledImages := []
  stageOutputs := []
  structs := [⟨"Empty", 0, []⟩]

theorem oddDocument_lossless :
    (∀ n ∈ oddDocument.toJson.numbers,
      (Nat.toDigits 10 n.natAbs).length ≤ Number.maxDigits) ∧
    ∃ text, oddDocument.jsonText? = some text ∧ (∀ c ∈ text.toList, c.toNat < 128) ∧
      Json.read? text = some oddDocument.toJson.value ∧
      ∀ d', d'.jsonText? = some text → d' = oddDocument := by
  have hdigits : ∀ n ∈ oddDocument.toJson.numbers,
      (Nat.toDigits 10 n.natAbs).length ≤ Number.maxDigits := by decide +kernel
  obtain ⟨text, htext, hascii, -, hread, hunique⟩ := Document.jsonText?_lossless hdigits
  exact ⟨hdigits, text, htext, hascii, hread, hunique⟩

end ShaderReflection
