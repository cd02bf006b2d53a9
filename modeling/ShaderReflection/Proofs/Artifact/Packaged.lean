import ShaderReflection.Artifact.Render
import ShaderReflection.Proofs.CommandLine.PathNames
import ShaderReflection.Proofs.Json.Sidecar

/-! Rendering with the packaged templates. It can fail only where a number cannot be written, and
all numbers of the sources are also in the document's keyed form. -/
namespace ShaderReflection

section Numbers

theorem Json.elementNumbers_map (f : α → Json) (xs : List α) :
    elementNumbers (xs.map f) = xs.flatMap fun x => (f x).numbers := by
  induction xs with
  | nil => rfl
  | cons x xs ih => rw [List.map_cons, elementNumbers, ih, List.flatMap_cons]

theorem Document.numbers_toJson (d : Document) : d.toJson.numbers =
    d.uniformBuffers.flatMap (·.toJson.numbers) ++ d.stageInputs.flatMap (·.toJson.numbers)
      ++ d.sampledImages.flatMap (·.toJson.numbers) ++ d.stageOutputs.flatMap (·.toJson.numbers)
      ++ d.structs.flatMap (·.toJson.numbers) := by
  simp [toJson, Json.numbers, Json.fieldNumbers, Json.elementNumbers_map]

theorem StructDefinition.numbers_toJson (s : StructDefinition) : s.toJson.numbers =
    s.byteLength :: s.members.flatMap fun m => [m.offset, m.byteLength] := by
  simp [toJson, StructMember.toJson, Json.numbers, Json.fieldNumbers, Json.elementNumbers_map]

end Numbers

namespace Artifact

open CommandLine (Path)

section Numbers

private theorem structNumbers_subset (s : StructDefinition) :
    headerNumbers.structNumbers s ⊆ s.toJson.numbers := by
  rw [s.numbers_toJson]
  unfold headerNumbers.structNumbers
  exact List.append_subset.mpr ⟨List.subset_cons_self _ _, by simp⟩

private theorem bufferNumbers_subset (b : ResourceBinding) :
    headerNumbers.bufferNumbers b ⊆ b.toJson.numbers := by
  simp [headerNumbers.bufferNumbers, ResourceBinding.toJson, Json.numbers, Json.fieldNumbers]

private theorem slotNumbers_subset (b : ResourceBinding) :
    headerNumbers.slotNumbers b ⊆ b.toJson.numbers := by
  simp [headerNumbers.slotNumbers, ResourceBinding.toJson, TypeInfo.toJson, Json.numbers,
    Json.fieldNumbers]

private theorem imageNumbers_subset (b : ResourceBinding) :
    headerNumbers.imageNumbers b ⊆ b.toJson.numbers := by
  simp [headerNumbers.imageNumbers, ResourceBinding.toJson, Json.numbers, Json.fieldNumbers]

theorem headerNumbers_subset (d : Document) : headerNumbers d ⊆ d.toJson.numbers := by
  intro n hn
  rw [d.numbers_toJson]
  simp only [headerNumbers, List.mem_append, List.mem_flatMap] at hn ⊢
  rcases hn with (((⟨s, hs, hn⟩ | ⟨b, hb, hn⟩) | ⟨b, hb, hn⟩) | ⟨b, hb, hn⟩) | ⟨b, hb, hn⟩
  · exact .inr ⟨s, hs, structNumbers_subset s hn⟩
  · exact .inl (.inl (.inl (.inl ⟨b, hb, bufferNumbers_subset b hn⟩)))
  · exact .inl (.inl (.inl (.inr ⟨b, hb, slotNumbers_subset b hn⟩)))
  · exact .inl (.inl (.inr ⟨b, hb, imageNumbers_subset b hn⟩))
  · exact .inl (.inr ⟨b, hb, slotNumbers_subset b hn⟩)

theorem implementationNumbers_subset (d : Document) :
    implementationNumbers d ⊆ d.toJson.numbers := by
  intro n hn
  rw [d.numbers_toJson]
  obtain ⟨s, hs, hn⟩ := List.mem_flatMap.mp hn
  refine List.mem_append_right _ (List.mem_flatMap.mpr ⟨s, hs, ?_⟩)
  rw [s.numbers_toJson]
  rcases List.mem_append.mp hn with hn | hn
  · obtain ⟨m, hm, rfl⟩ := List.mem_map.mp hn
    exact List.mem_cons_of_mem _ (List.mem_flatMap.mpr ⟨m, hm, List.mem_cons_self⟩)
  · rw [List.mem_singleton.mp hn]
    exact List.mem_cons_self

end Numbers

/-- A template that is named without a directory is looked for by its name. -/
theorem wayTo?_of_isName {template : String} (h : Path.IsName template) :
    wayTo? template = some [template] := by
  unfold wayTo?
  rw [h.splitOn_slash]
  simp [h.ne_empty, h.ne_dot, Ne.symm h.ne_dots]

/-- Without templates of the caller's, the packaged ones are rendered, and no engine is asked. -/
theorem renderAll_packaged (d : Document) (engine : Engine) :
    renderAll (fun _ => none) d engine = (do
    let header ← written (headerNumbers d) (header d)
    let implementation ← written (implementationNumbers d) (implementation d)
    return { header, implementation }) := by
  have hheader : Path.IsName headerTemplate := by decide
  have himplementation : Path.IsName implementationTemplate := by decide
  unfold renderAll render
  rw [wayTo?_of_isName hheader, wayTo?_of_isName himplementation]
  rfl

theorem written_eq_ok {numbers : List Int} (h : ∀ n ∈ numbers, Number.isWritable n = true)
    (text : String) : written numbers text = .ok text :=
  if_pos (List.all_eq_true.mpr h)

/-- A document whose numbers can all be written is rendered. -/
theorem renderAll_packaged_eq_ok {d : Document}
    (h : ∀ n ∈ d.toJson.numbers, (Nat.toDigits 10 n.natAbs).length ≤ Number.maxDigits)
    (engine : Engine) : renderAll (fun _ => none) d engine =
      .ok { header := header d, implementation := implementation d } := by
  have hwritable : ∀ n ∈ d.toJson.numbers, Number.isWritable n = true := fun n hn =>
    (Number.isWritable_iff n).mpr (h n hn)
  rw [renderAll_packaged, written_eq_ok fun n hn => hwritable n (headerNumbers_subset d hn),
    written_eq_ok fun n hn => hwritable n (implementationNumbers_subset d hn)]
  rfl

end Artifact
end ShaderReflection
