import ShaderReflection.Proofs.Module.Pointers
import ShaderReflection.Proofs.Module.SlotRank
import ShaderReflection.Proofs.Reflection.Completeness

/-! Categories in the document. A resource is put into its category by the type that is known at the
end, and shown with the descriptor that its pointer copied; the two are the same type, and the slots
of a resource have the form that its category gives them. -/
namespace ShaderReflection

theorem Shader.documentOf_reflect {s : Shader} {o : ReflectionOptions} {n : Namer} {r : Reflection}
    (h : (s.reflect o n).1 = .ok r) : ∃ entry, s.DocumentOf o n entry r.document := by
  cases hf : s.firstFailure? with
  | some e =>
    rw [s.reflect_eq_error hf] at h
    cases h
  | none =>
    have hrun := (s.firstFailure?_eq_none_iff.mp hf).reflect_run o n
    generalize s.reflect o n = p at hrun h
    cases hrun with
    | unwritable => cases h
    | document he hd =>
      obtain rfl := Except.ok.inj h
      exact ⟨_, hd⟩

namespace Module

open Assembly (Instruction)

/-- The base type of the resources of a category, if they have one in common. -/
def baseTypeOf? : Category → Option BaseType
  | .uniformBuffers => some .struct
  | .sampledImages => some .sampledImage
  | .separateImages => some .image
  | .separateSamplers => some .sampler
  | .stageInputs | .stageOutputs => none

namespace Declarations

private theorem baseType_of_category? {d : Declarations} {v : Variable} {c : Category}
    {b : BaseType} {u : TypeDescriptor} (hc : d.category? v = some c) (hb : baseTypeOf? c = some b)
    (hu : d.types.get? (d.baseTypeId v) = some u) : u.baseType = b := by
  unfold category? at hc
  rw [hu] at hc
  cases hs : v.storage with
  | uniform =>
    rw [hs] at hc
    dsimp only at hc
    split at hc
    case isTrue hstruct =>
      obtain rfl := Option.some.inj hc
      rw [← Option.some.inj hb]
      have hstruct := (Bool.and_eq_true_iff.mp hstruct).1
      unfold TypeDescriptor.isStruct at hstruct
      exact of_decide_eq_true hstruct
    case isFalse => cases hc
  | input | output =>
    rw [hs] at hc
    dsimp only at hc
    split at hc
    · cases hc
    · obtain rfl := Option.some.inj hc
      cases hb
  | uniformConstant =>
    rw [hs] at hc
    dsimp only [Option.bind_some] at hc
    unfold constantCategory? at hc
    split at hc
    case h_1 ht =>
      obtain rfl := Option.some.inj hc
      rw [ht, ← Option.some.inj hb]
    case h_2 ht =>
      split at hc
      · cases hc
      · obtain rfl := Option.some.inj hc
        rw [ht, ← Option.some.inj hb]
    case h_3 ht =>
      obtain rfl := Option.some.inj hc
      rw [ht, ← Option.some.inj hb]
    case h_4 => cases hc
  | other =>
    rw [hs] at hc
    cases hc

/-- A slot in use: a natural number below the number of resources that take slots. It is not the
mark for a missing slot unless there are too many of them. -/
structure Assigned (d : Declarations) (slot : Int) : Prop where
  nonneg : 0 ≤ slot
  lt : slot < d.claimants.length
  assigned : d.claimants.length < 0xFFFFFFFF → slot ≠ unassigned

inductive SlotsOf (d : Declarations) : Category → Slots → Prop where
  | uniformBuffer {buffer : Int} (h : Assigned d buffer) :
      SlotsOf d .uniformBuffers { first := buffer }
  | sampledImage {texture sampler : Int} (h : Assigned d texture) (h' : Assigned d sampler) :
      SlotsOf d .sampledImages { first := texture, second := sampler }
  | separateImage {texture : Int} (h : Assigned d texture) :
      SlotsOf d .separateImages { first := texture }
  | separateSampler {sampler : Int} (h : Assigned d sampler) :
      SlotsOf d .separateSamplers { first := sampler }
  | stageInput : SlotsOf d .stageInputs {}
  | stageOutput : SlotsOf d .stageOutputs {}

/-- A binding shows a resource of a category: the type that the resource holds or points to, with the
tag and the slots that the category asks for. -/
structure Shows (d : Declarations) (c : Category) (r : Resource) (b : ResourceBinding) : Prop where
  type : ∃ t u, d.types.get? r.typeId = some t ∧ d.types.get? r.baseTypeId = some u ∧
    t = { u with pointer := t.pointer } ∧ b.type = u.info
  tag : ∀ bt, baseTypeOf? c = some bt → b.type.typeName = bt.tag
  slots : SlotsOf d c b.slots

/-- The bindings of a document show the resources of their categories, in order. Sampled images come
in three runs: combined ones, images, and samplers. -/
structure ShowsCategories (d : Declarations) (doc : Document) : Prop where
  uniformBuffers : List.Forall₂ (Shows d .uniformBuffers) (d.resources .uniformBuffers)
    doc.uniformBuffers
  sampledImages : ∃ combined images samplers,
    doc.sampledImages = combined ++ images ++ samplers ∧
    List.Forall₂ (Shows d .sampledImages) (d.resources .sampledImages) combined ∧
    List.Forall₂ (Shows d .separateImages) (d.resources .separateImages) images ∧
    List.Forall₂ (Shows d .separateSamplers) (d.resources .separateSamplers) samplers
  stageInputs : List.Forall₂ (Shows d .stageInputs) (d.resources .stageInputs) doc.stageInputs
  stageOutputs : List.Forall₂ (Shows d .stageOutputs) (d.resources .stageOutputs) doc.stageOutputs

section Slots

theorem assigned_of_mem_naturals {d : Declarations} {n : Nat} {slot : Int} (h : slot ∈ naturals n)
    (hn : n ≤ d.claimants.length) : Assigned d slot := by
  obtain ⟨k, hk, rfl⟩ := List.mem_map.mp h
  have hk := List.mem_range.mp hk
  have hlt : (Int.ofNat k) < d.claimants.length := by
    have hkn : k < d.claimants.length := by omega
    exact Int.ofNat_lt.mpr hkn
  have hnonneg : 0 ≤ Int.ofNat k := Int.natCast_nonneg k
  refine ⟨hnonneg, hlt, fun hcount hu => ?_⟩
  unfold unassigned at hu
  omega

private theorem length_claimants (d : Declarations) : d.claimants.length =
    (d.resources .uniformBuffers).length + (d.resources .sampledImages).length +
      (d.resources .separateImages).length + (d.resources .separateSamplers).length := by
  simp [claimants, Nat.add_assoc]

variable {is : List Instruction} {d : Declarations} (h : ofInstructions is = .ok d)
  (hn : (variableNames is).Nodup)
include h hn

/-- A variable is in one category, so that stage inputs and outputs take no slots. -/
private theorem not_takesSlots {c : Category} {r : Resource} (hr : r ∈ d.resources c)
    (hc : c ∉ slotCategories) : ¬d.TakesSlots r.id := by
  rintro ⟨c', hc', r', hr', hid⟩
  obtain ⟨v, hv, hcategory, rfl⟩ := mem_resources.mp hr
  obtain ⟨w, hw, hcategory', rfl⟩ := mem_resources.mp hr'
  have hvw : w.id = v.id := hid
  rw [eq_of_id_eq (nodup_globals h hn) hw hv hvw, hcategory] at hcategory'
  exact hc (Option.some.inj hcategory' ▸ hc')

theorem slotsOf_resource {c : Category} {r : Resource} (hr : r ∈ d.resources c) :
    SlotsOf d c (d.slots r.id) := by
  have hranks := slotsAreRanks h hn
  have hdense := slotsAreDense h hn
  have hcount := length_claimants d
  cases c with
  | uniformBuffers =>
    have hmem := hdense.buffers.mem_iff.mp (List.mem_map_of_mem hr)
    have hassigned := assigned_of_mem_naturals (d := d) hmem (by omega)
    rw [hranks.uniformBuffer r hr] at hassigned ⊢
    exact .uniformBuffer hassigned
  | sampledImages =>
    have hmem := hdense.textures.mem_iff.mp
      (List.mem_map_of_mem (List.mem_append_left (d.resources .separateImages) hr))
    have hmem' := hdense.samplers.mem_iff.mp (List.mem_append_left _ (List.mem_map_of_mem hr))
    have hassigned := assigned_of_mem_naturals (d := d) hmem (by simp; omega)
    have hassigned' := assigned_of_mem_naturals (d := d) hmem' (by simp; omega)
    rw [hranks.sampledImage r hr] at hassigned hassigned' ⊢
    exact .sampledImage hassigned hassigned'
  | separateImages =>
    have hmem := hdense.textures.mem_iff.mp
      (List.mem_map_of_mem (List.mem_append_right (d.resources .sampledImages) hr))
    have hassigned := assigned_of_mem_naturals (d := d) hmem (by simp; omega)
    rw [hranks.separateImage r hr] at hassigned ⊢
    exact .separateImage hassigned
  | separateSamplers =>
    have hmem := hdense.samplers.mem_iff.mp (List.mem_append_right _ (List.mem_map_of_mem hr))
    have hassigned := assigned_of_mem_naturals (d := d) hmem (by simp; omega)
    rw [hranks.separateSampler r hr] at hassigned ⊢
    exact .separateSampler hassigned
  | stageInputs =>
    rw [hranks.other r.id (not_takesSlots h hn hr (by decide))]
    exact .stageInput
  | stageOutputs =>
    rw [hranks.other r.id (not_takesSlots h hn hr (by decide))]
    exact .stageOutput

theorem shows_of_bindingOf (once : (typeResults (moduleScope false is)).Nodup) {c : Category}
    {r : Resource} {b : ResourceBinding} (hr : r ∈ d.resources c) (hb : d.shader.BindingOf r b) :
    Shows d c r b := by
  obtain ⟨t, ht, rfl⟩ := Option.map_eq_some_iff.mp hb
  obtain ⟨v, -, hc, rfl⟩ := mem_resources.mp hr
  obtain ⟨u, hu, htu⟩ := type_of_baseType h once ht
  have hinfo : t.info = u.info := by
    rw [htu]
    rfl
  constructor
  · exact ⟨t, u, ht, hu, htu, hinfo⟩
  · intro bt hbt
    show t.info.typeName = bt.tag
    rw [hinfo, ← baseType_of_category? hc hbt hu]
    rfl
  · exact slotsOf_resource h hn hr

end Slots

def surfaceListing : List Instruction := [
  ⟨"OpEntryPoint", [.word "Fragment", .id "main", .string "main"], none, 1⟩,
  ⟨"OpDecorate", [.id "light", .word "Block"], none, 2⟩,
  ⟨"OpTypeFloat", [.int 32], some "float", 3⟩,
  ⟨"OpTypeVector", [.id "float", .int 4], some "color", 4⟩,
  ⟨"OpTypeStruct", [.id "color"], some "light", 5⟩,
  ⟨"OpTypeImage", [.id "float", .word "2D"], some "image", 6⟩,
  ⟨"OpTypeSampledImage", [.id "image"], some "photo", 7⟩,
  ⟨"OpTypeSampler", [], some "sampler", 8⟩,
  ⟨"OpTypePointer", [.word "Uniform", .id "light"], some "toLight", 9⟩,
  ⟨"OpTypePointer", [.word "UniformConstant", .id "photo"], some "toPhoto", 10⟩,
  ⟨"OpTypePointer", [.word "UniformConstant", .id "image"], some "toImage", 11⟩,
  ⟨"OpTypePointer", [.word "UniformConstant", .id "sampler"], some "toSampler", 12⟩,
  ⟨"OpTypePointer", [.word "Input", .id "color"], some "inColor", 13⟩,
  ⟨"OpTypePointer", [.word "Output", .id "color"], some "outColor", 14⟩,
  ⟨"OpVariable", [.id "toLight", .word "Uniform"], some "lamp", 15⟩,
  ⟨"OpVariable", [.id "toPhoto", .word "UniformConstant"], some "texture", 16⟩,
  ⟨"OpVariable", [.id "toImage", .word "UniformConstant"], some "mask", 17⟩,
  ⟨"OpVariable", [.id "toSampler", .word "UniformConstant"], some "sampling", 18⟩,
  ⟨"OpVariable", [.id "inColor", .word "Input"], some "tint", 19⟩,
  ⟨"OpVariable", [.id "outColor", .word "Output"], some "result", 20⟩]

end Declarations
end Module
end ShaderReflection
