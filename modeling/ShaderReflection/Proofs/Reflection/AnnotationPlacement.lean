import ShaderReflection.Proofs.Module.Reordering
import ShaderReflection.Proofs.Reflection.Stripping
import ShaderReflection.Proofs.Reflection.TwinShaders

/-! Where annotations stand in a listing does not show in the document. The numbers of ids do change
with the places of annotations, and a uniform buffer without a name would be named for its number;
such buffers are left out. -/
namespace ShaderReflection.Module

open Assembly (Instruction)

namespace Declarations

/-- Every uniform buffer has a declared name, that of its block or its own. -/
def BuffersNamed (d : Declarations) : Prop :=
  ∀ r ∈ d.resources .uniformBuffers, d.name r.baseTypeId ≠ "" ∨ d.name r.id ≠ ""

instance (d : Declarations) : Decidable d.BuffersNamed :=
  inferInstanceAs (Decidable (∀ r ∈ d.resources .uniformBuffers, _ ∨ _))

/-- A listing makes a module, too, and it has the document of another one, or fails with the same
message. -/
def SameReflection (d : Declarations) (js : List Instruction) : Prop :=
  ∃ e, ofInstructions js = .ok e ∧ ∀ (o : ReflectionOptions) (n : Namer),
    SameAnswer (fun r r' => r.document = r'.document) (d.shader.reflect o n).1
      (e.shader.reflect o n).1 ∧
    (d.shader.reflect o n).2 = (e.shader.reflect o n).2

section Twins

variable {d e : Declarations} (h : AlikeModules True d e)
include h

theorem name_eq {x y : Id} (hxy : SameId d.ids e.ids x y) : d.name x = e.name y := by
  unfold Declarations.name
  rw [names_get?_eq h.alike trivial hxy]

theorem twinResources (hn : d.BuffersNamed) (c : Category) :
    List.Forall₂ (TwinResource (SameId d.ids e.ids)) (d.resources c) (e.resources c) := by
  have hkeep := filter_of_related (p := (d.category? · = some c)) (q := (e.category? · = some c))
    (fun _ _ hv => by rw [category?_eq h.alike hv]) h.globals
  unfold resources
  rw [List.forall₂_map_left_iff, List.forall₂_map_right_iff]
  -- A buffer has a name if it is kept as one, so what is kept is known of each pair.
  have hkept := (List.forall₂_and_left _ _).mpr ⟨fun v hv => List.mem_filter.mp hv, hkeep⟩
  refine hkept.imp fun v w ⟨⟨hv, hc⟩, hvw⟩ => ⟨⟨hvw.id, hvw.typeId⟩, ?_⟩
  have hid := name_eq h hvw.id
  have hbase := name_eq h (sameId_baseTypeId h.alike hvw)
  show (d.resource c v).name = (e.resource c w).name
  unfold resource
  dsimp only
  rw [← hid]
  split
  case isFalse => rfl
  case isTrue hub =>
    have hcategory : d.category? v = some .uniformBuffers := hub ▸ of_decide_eq_true hc
    have hnamed := hn (d.resource .uniformBuffers v) (mem_resources.mpr ⟨v, hv, hcategory, rfl⟩)
    have hnamed : d.name (d.baseTypeId v) ≠ "" ∨ d.name v.id ≠ "" := hnamed
    unfold bufferName
    rw [← hid, ← hbase]
    split
    · rfl
    case isFalse hblock =>
      have hvariable := hnamed.resolve_left hblock
      rw [if_pos hvariable, if_pos hvariable]

theorem shader_twin (hn : d.BuffersNamed) :
    TwinShaders (SameId d.ids e.ids) d.shader e.shader where
  biUnique := biUnique_sameId ..
  entryPoints := h.alike.entryPoints
  resources := twinResources h hn
  type? := fun _ _ hxy => types_get? h.alike hxy
  name := fun _ _ hxy => name_eq h hxy
  decoration := fun _ _ hxy => funext fun kind => decoration_eq h.alike hxy kind
  slots := fun _ _ hxy => congrArg Slots.toList (slots_eq h hxy)
  memberName? := fun x y hxy => funext fun index => by
    have hkey : SameKey (SameId d.ids e.ids) (x, index) (y, index) := ⟨hxy, rfl⟩
    have hm := (h.alike.memberNames trivial).get? (biUnique_sameKey (biUnique_sameId ..)) hkey
    show d.memberName? x index = e.memberName? y index
    unfold memberName?
    rw [eq_of_optionRel_eq hm]
  structIds := structIds_alike h

end Twins

theorem reordered_sameReflection {is js : List Instruction} {d : Declarations}
    (h : ofInstructions is = .ok d) (hn : d.BuffersNamed) (hr : Reordered is js) :
    SameReflection d js := by
  obtain ⟨e, he, halike⟩ := exists_alikeModules_of_reordered hr h
  exact ⟨e, he, fun o n => Shader.reflect_twin (shader_twin halike hn) o n⟩

/-- Annotations may move. Two neighbours may change places if one of them is an annotation and the
other one is not about the same; and so may any number of annotations at once, as long as those
about the same stay in order. -/
theorem annotations_may_move {is : List Instruction} {d : Declarations}
    (h : ofInstructions is = .ok d) (hn : d.BuffersNamed) :
    (∀ js, Swapped is js → SameReflection d js) ∧
      ∀ js, Reordered is js → SameReflection d js := by
  constructor
  · intro js hs
    exact reordered_sameReflection h hn (reordered_of_swapped hs h)
  · intro js hr
    exact reordered_sameReflection h hn hr

/-- The scene with its last decoration behind the first type. -/
def swappedScene : List Instruction :=
  sceneListing.take 7 ++ (sceneListing.drop 8).take 1 ++ (sceneListing.drop 7).take 1 ++
    sceneListing.drop 9

def annotatedLastScene : List Instruction :=
  sceneListing.filter (!annotates ·) ++ sceneListing.filter annotates

theorem sceneListing_annotations_may_move :
    ∃ d, ofInstructions sceneListing = .ok d ∧ d.BuffersNamed ∧
      (Swapped sceneListing swappedScene ∧ SameReflection d swappedScene) ∧
      (Reordered sceneListing annotatedLastScene ∧ SameReflection d annotatedLastScene) := by
  obtain ⟨d, hd, hn⟩ := exists_ok_of_any (x := ofInstructions sceneListing) (p := BuffersNamed)
    (by decide +kernel)
  have hswapped : Swapped sceneListing swappedScene := by
    refine ⟨sceneListing.take 7, sceneListing[7], sceneListing[8], sceneListing.drop 9,
      by decide +kernel, by decide +kernel, .inl (by decide +kernel), ?_⟩
    rintro ⟨k, -, hk⟩
    have hnone : noteKey? sceneListing[8] = none := by decide +kernel
    rw [hnone] at hk
    cases hk
  have hlast : Reordered sceneListing annotatedLastScene :=
    reordered_annotationsLast hd (by decide +kernel)
  obtain ⟨hswap, hreorder⟩ := annotations_may_move hd hn
  exact ⟨d, hd, hn, ⟨hswapped, hswap _ hswapped⟩, hlast, hreorder _ hlast⟩

end Declarations
end ShaderReflection.Module
