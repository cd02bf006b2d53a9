import ShaderReflection.Module.Slots
import ShaderReflection.Proofs.Module.AlikeQueries
import ShaderReflection.Proofs.Reflection.AlikeShaders

/-! The shaders of modules that are alike. Resources and slots follow from what a module says about
its variables, so modules with the same variables have shaders that answer alike. -/
namespace ShaderReflection.Module

structure SameClaimant (R : Id → Id → Prop) (a b : Claimant) : Prop where
  category : a.category = b.category
  id : R a.id b.id

theorem allocate_of_related {R : Id → Id → Prop} {as bs : List Claimant}
    (h : List.Forall₂ (SameClaimant R) as bs) (n : SlotCounts) :
    List.Forall₂ (fun p q => R p.1 q.1 ∧ p.2 = q.2) (allocate n as) (allocate n bs) := by
  induction h generalizing n with
  | nil => exact .nil
  | cons hab _ ih =>
    unfold allocate
    rw [hab.category]
    exact .cons ⟨hab.id, rfl⟩ (ih _)

namespace Declarations

/-- Two modules that say the same about the same names and have the same variables. -/
structure AlikeModules (named : Prop) (d e : Declarations) : Prop where
  alike : Alike named d e
  globals : List.Forall₂ (SameVariable (SameId d.ids e.ids)) d.globals e.globals

section AlikeModules

variable {named : Prop} {d e : Declarations} (h : AlikeModules named d e)
include h

theorem resources_alike (c : Category) :
    List.Forall₂ (LikeResource (SameId d.ids e.ids)) (d.resources c) (e.resources c) := by
  unfold resources
  rw [List.forall₂_map_left_iff, List.forall₂_map_right_iff]
  have hkeep := filter_of_related (p := (d.category? · = some c)) (q := (e.category? · = some c))
    (fun _ _ hv => by rw [category?_eq h.alike hv]) h.globals
  exact hkeep.imp fun _ _ hv => ⟨hv.id, hv.typeId⟩

theorem slotKey_eq {x y : Id} (hxy : SameId d.ids e.ids x y) : d.slotKey x = e.slotKey y := by
  have hlast : lastIndex (·.id = x) d.globals = lastIndex (·.id = y) e.globals := by
    have hg := List.forall₂_reverse_iff.mpr h.globals
    have hfind := findIdx_of_related (p := (·.id = x)) (q := (·.id = y))
      (fun _ _ hv => decide_eq_decide.mpr (Relator.rel_eq (biUnique_sameId ..) hv.id hxy)) hg
    unfold lastIndex
    rw [hfind, h.globals.length_eq]
  unfold slotKey
  rw [decoration_eq h.alike hxy, decoration_eq h.alike hxy, hlast]

theorem claimants_alike :
    List.Forall₂ (SameClaimant (SameId d.ids e.ids)) d.claimants e.claimants := by
  have hpart (c : Category) : List.Forall₂ (SameClaimant (SameId d.ids e.ids))
      ((d.resources c).map fun r => ⟨c, r.id⟩) ((e.resources c).map fun r => ⟨c, r.id⟩) := by
    rw [List.forall₂_map_left_iff, List.forall₂_map_right_iff]
    exact (resources_alike h c).imp fun _ _ hr => ⟨rfl, hr.id⟩
  unfold claimants
  simp only [List.flatMap_cons, List.flatMap_nil]
  exact List.rel_append (hpart _) (List.rel_append (hpart _)
    (List.rel_append (hpart _) (List.rel_append (hpart _) .nil)))

theorem slots_eq {x y : Id} (hxy : SameId d.ids e.ids x y) : d.slots x = e.slots y := by
  have hsort : List.Forall₂ (SameClaimant (SameId d.ids e.ids))
      (d.claimants.mergeSort fun a b => (d.slotKey a.id).le (d.slotKey b.id))
      (e.claimants.mergeSort fun a b => (e.slotKey a.id).le (e.slotKey b.id)) := by
    refine mergeSort_of_related (fun _ _ hab _ _ hcd => ?_) (claimants_alike h)
    rw [slotKey_eq h hab.id, slotKey_eq h hcd.id]
  have htable := List.forall₂_reverse_iff.mpr (allocate_of_related hsort {})
  unfold slots slotsIn slotTable
  rw [lookup_of_related (biUnique_sameId ..) htable hxy]

theorem structIds_alike : List.Forall₂ (SameId d.ids e.ids) d.structIds e.structIds := by
  have hvalues : List.Forall₂ (LikeType named (SameId d.ids e.ids)) d.types.values
      e.types.values := by
    unfold Table.values
    rw [List.forall₂_map_left_iff, List.forall₂_map_right_iff]
    exact h.alike.types.imp fun _ _ hp => hp.2
  unfold structIds
  rw [List.forall₂_map_left_iff, List.forall₂_map_right_iff]
  exact (filter_of_related (fun _ _ ht => ht.sameLayout.isStruct) hvalues).imp fun _ _ ht => ht.selfId

/-- Modules with the same variables that say the same have shaders that answer alike, if names
reserve the same ids. -/
theorem shader_alike
    (hr : ∀ x y, SameId d.ids e.ids x y → isReserved (d.name x) = isReserved (e.name y)) :
    AlikeShaders (SameId d.ids e.ids) d.shader e.shader where
  biUnique := biUnique_sameId ..
  entryPoints := h.alike.entryPoints
  resources := resources_alike h
  type? := fun _ _ hxy => optionRel_imp (fun _ _ ht => { ht with aliasOf := False.elim })
    (types_get? h.alike hxy)
  decoration := fun _ _ hxy => funext fun kind => decoration_eq h.alike hxy kind
  slots := fun _ _ hxy => congrArg Slots.toList (slots_eq h hxy)
  reserved := hr
  structIds := structIds_alike h

end AlikeModules

end Declarations
end ShaderReflection.Module
