import ShaderReflection.Module.Resources
import ShaderReflection.Proofs.Module.TwoRuns

/-! What modules that are alike answer: the same decorations and types for the same names, and the
same category for a variable of one name. -/
namespace ShaderReflection.Module

open Assembly (Instruction)

structure SameVariable (R : Id → Id → Prop) (v w : Variable) : Prop where
  id : R v.id w.id
  typeId : R v.typeId w.typeId
  storage : v.storage = w.storage

namespace Declarations

section Queries

variable {named : Prop} {d e : Declarations} (h : Alike named d e) {x y : Id}
include h

section

variable (hxy : SameId d.ids e.ids x y)
include hxy

theorem decorations_get?_eq (kind : String) :
    d.decorations.get? (x, kind) = e.decorations.get? (y, kind) :=
  eq_of_optionRel_eq (h.decorations.get? (biUnique_sameKey (biUnique_sameId ..)) ⟨hxy, rfl⟩)

theorem decoration_eq (kind : Decoration) : d.decoration x kind = e.decoration y kind := by
  unfold decoration
  rw [decorations_get?_eq h hxy]

theorem isDecorated_eq (kind : String) : d.isDecorated x kind = e.isDecorated y kind := by
  unfold isDecorated Table.contains
  rw [decorations_get?_eq h hxy]

theorem hasMemberDecorated_eq (kind : String) :
    d.hasMemberDecorated x kind = e.hasMemberDecorated y kind := by
  have hb := biUnique_sameId d.ids e.ids
  rw [Bool.eq_iff_iff]
  simp only [hasMemberDecorated, List.any_eq_true, Bool.and_eq_true, decide_eq_true_eq,
    ← Table.get?_isSome_iff, Option.isSome_iff_exists]
  constructor
  · rintro ⟨⟨_, index, _⟩, ⟨os, hos⟩, rfl, rfl⟩
    obtain ⟨⟨z, key⟩, os', ⟨hz, hk⟩, -, hos'⟩ := h.memberDecorations.left _ _ hos
    obtain rfl := hb.2 hz hxy
    obtain rfl : (index, _) = key := hk
    exact ⟨_, ⟨os', hos'⟩, rfl, rfl⟩
  · rintro ⟨⟨_, index, _⟩, ⟨os, hos⟩, rfl, rfl⟩
    obtain ⟨⟨z, key⟩, os', ⟨hz, hk⟩, -, hos'⟩ := h.memberDecorations.right _ _ hos
    obtain rfl := hb.1 hz hxy
    obtain rfl : key = (index, _) := hk
    exact ⟨_, ⟨os', hos'⟩, rfl, rfl⟩

end

section

variable {v w : Variable} (hv : SameVariable (SameId d.ids e.ids) v w)
include hv

theorem sameId_baseTypeId : SameId d.ids e.ids (d.baseTypeId v) (e.baseTypeId w) := by
  unfold baseTypeId
  have hp := h.pointees.get? (biUnique_sameId ..) hv.typeId
  generalize d.pointees.get? v.typeId = a at hp ⊢
  generalize e.pointees.get? w.typeId = b at hp ⊢
  cases hp with
  | some hab => exact hab
  | none => exact hv.typeId

theorem isBuiltIn_eq : d.isBuiltIn v = e.isBuiltIn w := by
  unfold isBuiltIn
  rw [isDecorated_eq h hv.id, hasMemberDecorated_eq h (sameId_baseTypeId h hv)]

theorem constantCategory?_eq {t u : TypeDescriptor}
    (ht : LikeType named (SameId d.ids e.ids) t u) :
    d.constantCategory? (d.baseTypeId v) t = e.constantCategory? (e.baseTypeId w) u := by
  unfold constantCategory?
  rw [ht.baseType, eq_of_optionRel_eq
    (h.imageSampled.get? (biUnique_sameId ..) (sameId_baseTypeId h hv))]

theorem category?_eq : d.category? v = e.category? w := by
  have hbase := sameId_baseTypeId h hv
  have hg := types_get? h hbase
  unfold category?
  rw [hv.storage, isBuiltIn_eq h hv, isDecorated_eq h hbase]
  generalize d.types.get? (d.baseTypeId v) = a at hg ⊢
  generalize e.types.get? (e.baseTypeId w) = b at hg ⊢
  cases hg with
  | none => rfl
  | some ht =>
    dsimp only [Option.bind_some]
    rw [ht.sameLayout.isStruct, constantCategory?_eq h hv ht]

end

end Queries

theorem sameVariable_of_variableOf {d e : Declarations} {i : Instruction} {v w : Variable}
    (hv : VariableOf d i v) (hw : VariableOf e i w) : SameVariable (SameId d.ids e.ids) v w := by
  obtain ⟨n, hn, hx⟩ := hv.id
  obtain ⟨n', hn', hy⟩ := hw.id
  obtain ⟨m, hm, ht⟩ := hv.typeId
  obtain ⟨m', hm', hu⟩ := hw.typeId
  obtain ⟨s, hs, hvs⟩ := hv.storage
  obtain ⟨s', hs', hws⟩ := hw.storage
  obtain rfl := Option.some.inj (hn.symm.trans hn')
  obtain rfl := Except.ok.inj (hm.symm.trans hm')
  obtain rfl := Except.ok.inj (hs.symm.trans hs')
  exact ⟨⟨n, hx, hy⟩, ⟨m, ht, hu⟩, hvs.trans hws.symm⟩

end Declarations
end ShaderReflection.Module
