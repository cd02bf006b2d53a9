import Mathlib.Data.List.Forall2
import ShaderReflection.Reflection

/-! What a shader must have to be reflected, and what is reported of one that lacks something. -/
namespace ShaderReflection

def Part.inOrder : List Part := [.uniformBuffers, .stageInputs, .sampledImages, .stageOutputs]

namespace Shader

/-- A shader that can be reflected: it has one entry point, and each resource has a type. -/
structure Complete (s : Shader) : Prop where
  entryPoint : s.entryPoints.length = 1
  typed : ∀ c, ∀ r ∈ s.resources c, (s.type? r.typeId).isSome = true

def firstUntyped? (s : Shader) (rs : List Resource) : Option Resource :=
  rs.find? fun r => (s.type? r.typeId).isNone

def isUnresolved (s : Shader) (p : Part) : Bool :=
  p.categories.any fun c => (s.resources c).any fun r => (s.type? r.typeId).isNone

/-- What is reported of a part: the first resource without a type in each of its lists. -/
def partFailure (s : Shader) (p : Part) : ReflectionError :=
  .unresolved p (p.categories.filterMap fun c => s.firstUntyped? (s.resources c))

/-- What is reported of a shader: the number of its entry points if that is not one, or else its
first part with a resource without a type. -/
def firstFailure? (s : Shader) : Option ReflectionError :=
  if s.entryPoints.length = 1 then (Part.inOrder.find? s.isUnresolved).map s.partFailure
  else some (.entryPointCount s.entryPoints.length)

def BindingOf (s : Shader) (r : Resource) (b : ResourceBinding) : Prop := s.binding? r = some b

structure InterfaceOf (s : Shader) (i : Interface) : Prop where
  uniformBuffers : List.Forall₂ s.BindingOf (s.resources .uniformBuffers) i.uniformBuffers
  stageInputs : List.Forall₂ s.BindingOf (s.resources .stageInputs) i.stageInputs
  sampledImages : List.Forall₂ s.BindingOf
    (s.resources .sampledImages ++ s.resources .separateImages ++ s.resources .separateSamplers)
    i.sampledImages
  stageOutputs : List.Forall₂ s.BindingOf (s.resources .stageOutputs) i.stageOutputs

section Parts

variable (s : Shader)

theorem bindings_eq_error {rs : List Resource} {r : Resource} (h : s.firstUntyped? rs = some r) :
    s.bindings rs = .error r := by
  induction rs with
  | nil => cases h
  | cons q rs ih =>
    unfold firstUntyped? at h
    unfold bindings binding?
    cases ht : s.type? q.typeId with
    | none =>
      rw [List.find?_cons_of_pos (by rw [ht]; rfl)] at h
      obtain rfl := Option.some.inj h
      rfl
    | some t =>
      rw [List.find?_cons_of_neg (by rw [ht]; simp)] at h
      rw [ih h]
      rfl

theorem bindings_eq_ok {rs : List Resource} (h : s.firstUntyped? rs = none) :
    ∃ bs, s.bindings rs = .ok bs ∧ List.Forall₂ s.BindingOf rs bs := by
  induction rs with
  | nil => exact ⟨[], rfl, .nil⟩
  | cons r rs ih =>
    unfold firstUntyped? at h
    have hhead := List.find?_eq_none.mp h r List.mem_cons_self
    have hrest : s.firstUntyped? rs = none :=
      List.find?_eq_none.mpr fun q hq => List.find?_eq_none.mp h q (List.mem_cons_of_mem _ hq)
    obtain ⟨bs, hbs, hrel⟩ := ih hrest
    cases hb : s.binding? r with
    | none =>
      have hnone : s.type? r.typeId = none := Option.map_eq_none_iff.mp hb
      rw [hnone] at hhead
      exact absurd rfl hhead
    | some b =>
      refine ⟨b :: bs, ?_, .cons hb hrel⟩
      unfold bindings
      rw [hb, hbs]
      rfl

theorem failures_eq (cs : List Category) :
    ((cs.map fun c => s.bindings (s.resources c)).filterMap fun
      | .error r => some r
      | .ok _ => none) = cs.filterMap fun c => s.firstUntyped? (s.resources c) := by
  rw [List.filterMap_map]
  congr 1
  funext c
  cases hu : s.firstUntyped? (s.resources c) with
  | some r => rw [Function.comp_apply, s.bindings_eq_error hu]
  | none =>
    obtain ⟨bs, hbs, -⟩ := s.bindings_eq_ok hu
    rw [Function.comp_apply, hbs]

/-- The bindings of some lists, one after another; a list that fails has none. -/
def allBindings (cs : List Category) : List ResourceBinding :=
  (cs.map fun c => s.bindings (s.resources c)).flatMap fun
    | .ok bs => bs
    | .error _ => []

theorem allBindings_related {cs : List Category}
    (h : ∀ c ∈ cs, s.firstUntyped? (s.resources c) = none) :
    List.Forall₂ s.BindingOf (cs.flatMap s.resources) (s.allBindings cs) := by
  unfold allBindings
  induction cs with
  | nil => exact .nil
  | cons c cs ih =>
    obtain ⟨bs, hbs, hrel⟩ := s.bindings_eq_ok (h c List.mem_cons_self)
    rw [List.flatMap_cons, List.map_cons, List.flatMap_cons, hbs]
    exact List.rel_append hrel (ih fun c' hc => h c' (List.mem_cons_of_mem _ hc))

theorem part_eq (p : Part) :
    s.part p =
      if (p.categories.filterMap fun c => s.firstUntyped? (s.resources c)).isEmpty then
        .ok (s.allBindings p.categories)
      else .error (s.partFailure p) := by
  unfold partFailure
  rw [← failures_eq]
  rfl

theorem isUnresolved_eq_false_iff {p : Part} :
    s.isUnresolved p = false ↔ ∀ c ∈ p.categories, s.firstUntyped? (s.resources c) = none := by
  unfold isUnresolved firstUntyped?
  rw [List.any_eq_false]
  refine forall₂_congr fun c _ => ?_
  rw [List.find?_eq_none, List.any_eq_true]
  push Not
  rfl

theorem part_eq_ok {p : Part} (h : s.isUnresolved p = false) :
    ∃ bs, s.part p = .ok bs ∧ List.Forall₂ s.BindingOf (p.categories.flatMap s.resources) bs := by
  have hnone := s.isUnresolved_eq_false_iff.mp h
  have hfailures : (p.categories.filterMap fun c => s.firstUntyped? (s.resources c)) = [] :=
    List.filterMap_eq_nil_iff.mpr hnone
  refine ⟨s.allBindings p.categories, ?_, s.allBindings_related hnone⟩
  rw [part_eq, hfailures]
  rfl

theorem part_eq_error {p : Part} (h : s.isUnresolved p = true) :
    s.part p = .error (s.partFailure p) := by
  have hfailures : (p.categories.filterMap fun c => s.firstUntyped? (s.resources c)) ≠ [] := by
    intro hnil
    have hnone := s.isUnresolved_eq_false_iff.mpr (List.filterMap_eq_nil_iff.mp hnil)
    rw [h] at hnone
    cases hnone
  rw [part_eq, if_neg (by rwa [List.isEmpty_iff])]

/-- Parts are read one after another, up to the first that fails. -/
theorem part_bind_eq_error {p q : Part} {ps : List Part}
    (h : (q :: ps).find? s.isUnresolved = some p) {α : Type}
    {f : List ResourceBinding → Except ReflectionError α}
    (hf : ps.find? s.isUnresolved = some p → ∀ bs, f bs = .error (s.partFailure p)) :
    s.part q >>= f = .error (s.partFailure p) := by
  by_cases hq : s.isUnresolved q = true
  · rw [List.find?_cons_of_pos hq] at h
    obtain rfl := Option.some.inj h
    rw [s.part_eq_error hq]
    rfl
  · rw [List.find?_cons_of_neg hq] at h
    obtain ⟨bs, hbs, -⟩ := s.part_eq_ok (Bool.eq_false_iff.mpr hq)
    rw [hbs]
    exact hf h bs

theorem interface_eq_error {p : Part} (h : Part.inOrder.find? s.isUnresolved = some p) :
    s.interface = .error (s.partFailure p) := by
  refine s.part_bind_eq_error h fun h ub => ?_
  refine s.part_bind_eq_error h fun h ins => ?_
  refine s.part_bind_eq_error h fun h imgs => ?_
  refine s.part_bind_eq_error h fun h outs => ?_
  cases h

theorem interface_eq_ok (h : Part.inOrder.find? s.isUnresolved = none) :
    ∃ i, s.interface = .ok i ∧ s.InterfaceOf i := by
  have hall : ∀ p ∈ Part.inOrder, s.isUnresolved p = false := fun p hp =>
    Bool.eq_false_iff.mpr (List.find?_eq_none.mp h p hp)
  obtain ⟨ub, hub, hubs⟩ := s.part_eq_ok (hall .uniformBuffers (by decide))
  obtain ⟨ins, hins, hinputs⟩ := s.part_eq_ok (hall .stageInputs (by decide))
  obtain ⟨imgs, himgs, himages⟩ := s.part_eq_ok (hall .sampledImages (by decide))
  obtain ⟨outs, houts, houtputs⟩ := s.part_eq_ok (hall .stageOutputs (by decide))
  refine ⟨⟨ub, ins, imgs, outs⟩, ?_, ?_⟩
  · unfold interface
    rw [hub, hins, himgs, houts]
    rfl
  · exact ⟨by simpa [Part.categories] using hubs, by simpa [Part.categories] using hinputs,
      by simpa [Part.categories] using himages, by simpa [Part.categories] using houtputs⟩

theorem entryPoint_eq_ok {entry : EntryPoint} (h : s.entryPoints = [entry]) :
    s.entryPoint = .ok entry := by
  unfold entryPoint
  rw [h]

theorem entryPoint_eq_error (h : s.entryPoints.length ≠ 1) :
    s.entryPoint = .error (.entryPointCount s.entryPoints.length) := by
  unfold entryPoint
  split
  case h_1 entry he =>
    rw [he] at h
    exact absurd rfl h
  case h_2 => rfl

/-- Nothing is reported of a shader just where it has all that it must have. -/
theorem firstFailure?_eq_none_iff : s.firstFailure? = none ↔ s.Complete := by
  have htyped : Part.inOrder.find? s.isUnresolved = none ↔
      ∀ c, ∀ r ∈ s.resources c, (s.type? r.typeId).isSome = true := by
    have hpart (p : Part) : s.isUnresolved p = false ↔
        ∀ c ∈ p.categories, ∀ r ∈ s.resources c, (s.type? r.typeId).isSome = true := by
      simp [isUnresolved, Option.isSome_iff_ne_none]
    constructor
    · intro h c
      have hparts : ∀ p ∈ Part.inOrder, s.isUnresolved p = false := fun p hp =>
        Bool.eq_false_iff.mpr (List.find?_eq_none.mp h p hp)
      have hc : ∃ p ∈ Part.inOrder, c ∈ p.categories := by cases c <;> decide
      obtain ⟨p, hp, hc⟩ := hc
      exact (hpart p).mp (hparts p hp) c hc
    · intro h
      refine List.find?_eq_none.mpr fun p _ => ?_
      exact Bool.eq_false_iff.mp ((hpart p).mpr fun c _ => h c)
  unfold firstFailure?
  split
  case isTrue h1 =>
    rw [Option.map_eq_none_iff, htyped]
    constructor
    · intro h
      exact ⟨h1, h⟩
    · intro h
      exact h.typed
  case isFalse h1 =>
    constructor
    · intro h
      cases h
    · intro h
      exact absurd h.entryPoint h1

/-- A shader that lacks something is reflected up to there. It takes no names. -/
theorem reflect_eq_error {e : ReflectionError} (h : s.firstFailure? = some e)
    (o : ReflectionOptions) (n : Namer) : s.reflect o n = (.error e, n) := by
  unfold firstFailure? at h
  split at h
  case isTrue h1 =>
    obtain ⟨entry, hentry⟩ := List.length_eq_one_iff.mp h1
    obtain ⟨p, hp, rfl⟩ := Option.map_eq_some_iff.mp h
    unfold reflect
    rw [s.entryPoint_eq_ok hentry, s.interface_eq_error hp]
  case isFalse h1 =>
    obtain rfl := Option.some.inj h
    unfold reflect
    rw [s.entryPoint_eq_error h1]

theorem Complete.exists_interface {s : Shader} (h : s.Complete) :
    ∃ entry i, s.entryPoints = [entry] ∧ s.entryPoint = .ok entry ∧ s.interface = .ok i ∧
      s.InterfaceOf i := by
  obtain ⟨entry, hentry⟩ := List.length_eq_one_iff.mp h.entryPoint
  have hnone := s.firstFailure?_eq_none_iff.mpr h
  unfold firstFailure? at hnone
  rw [if_pos h.entryPoint, Option.map_eq_none_iff] at hnone
  obtain ⟨i, hi, hof⟩ := s.interface_eq_ok hnone
  exact ⟨entry, i, hentry, s.entryPoint_eq_ok hentry, hi, hof⟩

end Parts

end Shader
end ShaderReflection
