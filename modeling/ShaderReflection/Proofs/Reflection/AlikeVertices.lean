import ShaderReflection.Proofs.Reflection.AlikeShaders

/-! Vertex structs of shaders that answer alike: names apart, they are the same. No anonymous name
is taken for them, so nothing can overflow. -/
namespace ShaderReflection

open ShaderReflection.Module (LikeType)

private theorem map_byteLength_of_nameless {bs cs : List NamedBlock}
    (h : bs.map NamedBlock.nameless = cs.map NamedBlock.nameless) :
    bs.map (·.byteLength) = cs.map (·.byteLength) := by
  have hlengths := congrArg (List.map NamedBlock.byteLength) h
  rwa [List.map_map, List.map_map] at hlengths

theorem SameLayout.vertexType {t u : TypeDescriptor} (h : SameLayout t u) :
    vertexType t = vertexType u := by
  unfold ShaderReflection.vertexType
  rw [h.isFloat32Vector, h.isFloat32Vector, h.isFloat32Vector, h.naturalSize]

def vertexDefinition (blocks : List NamedBlock) : StructDefinition where
  name := vertexStructName
  byteLength := total (blocks.map (·.byteLength))
  members := place 0 blocks

namespace Shader

variable {R : Id → Id → Prop} {s s' : Shader} (h : AlikeShaders R s s')
include h

theorem location_alike {r q : Resource} (hrq : LikeResource R r q) :
    s.location r = s'.location q := by
  unfold location
  rw [h.decoration _ _ hrq.id]

section Inputs

variable {Q : Resource → Resource → Prop} (hQ : ∀ r q, Q r q → LikeResource R r q)
  {rs qs : List Resource} (hrqs : List.Forall₂ Q rs qs)
include hQ hrqs

theorem map_location_alike : rs.map s.location = qs.map s'.location := by
  induction hrqs with
  | nil => rfl
  | cons hrq _ ih => rw [List.map_cons, List.map_cons, location_alike h (hQ _ _ hrq), ih]

theorem inputAt?_alike (location : Nat) :
    Option.Rel (fun p q => Q p.1 q.1 ∧ LikeType False R p.2 q.2) (s.inputAt? rs location)
      (s'.inputAt? qs location) := by
  have hfind := find?_of_related (p := (s.location · = location)) (q := (s'.location · = location))
    (fun r q hrq => by rw [location_alike h (hQ r q hrq)]) hrqs
  unfold inputAt?
  generalize rs.find? _ = a at hfind ⊢
  generalize qs.find? _ = b at hfind ⊢
  cases hfind with
  | none => exact .none
  | @some r q hrq =>
    have ht := h.type? _ _ (hQ r q hrq).typeId
    rw [Option.bind_eq_bind, Option.bind_eq_bind, Option.bind_some, Option.bind_some]
    generalize s.type? r.typeId = a at ht ⊢
    generalize s'.type? q.typeId = b at ht ⊢
    cases ht with
    | none => exact .none
    | some ht => exact .some ⟨hrq, ht⟩

variable {P : NamedBlock → NamedBlock → Prop}
  (hP : ∀ r q type n, Q r q → P ⟨r.name, type, n⟩ ⟨q.name, type, n⟩)
include hP

/-- The fields of the vertex struct are related if their names are. -/
theorem vertexBlock_related (location : Nat) :
    Agree SameAbsence P (s.vertexBlock rs location) (s'.vertexBlock qs location) := by
  have hinput := inputAt?_alike h hQ hrqs location
  unfold vertexBlock
  generalize s.inputAt? rs location = a at hinput ⊢
  generalize s'.inputAt? qs location = b at hinput ⊢
  cases hinput with
  | none => exact .error (.skipped _ _)
  | @some p q hpq =>
    obtain ⟨r, t⟩ := p
    obtain ⟨r', u⟩ := q
    obtain ⟨hrq, ht⟩ := hpq
    dsimp only at hrq ht ⊢
    rw [ht.sameLayout.vertexType, ht.sameLayout.naturalSize]
    cases (vertexType u).text with
    | none => exact .error .unwritable
    | some type => exact .ok (hP r r' type _ hrq)

/-- Where the fields are related, so are the vertex structs. -/
theorem vertexStruct_related {T : StructDefinition → StructDefinition → Prop}
    (hT : ∀ bs cs, List.Forall₂ P bs cs → T (vertexDefinition bs) (vertexDefinition cs)) :
    Agree SameAbsence T (s.vertexStruct rs) (s'.vertexStruct qs) := by
  have hempty : rs.isEmpty = qs.isEmpty := by
    cases hrqs <;> rfl
  unfold vertexStruct
  dsimp only
  rw [map_location_alike h hQ hrqs, hempty, hrqs.length_eq]
  split
  · exact .error (.skipped _ _)
  · cases firstRepeated [] (qs.map s'.location) with
    | some l => exact .error (.skipped _ _)
    | none =>
      dsimp only
      split
      · exact .error (.skipped _ _)
      · have hblocks := Agree.mapM (vertexBlock_related h hQ hrqs hP) (List.range qs.length)
        exact hblocks.bind fun bs cs hbs => .ok (hT bs cs hbs)

end Inputs

theorem vertexStruct_alike {rs qs : List Resource} (hrqs : List.Forall₂ (LikeResource R) rs qs) :
    SameOutcome (s.vertexStruct rs) (s'.vertexStruct qs) := by
  refine vertexStruct_related (P := fun b c => b.nameless = c.nameless) h (fun _ _ => id) hrqs
    (fun _ _ _ _ _ => rfl) fun bs cs hblocks => ?_
  have hbs : bs.map NamedBlock.nameless = cs.map NamedBlock.nameless := by
    rw [← List.forall₂_eq_eq_eq, List.forall₂_map_left_iff, List.forall₂_map_right_iff]
    exact hblocks
  unfold StructDefinition.nameless vertexDefinition
  dsimp only
  rw [map_byteLength_of_nameless hbs, map_nameless_place, map_nameless_place, hbs]

theorem vertexOutcomes_alike (model : ExecutionModel) :
    List.Forall₂ SameOutcome (s.vertexOutcomes model) (s'.vertexOutcomes model) := by
  unfold vertexOutcomes
  split
  · exact .cons (vertexStruct_alike h (h.resources _)) .nil
  · exact .nil

end Shader
end ShaderReflection
