import ShaderReflection.Proofs.Reflection.AlikeDocuments

/-! Shaders that answer alike, names included. From one start of the namer they have the same
document, or fail with the same message. -/
namespace ShaderReflection

open Relator (BiUnique)
open ShaderReflection.Module (LikeType optionRel_imp)

structure TwinResource (R : Id → Id → Prop) (r q : Resource) : Prop extends LikeResource R r q where
  name : r.name = q.name

/-- Two shaders that answer alike when they are asked about related ids. -/
structure TwinShaders (R : Id → Id → Prop) (s s' : Shader) : Prop where
  biUnique : BiUnique R
  entryPoints : s.entryPoints = s'.entryPoints
  resources : ∀ c, List.Forall₂ (TwinResource R) (s.resources c) (s'.resources c)
  type? : ∀ x y, R x y → Option.Rel (LikeType True R) (s.type? x) (s'.type? y)
  name : ∀ x y, R x y → s.name x = s'.name y
  decoration : ∀ x y, R x y → s.decoration x = s'.decoration y
  slots : ∀ x y, R x y → s.slots x = s'.slots y
  memberName? : ∀ x y, R x y → s.memberName? x = s'.memberName? y
  structIds : List.Forall₂ R s.structIds s'.structIds

theorem TwinShaders.alike {R : Id → Id → Prop} {s s' : Shader} (h : TwinShaders R s s') :
    AlikeShaders R s s' where
  biUnique := h.biUnique
  entryPoints := h.entryPoints
  resources := fun c => (h.resources c).imp fun _ _ hr => hr.toLikeResource
  type? := fun x y hxy => optionRel_imp (fun _ _ ht => { ht with aliasOf := False.elim })
    (h.type? x y hxy)
  decoration := h.decoration
  slots := h.slots
  reserved := fun x y hxy => by rw [h.name x y hxy]
  structIds := h.structIds

def TwinOutcome : Except (Absence ρ) StructDefinition → Except (Absence ρ) StructDefinition → Prop :=
  Agree SameAbsence Eq

theorem TwinOutcome.same {o o' : Except (Absence ρ) StructDefinition} (h : TwinOutcome o o') :
    SameOutcome o o' := by
  cases h with
  | ok h => exact .ok (congrArg StructDefinition.nameless h)
  | error h => exact .error h

theorem isBroken_twin {os os' : List (Except (Absence ρ) StructDefinition)}
    (h : List.Forall₂ TwinOutcome os os') : isBroken os = isBroken os' :=
  isBroken_alike (h.imp fun _ _ => TwinOutcome.same)

theorem definitionsOf_twin {os os' : List (Except (Absence ρ) StructDefinition)}
    (h : List.Forall₂ TwinOutcome os os') : definitionsOf os = definitionsOf os' := by
  induction h with
  | nil => rfl
  | cons ho _ ih =>
    cases ho with
    | ok ho => exact congrArg₂ List.cons ho ih
    | error => exact ih

namespace Shader

variable {R : Id → Id → Prop} {s s' : Shader} (h : TwinShaders R s s')
include h

section Structs

variable {x y : Id} (hxy : R x y)
include hxy

theorem memberNameWithin_twin (hops : Nat) (index : Int) :
    s.memberNameWithin hops x index = s'.memberNameWithin hops y index := by
  induction hops generalizing x y with
  | zero => rfl
  | succ hops ih =>
    have ht := h.type? x y hxy
    unfold memberNameWithin
    generalize s.type? x = a at ht ⊢
    generalize s'.type? y = b at ht ⊢
    cases ht with
    | none => rfl
    | @some t u ht =>
      have halias := ht.aliasOf trivial
      dsimp only
      generalize t.aliasOf = a at halias ⊢
      generalize u.aliasOf = b at halias ⊢
      cases halias with
      | none => exact congrFun (h.memberName? _ _ ht.selfId) index
      | some hother => exact ih hother

theorem declaredName?_twin : s.declaredName? x = s'.declaredName? y :=
  funext fun index => memberNameWithin_twin h hxy maxAliasHops index

/-- The definition of a struct and the numbers that it takes are the same. -/
theorem structDefinition_twin (n : Namer) :
    TwinOutcome (s.structDefinition x n).1 (s'.structDefinition y n).1 ∧
      (s.structDefinition x n).2 = (s'.structDefinition y n).2 := by
  rcases structDefinition_related h.alike hxy with ⟨r, r', hskip⟩ | ⟨ts, us, hts, hlaid⟩
  · rw [(hskip n n).1, (hskip n n).2]
    exact ⟨.error (.skipped r r'), rfl⟩
  · rw [(hlaid n n).1, (hlaid n n).2, h.name x y hxy, layOut_congr (declaredName?_twin h hxy) hts]
    obtain ⟨members, n'⟩ := s'.layOut y us n
    unfold definitionOf
    rw [map_naturalSize_of_sameLayout hts]
    cases members with
    | none => exact ⟨.error .unwritable, rfl⟩
    | some members => exact ⟨.ok rfl, rfl⟩

end Structs

theorem structOutcomes_twin {xs ys : List Id} (hxy : List.Forall₂ R xs ys) (n : Namer) :
    List.Forall₂ TwinOutcome (s.structOutcomes n xs).1 (s'.structOutcomes n ys).1 ∧
      (s.structOutcomes n xs).2 = (s'.structOutcomes n ys).2 := by
  induction hxy generalizing n with
  | nil => exact ⟨.nil, rfl⟩
  | @cons x y xs ys hxy _ ih =>
    obtain ⟨ho, hn⟩ := structDefinition_twin h hxy n
    unfold structOutcomes
    generalize s.structDefinition x n = p at ho hn ⊢
    generalize s'.structDefinition y n = q at ho hn ⊢
    obtain ⟨o, n₁⟩ := p
    obtain ⟨o', m₁⟩ := q
    dsimp only at ho hn
    subst hn
    obtain ⟨hrest, hn⟩ := ih n₁
    cases ho with
    | ok ho => exact ⟨.cons (.ok ho) hrest, hn⟩
    | error he =>
      cases he with
      | skipped r r' => exact ⟨.cons (.error (.skipped r r')) hrest, hn⟩
      | unwritable => exact ⟨.cons (.error .unwritable) .nil, rfl⟩

theorem vertexStruct_twin {rs qs : List Resource} (hrqs : List.Forall₂ (TwinResource R) rs qs) :
    TwinOutcome (s.vertexStruct rs) (s'.vertexStruct qs) := by
  refine vertexStruct_related (P := Eq) h.alike (fun _ _ hrq => hrq.toLikeResource) hrqs
    (fun r q type n hrq => by rw [hrq.name]) fun bs cs hblocks => ?_
  rw [List.forall₂_eq_eq_eq] at hblocks
  rw [hblocks]

theorem binding?_twin {r q : Resource} (hrq : TwinResource R r q) :
    s.binding? r = s'.binding? q := by
  have ht := h.type? _ _ hrq.typeId
  unfold binding?
  rw [h.decoration _ _ hrq.id, h.slots _ _ hrq.id, hrq.name]
  generalize s.type? r.typeId = a at ht ⊢
  generalize s'.type? q.typeId = b at ht ⊢
  cases ht with
  | none => rfl
  | some ht => rw [Option.map_some, Option.map_some, ht.info]

theorem interface_twin : SameAnswer Eq s.interface s'.interface := by
  have hbinding (r q : Resource) (hrq : TwinResource R r q) :
      Option.Rel Eq (s.binding? r) (s'.binding? q) := by
    rw [binding?_twin h hrq]
    cases s'.binding? q with
    | none => exact .none
    | some b => exact .some rfl
  apply (interface_related hbinding h.resources).imp
  rintro ⟨ub, ins, imgs, outs⟩ ⟨ub', ins', imgs', outs'⟩ - - ⟨hub, hins, himgs, houts⟩
  rw [List.forall₂_eq_eq_eq] at hub hins himgs houts
  dsimp only at hub hins himgs houts
  rw [hub, hins, himgs, houts]

theorem vertexOutcomes_twin (model : ExecutionModel) :
    List.Forall₂ TwinOutcome (s.vertexOutcomes model) (s'.vertexOutcomes model) := by
  unfold vertexOutcomes
  split
  · exact .cons (vertexStruct_twin h (h.resources _)) .nil
  · exact .nil

/-- Shaders that answer alike have one document, or fail with one message; and they take the same
numbers from the namer. -/
theorem reflect_twin (o : ReflectionOptions) (n : Namer) :
    SameAnswer (fun r r' => r.document = r'.document) (s.reflect o n).1 (s'.reflect o n).1 ∧
      (s.reflect o n).2 = (s'.reflect o n).2 := by
  have he := entryPoint_alike h.alike
  have hi := interface_twin h
  unfold reflect
  generalize s.entryPoint = a at he ⊢
  generalize s'.entryPoint = b at he ⊢
  cases he with
  | error he => exact ⟨.error he, rfl⟩
  | @ok entry _ he =>
    subst he
    generalize s.interface = a at hi ⊢
    generalize s'.interface = b at hi ⊢
    cases hi with
    | error he => exact ⟨.error he, rfl⟩
    | @ok i j hi =>
      have hv := vertexOutcomes_twin h entry.model
      subst hi
      dsimp only
      rw [isBroken_twin hv]
      split
      · exact ⟨.error (.unwritable ..), rfl⟩
      · obtain ⟨hsame, hn⟩ := structOutcomes_twin h
          (eraseDups_of_related h.biUnique h.structIds) n
        unfold allStructOutcomes
        generalize s.structOutcomes n s.structIds.eraseDups = p at hsame hn ⊢
        generalize s'.structOutcomes n s'.structIds.eraseDups = q at hsame hn ⊢
        obtain ⟨outcomes, n'⟩ := p
        obtain ⟨outcomes', m'⟩ := q
        dsimp only at hsame hn ⊢
        subst hn
        rw [isBroken_twin hsame]
        split
        · exact ⟨.error (.unwritable ..), rfl⟩
        · refine ⟨.ok ?_, rfl⟩
          rw [definitionsOf_twin hv, definitionsOf_twin hsame]

end Shader
end ShaderReflection
