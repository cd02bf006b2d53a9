import ShaderReflection.Proofs.Reflection.AlikeVertices

/-! Documents of shaders that answer alike. Either both shaders fail in the same way or their
documents agree without names, unless a namer overflows. -/
namespace ShaderReflection

open ShaderReflection.Module (LikeType)

def SameBindings (bs cs : List ResourceBinding) : Prop :=
  bs.map ResourceBinding.nameless = cs.map ResourceBinding.nameless

/-- Two runs fail for one reason. Which resources it is about is not compared. -/
inductive SameError : ReflectionError → ReflectionError → Prop where
  | entryPointCount (count : Nat) : SameError (.entryPointCount count) (.entryPointCount count)
  | unresolved (p : Part) (rs qs : List Resource) :
      SameError (.unresolved p rs) (.unresolved p qs)
  | unwritable (v v' : List VertexSkip) (t t' : List StructSkip) :
      SameError (.unwritable v t) (.unwritable v' t')

theorem SameError.message_eq {e e' : ReflectionError} (h : SameError e e') :
    e.message = e'.message := by
  cases h <;> rfl

/-- Both runs give related values, or both fail for one reason. -/
def SameAnswer (P : α → β → Prop) : Except ReflectionError α → Except ReflectionError β → Prop :=
  Agree SameError P

section Lists

variable {P : ResourceBinding → ResourceBinding → Prop}
  {xs ys : List (Except Resource (List ResourceBinding))}
  (h : List.Forall₂ (Agree (fun _ _ => True) (List.Forall₂ P)) xs ys)
include h

private theorem isEmpty_failures : (xs.filterMap fun | .error r => some r | .ok _ => none).isEmpty =
    (ys.filterMap fun | .error r => some r | .ok _ => none).isEmpty := by
  induction h with
  | nil => rfl
  | cons hxy _ ih =>
    cases hxy with
    | ok => exact ih
    | error => rfl

private theorem flatMap_of_related : List.Forall₂ P (xs.flatMap fun | .ok bs => bs | .error _ => [])
    (ys.flatMap fun | .ok bs => bs | .error _ => []) := by
  induction h with
  | nil => exact .nil
  | cons hxy _ ih =>
    rw [List.flatMap_cons, List.flatMap_cons]
    cases hxy with
    | ok hbs => exact List.rel_append hbs ih
    | error => exact List.rel_append .nil ih

end Lists

structure RelatedInterfaces (P : ResourceBinding → ResourceBinding → Prop)
    (i j : Shader.Interface) : Prop where
  uniformBuffers : List.Forall₂ P i.uniformBuffers j.uniformBuffers
  stageInputs : List.Forall₂ P i.stageInputs j.stageInputs
  sampledImages : List.Forall₂ P i.sampledImages j.sampledImages
  stageOutputs : List.Forall₂ P i.stageOutputs j.stageOutputs

structure SameInterface (i j : Shader.Interface) : Prop where
  uniformBuffers : SameBindings i.uniformBuffers j.uniformBuffers
  stageInputs : SameBindings i.stageInputs j.stageInputs
  sampledImages : SameBindings i.sampledImages j.sampledImages
  stageOutputs : SameBindings i.stageOutputs j.stageOutputs

theorem isBroken_alike {os os' : List (Except (Absence ρ) StructDefinition)}
    (h : List.Forall₂ SameOutcome os os') : isBroken os = isBroken os' := by
  unfold isBroken
  induction h with
  | nil => rfl
  | cons ho _ ih =>
    rw [List.any_cons, List.any_cons, ih]
    cases ho with
    | ok => rfl
    | error he => cases he <;> rfl

theorem definitionsOf_alike {os os' : List (Except (Absence ρ) StructDefinition)}
    (h : List.Forall₂ SameOutcome os os') :
    (definitionsOf os).map StructDefinition.nameless =
      (definitionsOf os').map StructDefinition.nameless := by
  induction h with
  | nil => rfl
  | cons ho _ ih =>
    cases ho with
    | ok ho => exact congrArg₂ List.cons ho ih
    | error => exact ih

def IsUnwritable (r : Except ReflectionError Reflection) : Prop :=
  ∃ v t, r = .error (.unwritable v t)

/-- A run that failed because its namer handed out a number that cannot be written. -/
def BrokenOff (n : Namer) (r : Except ReflectionError Reflection × Namer) : Prop :=
  IsUnwritable r.1 ∧ Overflows n r.2

/-- Two reflections agree: their documents are the same without names. -/
def SameDocument (r r' : Reflection) : Prop := r.document.nameless = r'.document.nameless

theorem sameBindings_of_related {bs cs : List ResourceBinding}
    (h : List.Forall₂ (fun b c => b.nameless = c.nameless) bs cs) : SameBindings bs cs := by
  unfold SameBindings
  rw [← List.forall₂_eq_eq_eq, List.forall₂_map_left_iff, List.forall₂_map_right_iff]
  exact h

namespace Shader

section Related

variable {s s' : Shader} {Q : Resource → Resource → Prop}
  {P : ResourceBinding → ResourceBinding → Prop}
  (hb : ∀ r q, Q r q → Option.Rel P (s.binding? r) (s'.binding? q))
include hb

theorem bindings_related {rs qs : List Resource} (hrq : List.Forall₂ Q rs qs) :
    Agree (fun _ _ => True) (List.Forall₂ P) (s.bindings rs) (s'.bindings qs) := by
  induction hrq with
  | nil => exact .ok .nil
  | @cons r q rs qs hrq _ ih =>
    have hbind := hb r q hrq
    unfold bindings
    generalize s.binding? r = a at hbind ⊢
    generalize s'.binding? q = b at hbind ⊢
    cases hbind with
    | none => exact .error trivial
    | some hab =>
      dsimp only
      generalize s.bindings rs = x at ih ⊢
      generalize s'.bindings qs = y at ih ⊢
      cases ih with
      | error => exact .error trivial
      | ok hbs => exact .ok (.cons hab hbs)

variable (hr : ∀ c, List.Forall₂ Q (s.resources c) (s'.resources c))
include hr

theorem part_related (p : Part) : SameAnswer (List.Forall₂ P) (s.part p) (s'.part p) := by
  have hresults : List.Forall₂ (Agree (fun _ _ => True) (List.Forall₂ P))
      (p.categories.map fun c => s.bindings (s.resources c))
      (p.categories.map fun c => s'.bindings (s'.resources c)) := by
    rw [List.forall₂_map_left_iff, List.forall₂_map_right_iff, List.forall₂_same]
    exact fun c _ => bindings_related hb (hr c)
  unfold part
  exact .ofBool (isEmpty_failures hresults) (flatMap_of_related hresults) (.unresolved ..)

/-- Shaders with related resources have related bindings, or fail in the same part. -/
theorem interface_related : SameAnswer (RelatedInterfaces P) s.interface s'.interface := by
  unfold interface
  refine (part_related hb hr .uniformBuffers).bind fun ub ub' hub => ?_
  refine (part_related hb hr .stageInputs).bind fun ins ins' hins => ?_
  refine (part_related hb hr .sampledImages).bind fun imgs imgs' himgs => ?_
  refine (part_related hb hr .stageOutputs).bind fun outs outs' houts => ?_
  exact .ok ⟨hub, hins, himgs, houts⟩

end Related

variable {R : Id → Id → Prop} {s s' : Shader} (h : AlikeShaders R s s')
include h

theorem binding?_alike {r q : Resource} (hrq : LikeResource R r q) :
    Option.Rel (fun b c => b.nameless = c.nameless) (s.binding? r) (s'.binding? q) := by
  have ht := h.type? _ _ hrq.typeId
  unfold binding?
  rw [h.decoration _ _ hrq.id, h.slots _ _ hrq.id]
  generalize s.type? r.typeId = a at ht ⊢
  generalize s'.type? q.typeId = b at ht ⊢
  cases ht with
  | none => exact .none
  | some ht =>
    rw [Option.map_some, Option.map_some, ht.info]
    exact .some rfl

theorem interface_alike : SameAnswer SameInterface s.interface s'.interface := by
  have hrelated := interface_related (fun _ _ hrq => binding?_alike h hrq) h.resources
  exact hrelated.imp fun _ _ _ _ hi => ⟨sameBindings_of_related hi.uniformBuffers,
    sameBindings_of_related hi.stageInputs, sameBindings_of_related hi.sampledImages,
    sameBindings_of_related hi.stageOutputs⟩

theorem entryPoint_alike : SameAnswer Eq s.entryPoint s'.entryPoint := by
  unfold entryPoint
  rw [h.entryPoints]
  split
  · exact .ok rfl
  · exact .error (.entryPointCount _)

theorem allStructOutcomes_alike (n m : Namer) :
    UnlessOverflow (List.Forall₂ SameOutcome) (isBroken · = true) n m
      (s.allStructOutcomes n) (s'.allStructOutcomes m) :=
  structOutcomes_alike h (eraseDups_of_related h.biUnique h.structIds) n m

/-- Shaders that answer alike have the same documents without names, or fail in the same way. -/
theorem reflect_alike (o : ReflectionOptions) (n m : Namer) :
    UnlessOverflow (SameAnswer SameDocument) IsUnwritable n m (s.reflect o n)
      (s'.reflect o m) := by
  have hnone {r r' : Except ReflectionError Reflection}
      (hr : SameAnswer SameDocument r r') : UnlessOverflow (SameAnswer SameDocument) IsUnwritable
        n m (r, n) (r', m) := ⟨Int.le_refl _, Int.le_refl _, .inl hr⟩
  have he := entryPoint_alike h
  have hi := interface_alike h
  unfold reflect
  generalize s.entryPoint = a at he ⊢
  generalize s'.entryPoint = b at he ⊢
  cases he with
  | error he => exact hnone (.error he)
  | @ok entry _ he =>
    subst he
    dsimp only
    generalize s.interface = a at hi ⊢
    generalize s'.interface = b at hi ⊢
    cases hi with
    | error he => exact hnone (.error he)
    | @ok i j hi =>
      have hv := vertexOutcomes_alike h entry.model
      dsimp only
      rw [isBroken_alike hv]
      split
      · exact hnone (.error (.unwritable ..))
      · obtain ⟨hn, hm, hsame⟩ := allStructOutcomes_alike h n m
        generalize s.allStructOutcomes n = p at hn hsame ⊢
        generalize s'.allStructOutcomes m = q at hm hsame ⊢
        obtain ⟨outcomes, n'⟩ := p
        obtain ⟨outcomes', m'⟩ := q
        dsimp only at hn hm hsame ⊢
        rcases hsame with hsame | ⟨hbroken, ho⟩ | ⟨hbroken, ho⟩
        · rw [isBroken_alike hsame]
          split
          · exact ⟨hn, hm, .inl (.error (.unwritable ..))⟩
          · refine ⟨hn, hm, .inl (.ok ?_)⟩
            unfold SameDocument Document.nameless
            dsimp only
            rw [List.map_append, List.map_append, definitionsOf_alike hv,
              definitionsOf_alike hsame, hi.uniformBuffers, hi.stageInputs, hi.sampledImages,
              hi.stageOutputs]
        · rw [if_pos hbroken]
          refine ⟨hn, ?_, .inr (.inl ⟨⟨_, _, rfl⟩, ho⟩)⟩
          split <;> exact hm
        · rw [if_pos hbroken]
          refine ⟨?_, hm, .inr (.inr ⟨⟨_, _, rfl⟩, ho⟩)⟩
          split <;> exact hn

end Shader
end ShaderReflection
