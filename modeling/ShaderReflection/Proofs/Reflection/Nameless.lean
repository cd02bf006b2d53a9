import ShaderReflection.Reflection

/-! Documents without names. What a run of names leaves out is the same for every namer, as long as
all numbers that the namer hands out can be written. -/
namespace ShaderReflection

def NamedBlock.nameless (b : NamedBlock) : NamedBlock := { b with name := "" }

def StructMember.nameless (m : StructMember) : StructMember := { m with name := "" }

def StructDefinition.nameless (s : StructDefinition) : StructDefinition :=
  { s with name := "", members := s.members.map StructMember.nameless }

def ResourceBinding.nameless (b : ResourceBinding) : ResourceBinding := { b with name := "" }

def Document.nameless (d : Document) : Document :=
  { d with
    uniformBuffers := d.uniformBuffers.map ResourceBinding.nameless
    stageInputs := d.stageInputs.map ResourceBinding.nameless
    sampledImages := d.sampledImages.map ResourceBinding.nameless
    stageOutputs := d.stageOutputs.map ResourceBinding.nameless
    structs := d.structs.map StructDefinition.nameless }

/-- Some number that was handed out between two states of a namer cannot be written. -/
def Overflows (n n' : Namer) : Prop :=
  ∃ k, n.next ≤ k ∧ k < n'.next ∧ Number.isWritable k = false

theorem Overflows.mono {n n' m m' : Namer} (h : Overflows n n') (hn : m.next ≤ n.next)
    (hn' : n'.next ≤ m'.next) : Overflows m m' := by
  obtain ⟨k, hk, hk', hw⟩ := h
  exact ⟨k, by omega, by omega, hw⟩

theorem map_nameless_place (offset : Int) (bs : List NamedBlock) :
    (place offset bs).map StructMember.nameless = place offset (bs.map NamedBlock.nameless) := by
  induction bs generalizing offset with
  | nil => rfl
  | cons b bs ih =>
    rw [place, List.map_cons, ih]
    rfl

/-- What entries come to without names, if all their types can be written. -/
def namelessBlocks (es : List Entry) : Option (List NamedBlock) :=
  es.mapM fun e => e.block.type.text.map fun type => ⟨"", type, e.block.byteLength⟩

namespace Shader

section Naming

variable (s : Shader) (id : Id)

theorem next_le_memberName (index : Int) (suffix : String) (n : Namer) :
    n.next ≤ (s.memberName id index suffix n).2.next := by
  unfold memberName
  split
  · exact Int.le_refl _
  · rw [Namer.next_take]
    omega

/-- A name is missing only where its number cannot be written. -/
theorem overflows_of_memberName_eq_none (index : Int) (suffix : String) (n : Namer)
    (h : (s.memberName id index suffix n).1 = none) :
    Overflows n (s.memberName id index suffix n).2 := by
  unfold memberName at h ⊢
  split at h
  · cases h
  · refine ⟨n.next, Int.le_refl _, ?_, ?_⟩
    · rw [Namer.next_take]
      omega
    · refine Bool.eq_false_iff.mpr fun hw => ?_
      unfold Namer.take Number.decimal? at h
      rw [if_pos hw] at h
      cases h

/-- Naming entries gives what they come to without names, unless a number overflows. -/
theorem nameEntries_nameless (n : Namer) (es : List Entry) :
    n.next ≤ (s.nameEntries id n es).2.next ∧
      ((s.nameEntries id n es).1.map (·.map NamedBlock.nameless) = namelessBlocks es ∨
        (s.nameEntries id n es).1 = none ∧ Overflows n (s.nameEntries id n es).2) := by
  induction es generalizing n with
  | nil => exact ⟨Int.le_refl _, .inl rfl⟩
  | cons e es ih =>
    unfold nameEntries
    cases ht : e.block.type.text with
    | none => exact ⟨Int.le_refl _, .inl (by simp [namelessBlocks, ht])⟩
    | some type =>
      have hle := s.next_le_memberName id e.index e.block.suffix n
      have hnone := s.overflows_of_memberName_eq_none id e.index e.block.suffix n
      generalize s.memberName id e.index e.block.suffix n = p at hle hnone
      obtain ⟨name, n₁⟩ := p
      cases name with
      | none => exact ⟨hle, .inr ⟨rfl, hnone rfl⟩⟩
      | some name =>
        obtain ⟨hle', hes⟩ := ih n₁
        refine ⟨Int.le_trans hle hle', ?_⟩
        dsimp only at hle hes ⊢
        rcases hes with hes | ⟨hes, ho⟩
        · left
          unfold namelessBlocks at hes ⊢
          rw [List.mapM_cons, ht, ← hes]
          cases (s.nameEntries id n₁ es).1 <;> rfl
        · right
          rw [hes]
          exact ⟨rfl, ho.mono hle (Int.le_refl _)⟩

end Naming

end Shader
end ShaderReflection
