import Mathlib.Tactic.SplitIfs
import ShaderReflection.Artifact.Sources
import ShaderReflection.Proofs.Number.DecimalText
import ShaderReflection.Proofs.Text.UpperCase

/-! The lines of generated sources. If no text of a document has a line break, neither has a line of
the sources that are made from it. -/
namespace ShaderReflection

section Texts

def ResourceBinding.texts (b : ResourceBinding) : List String := [b.name, b.type.typeName]

def StructMember.texts (m : StructMember) : List String := [m.name, m.type]

def StructDefinition.texts (s : StructDefinition) : List String :=
  s.name :: s.members.flatMap (·.texts)

def Document.texts (d : Document) : List String :=
  [d.entryPoint, d.shaderName, d.stage, d.headerFileName]
    ++ (d.uniformBuffers ++ d.stageInputs ++ d.sampledImages ++ d.stageOutputs).flatMap (·.texts)
    ++ d.structs.flatMap (·.texts)

end Texts

namespace Text

def OneLine (s : String) : Prop := '\n' ∉ s.toList

/-- Literal texts are lists of characters, which are searched faster than texts. -/
theorem oneLine_ofList {cs : List Char} (h : '\n' ∉ cs) : OneLine (String.ofList cs) := by
  unfold OneLine
  rwa [String.toList_ofList]

theorem oneLine_append {s t : String} : OneLine (s ++ t) ↔ OneLine s ∧ OneLine t := by
  unfold OneLine
  rw [String.toList_append, List.mem_append, not_or]

section CamelCase

private theorem newline_notMem_camelCaseFrom {cs : List Char} (h : '\n' ∉ cs) (raised : Bool) :
    '\n' ∉ camelCaseFrom raised cs := by
  induction cs generalizing raised with
  | nil => exact h
  | cons c cs ih =>
    rw [List.mem_cons, not_or] at h
    unfold camelCaseFrom
    split_ifs
    · rw [List.mem_append, not_or]
      exact ⟨newline_notMem_upper (Ne.symm h.1), ih h.2 _⟩
    · exact ih h.2 _
    · rw [List.mem_cons, not_or]
      exact ⟨h.1, ih h.2 _⟩

theorem OneLine.camelCase {s : String} (h : OneLine s) : OneLine (Text.camelCase s) := by
  unfold OneLine Text.camelCase
  rw [String.toList_ofList]
  exact newline_notMem_camelCaseFrom h true

end CamelCase

theorem oneLine_toString (n : Int) : OneLine (toString n) := by
  intro h
  obtain ⟨sign, c, cs, hn, hsign, hdigits⟩ := Number.exists_sign_digits n
  rw [hn] at h
  rcases List.mem_append.mp h with h | h
  · rcases hsign with rfl | rfl
    · cases h
    · cases List.mem_singleton.mp h
  · cases hdigits '\n' h

theorem oneLine_natToString (n : Nat) : OneLine (toString n) := oneLine_toString n

end Text

namespace Artifact

open Text (OneLine oneLine_ofList oneLine_append oneLine_toString oneLine_natToString)

section Parts

theorem oneLine_banner {title : String} (h : OneLine title) : ∀ l ∈ banner title, OneLine l := by
  have hrule : OneLine (String.ofList (List.replicate (74 - title.length) '=')) :=
    oneLine_ofList fun hmem => absurd (List.eq_of_mem_replicate hmem) (by decide)
  unfold banner
  simp only [List.forall_mem_cons, List.not_mem_nil, false_implies, implies_true,
    oneLine_append, h, hrule, and_true]
  and_intros <;> exact oneLine_ofList (by decide)

theorem oneLine_slotArray {name : String} (h : OneLine name) (count : Nat) :
    OneLine (slotArray name count) := by
  unfold slotArray
  simp only [oneLine_append, oneLine_natToString, h, and_true]
  and_intros <;> exact oneLine_ofList (by decide)

theorem oneLine_slotArrayDefinition {comment name : String} {entries : List String}
    (hcomment : OneLine comment) (hname : OneLine name) (hentries : ∀ l ∈ entries, OneLine l) :
    ∀ l ∈ slotArrayDefinition comment name entries, OneLine l := by
  unfold slotArrayDefinition
  simp only [List.forall_mem_append, List.forall_mem_cons, List.not_mem_nil, false_implies,
    implies_true, oneLine_append, oneLine_natToString, hcomment, hname, and_true, true_and]
  refine ⟨⟨?_, hentries⟩, ?_⟩
  all_goals and_intros <;> exact oneLine_ofList (by decide)

section Structs

variable {s : StructDefinition} (h : ∀ t ∈ s.texts, OneLine t)
include h

theorem oneLine_member {m : StructMember} (hm : m ∈ s.members) :
    OneLine m.name ∧ OneLine m.type := by
  have hmember : ∀ t ∈ m.texts, OneLine t := fun t ht =>
    h t (List.mem_cons_of_mem _ (List.mem_flatMap.mpr ⟨m, hm, ht⟩))
  exact ⟨hmember _ List.mem_cons_self, hmember _ (List.mem_cons_of_mem _ List.mem_cons_self)⟩

theorem oneLine_structDeclaration : ∀ l ∈ structDeclaration s, OneLine l := by
  have hname : OneLine s.name := h _ List.mem_cons_self
  have hmembers : ∀ m ∈ s.members, OneLine (memberDeclaration m) := by
    intro m hm
    obtain ⟨hmember, htype⟩ := oneLine_member h hm
    unfold memberDeclaration
    simp only [oneLine_append, oneLine_toString, hmember, htype, and_true]
    and_intros <;> exact oneLine_ofList (by decide)
  unfold structDeclaration structOpening structClosing
  simp only [List.forall_mem_append, List.forall_mem_cons, List.forall_mem_map, List.not_mem_nil,
    false_implies, implies_true, oneLine_append, oneLine_toString, hname, and_true]
  refine ⟨⟨?_, hmembers⟩, ?_⟩
  all_goals and_intros <;> exact oneLine_ofList (by decide)

theorem oneLine_structChecks : ∀ l ∈ structChecks s, OneLine l := by
  have hname : OneLine s.name := h _ List.mem_cons_self
  have hmembers : ∀ m ∈ s.members, OneLine (offsetCheck s m) := by
    intro m hm
    have hmember := (oneLine_member h hm).1
    unfold offsetCheck
    simp only [oneLine_append, oneLine_toString, hname, hmember, and_true]
    and_intros <;> exact oneLine_ofList (by decide)
  unfold structChecks standardLayoutCheck sizeCheck
  simp only [List.forall_mem_append, List.forall_mem_cons, List.forall_mem_map, List.not_mem_nil,
    false_implies, implies_true, oneLine_append, oneLine_toString, hname, and_true]
  refine ⟨⟨?_, hmembers⟩, ?_⟩
  all_goals and_intros <;> exact oneLine_ofList (by decide)

end Structs

section Resources

variable {b : ResourceBinding} (h : ∀ t ∈ b.texts, OneLine t)
include h

theorem oneLine_binding : OneLine b.name ∧ OneLine b.type.typeName :=
  ⟨h _ List.mem_cons_self, h _ (List.mem_cons_of_mem _ List.mem_cons_self)⟩

theorem oneLine_bufferDeclaration : ∀ l ∈ bufferDeclaration b, OneLine l := by
  have hname := (oneLine_binding h).1
  unfold bufferDeclaration
  simp only [List.forall_mem_cons, List.not_mem_nil, false_implies, implies_true,
    oneLine_append, oneLine_toString, hname, hname.camelCase, and_true]
  and_intros <;> exact oneLine_ofList (by decide)

theorem oneLine_imageDeclaration : ∀ l ∈ imageDeclaration b, OneLine l := by
  have hname := (oneLine_binding h).1
  unfold imageDeclaration
  simp only [List.forall_mem_cons, List.not_mem_nil, false_implies, implies_true,
    oneLine_append, oneLine_toString, hname, hname.camelCase, and_true]
  and_intros <;> exact oneLine_ofList (by decide)

theorem oneLine_slotDeclaration {constant : String} (hc : OneLine constant) :
    ∀ l ∈ slotDeclaration constant b, OneLine l := by
  obtain ⟨hname, htype⟩ := oneLine_binding h
  unfold slotDeclaration slotOpening
  simp only [List.forall_mem_cons, List.not_mem_nil, false_implies, implies_true,
    oneLine_append, oneLine_toString, hname, htype, hc, and_true]
  and_intros <;> exact oneLine_ofList (by decide)

theorem oneLine_slotEntry {constant : String} (hc : OneLine constant) :
    OneLine (slotEntry constant b) := by
  have hname := (oneLine_binding h).1
  unfold slotEntry
  simp only [oneLine_append, hname, hc, and_true]
  and_intros <;> exact oneLine_ofList (by decide)

theorem oneLine_constants : OneLine (inputConstant b) ∧ OneLine (outputConstant b) := by
  have hname := (oneLine_binding h).1.camelCase
  unfold inputConstant outputConstant
  simp only [oneLine_append, hname, and_true]
  and_intros <;> exact oneLine_ofList (by decide)

end Resources

end Parts

section Sources

variable {d : Document}

structure OneLineTexts (d : Document) : Prop where
  entryPoint : OneLine d.entryPoint
  shaderName : OneLine d.shaderName
  stage : OneLine d.stage
  headerFileName : OneLine d.headerFileName
  uniformBuffers : ∀ b ∈ d.uniformBuffers, ∀ t ∈ b.texts, OneLine t
  stageInputs : ∀ b ∈ d.stageInputs, ∀ t ∈ b.texts, OneLine t
  sampledImages : ∀ b ∈ d.sampledImages, ∀ t ∈ b.texts, OneLine t
  stageOutputs : ∀ b ∈ d.stageOutputs, ∀ t ∈ b.texts, OneLine t
  structs : ∀ s ∈ d.structs, ∀ t ∈ s.texts, OneLine t

theorem oneLineTexts_of_texts (h : ∀ t ∈ d.texts, OneLine t) : OneLineTexts d := by
  simp only [Document.texts, List.forall_mem_append, List.forall_mem_cons,
    List.forall_mem_flatMap] at h
  obtain ⟨⟨⟨hentry, hshader, hstage, hfile, -⟩, ⟨⟨hbuffers, hinputs⟩, himages⟩, houtputs⟩,
    hstructs⟩ := h
  exact ⟨hentry, hshader, hstage, hfile, hbuffers, hinputs, himages, houtputs, hstructs⟩

theorem oneLine_stageTag (stage : String) : OneLine (stageTag stage) := by
  unfold stageTag
  split_ifs <;> exact oneLine_ofList (by decide)

variable (h : OneLineTexts d)
include h

theorem oneLine_shaderStruct : OneLine (shaderStruct d) := by
  unfold shaderStruct
  simp only [oneLine_append, h.shaderName.camelCase, h.stage.camelCase, true_and]
  exact oneLine_ofList (by decide)

theorem oneLine_preamble : ∀ l ∈ preamble d, OneLine l := by
  unfold preamble
  simp only [List.forall_mem_cons, List.not_mem_nil, false_implies, implies_true, oneLine_append,
    h.shaderName, h.stage, h.entryPoint, and_true]
  and_intros <;> exact oneLine_ofList (by decide)

theorem oneLine_headerOpening : ∀ l ∈ headerOpening d, OneLine l := by
  unfold headerOpening
  simp only [List.forall_mem_cons, List.not_mem_nil, false_implies, implies_true, oneLine_append,
    oneLine_shaderStruct h, and_true]
  and_intros <;> exact oneLine_ofList (by decide)

theorem oneLine_stageInfo : ∀ l ∈ stageInfo d, OneLine l := by
  unfold stageInfo
  rw [List.forall_mem_append]
  refine ⟨oneLine_banner (oneLine_ofList (by decide)), ?_⟩
  simp only [List.forall_mem_cons, List.not_mem_nil, false_implies, implies_true, oneLine_append,
    h.shaderName.camelCase, h.entryPoint, oneLine_stageTag, and_true]
  and_intros <;> exact oneLine_ofList (by decide)

theorem oneLine_headerClosing : ∀ l ∈ headerClosing d, OneLine l := by
  unfold headerClosing
  simp only [List.forall_mem_cons, List.not_mem_nil, false_implies, implies_true, oneLine_append,
    oneLine_shaderStruct h, and_true]
  and_intros <;> exact oneLine_ofList (by decide)

theorem oneLine_structSection : ∀ l ∈ structSection d, OneLine l := by
  unfold structSection
  split_ifs
  · exact fun l hl => absurd hl List.not_mem_nil
  · rw [List.forall_mem_append, List.forall_mem_flatMap]
    exact ⟨oneLine_banner (oneLine_ofList (by decide)),
      fun s hs => oneLine_structDeclaration (h.structs s hs)⟩

theorem oneLine_bufferSection : ∀ l ∈ bufferSection d, OneLine l := by
  unfold bufferSection
  split_ifs
  · exact fun l hl => absurd hl List.not_mem_nil
  · rw [List.cons_append, List.forall_mem_cons, List.forall_mem_append, List.forall_mem_flatMap]
    exact ⟨oneLine_ofList (by decide), oneLine_banner (oneLine_ofList (by decide)),
      fun b hb => oneLine_bufferDeclaration (h.uniformBuffers b hb)⟩

theorem oneLine_imageSection : ∀ l ∈ imageSection d, OneLine l := by
  unfold imageSection
  split_ifs
  · exact fun l hl => absurd hl List.not_mem_nil
  · rw [List.cons_append, List.forall_mem_cons, List.forall_mem_append, List.forall_mem_flatMap]
    exact ⟨oneLine_ofList (by decide), oneLine_banner (oneLine_ofList (by decide)),
      fun b hb => oneLine_imageDeclaration (h.sampledImages b hb)⟩

theorem oneLine_inputSection : ∀ l ∈ inputSection d, OneLine l := by
  unfold inputSection
  rw [List.forall_mem_append, List.cons_append, List.forall_mem_cons, List.forall_mem_append,
    List.forall_mem_flatMap, List.forall_mem_singleton]
  refine ⟨⟨oneLine_ofList (by decide), oneLine_banner (oneLine_ofList (by decide)), fun b hb => ?_⟩,
    oneLine_slotArray (oneLine_ofList (by decide)) _⟩
  have htexts := h.stageInputs b hb
  exact oneLine_slotDeclaration htexts (oneLine_constants htexts).1

theorem oneLine_outputSection : ∀ l ∈ outputSection d, OneLine l := by
  unfold outputSection
  rw [List.forall_mem_append, List.cons_append, List.forall_mem_cons, List.forall_mem_append,
    List.forall_mem_flatMap, List.forall_mem_singleton]
  refine ⟨⟨oneLine_ofList (by decide), oneLine_banner (oneLine_ofList (by decide)), fun b hb => ?_⟩,
    oneLine_slotArray (oneLine_ofList (by decide)) _⟩
  have htexts := h.stageOutputs b hb
  exact oneLine_slotDeclaration htexts (oneLine_constants htexts).2

/-- Every line of the header is one line. -/
theorem oneLine_headerLines : ∀ l ∈ headerLines d, OneLine l := by
  unfold headerLines
  simp only [List.forall_mem_append]
  exact ⟨⟨⟨⟨⟨⟨⟨⟨oneLine_preamble h, oneLine_headerOpening h⟩, oneLine_stageInfo h⟩,
    oneLine_structSection h⟩, oneLine_bufferSection h⟩, oneLine_inputSection h⟩,
    oneLine_imageSection h⟩, oneLine_outputSection h⟩, oneLine_headerClosing h⟩

/-- Every line of the implementation is one line. -/
theorem oneLine_implementationLines : ∀ l ∈ implementationLines d, OneLine l := by
  have hopening : ∀ l ∈ implementationOpening d, OneLine l := by
    unfold implementationOpening
    simp only [List.forall_mem_cons, List.not_mem_nil, false_implies, implies_true,
      oneLine_append, h.headerFileName, oneLine_shaderStruct h, and_true]
    and_intros <;> exact oneLine_ofList (by decide)
  have hinputs : ∀ l ∈ d.stageInputs.map (fun b => slotEntry (inputConstant b) b), OneLine l := by
    rw [List.forall_mem_map]
    exact fun b hb => oneLine_slotEntry (h.stageInputs b hb)
      (oneLine_constants (h.stageInputs b hb)).1
  have houtputs : ∀ l ∈ d.stageOutputs.map (fun b => slotEntry (outputConstant b) b),
      OneLine l := by
    rw [List.forall_mem_map]
    exact fun b hb => oneLine_slotEntry (h.stageOutputs b hb)
      (oneLine_constants (h.stageOutputs b hb)).2
  unfold implementationLines
  simp only [List.forall_mem_append, List.forall_mem_flatMap, List.forall_mem_singleton]
  refine ⟨⟨⟨⟨⟨⟨oneLine_preamble h, hopening⟩,
    fun s hs => oneLine_structChecks (h.structs s hs)⟩, ?_⟩, ?_⟩, ?_⟩, ?_⟩
  · exact oneLine_ofList (by decide)
  · exact oneLine_slotArrayDefinition (oneLine_ofList (by decide)) (oneLine_ofList (by decide))
      hinputs
  · exact oneLine_slotArrayDefinition (oneLine_ofList (by decide)) (oneLine_ofList (by decide))
      houtputs
  · exact oneLine_ofList (by decide)

end Sources

end Artifact
end ShaderReflection
