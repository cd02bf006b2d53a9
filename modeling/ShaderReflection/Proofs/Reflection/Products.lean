import ShaderReflection.Artifact.Render
import ShaderReflection.Document.Keyed
import ShaderReflection.Proofs.Module.RenamedModules
import ShaderReflection.Proofs.Reflection.Stripping
import ShaderReflection.Reflection

/-! What a listing gives in the end: a document, its JSON and the two sources. None of them tells
how the ids of the listing are spelled. -/
namespace ShaderReflection

def ReflectionError.errorClass : ReflectionError → ErrorClass
  | .entryPointCount _ | .unresolved .. => .reflection
  | .unwritable .. => .value

def Artifact.RenderError.errorClass : Artifact.RenderError → ErrorClass
  | .failed .. | .missing _ => .rendering
  | .unreadable _ => .encoding
  | .raised _ => .engine
  | .unwritable => .value

structure Products where
  document : Document
  json : String
  artifacts : Artifact.Artifacts
  deriving DecidableEq, Repr

inductive ProductError where
  | declaration (e : Module.DeclarationError)
  | reflection (e : ReflectionError)
  | json
  | rendering (e : Artifact.RenderError)
  deriving DecidableEq, Repr

def ProductError.errorClass : ProductError → ErrorClass
  | .declaration e => e.errorClass
  | .reflection e => e.errorClass
  | .json => .value
  | .rendering e => e.errorClass

def SameProductError (e e' : ProductError) : Prop := e.errorClass = e'.errorClass

/-- The products of a shader, with the packaged templates. -/
def Shader.products (s : Shader) (o : ReflectionOptions) (namer : Namer) :
    Except ProductError Products := do
  let r ← (s.reflect o namer).1.mapError .reflection
  match r.document.jsonText? with
  | none => throw .json
  | some json =>
    let artifacts ← (Artifact.renderAll (fun _ => none) r.document).mapError .rendering
    return { document := r.document, json, artifacts }

namespace Module

open Assembly (Instruction)

def products (is : List Instruction) (o : ReflectionOptions) (namer : Namer) :
    Except ProductError Products := do
  let d ← (Declarations.ofInstructions is).mapError .declaration
  d.shader.products o namer

/-- Under other names of its ids, a listing makes the same shader or fails in the same way. -/
theorem agree_ofInstructions {f : String → String} {is : List Instruction}
    (hf : Set.InjOn f {n | ∃ i ∈ is, n ∈ i.idNames}) :
    Agree SameDeclarationError (fun d e => e.shader = d.shader) (Declarations.ofInstructions is)
      (Declarations.ofInstructions (is.map (·.rename f))) := by
  have hnames : ∀ i ∈ moduleScope false is, ∀ n ∈ i.idNames, ∃ i ∈ is, n ∈ i.idNames :=
    fun i hi n hn => ⟨i, mem_of_mem_moduleScope hi, hn⟩
  have hrun := Declarations.agree_declareAll (Declarations.renamedModules_empty f _) hf hnames
  unfold Declarations.ofInstructions
  rw [moduleScope_rename]
  exact hrun.imp fun _ _ _ _ h => Declarations.shader_renamed h

/-- The spelling of ids does not show. Where an injective renaming gives other names to the ids of a
listing, inside of functions and outside, the products are the same, or both listings fail with
errors of one kind. -/
theorem products_rename {f : String → String} {is : List Instruction}
    (hf : Set.InjOn f {n | ∃ i ∈ is, n ∈ i.idNames}) (o : ReflectionOptions) (namer : Namer) :
    Agree SameProductError Eq (products is o namer) (products (is.map (·.rename f)) o namer) := by
  have hmodules : Agree SameProductError (fun d e => e.shader = d.shader)
      ((Declarations.ofInstructions is).mapError .declaration)
      ((Declarations.ofInstructions (is.map (·.rename f))).mapError .declaration) := by
    have hagree := agree_ofInstructions hf
    generalize Declarations.ofInstructions is = x at hagree ⊢
    generalize Declarations.ofInstructions (is.map (·.rename f)) = y at hagree ⊢
    cases hagree with
    | ok h => exact .ok h
    | error h => exact .error h
  refine hmodules.bind fun d e hshader => ?_
  rw [hshader]
  exact Agree.refl (E := SameProductError) (fun _ => rfl) _

/-- Longer names for all ids of a scene. -/
theorem products_rename_sceneListing :
    Set.InjOn ("scene." ++ ·) {n | ∃ i ∈ Declarations.sceneListing, n ∈ i.idNames} ∧
    Agree SameProductError Eq (products Declarations.sceneListing ⟨"scene", "scene.h"⟩ ⟨0⟩)
      (products (Declarations.sceneListing.map (·.rename ("scene." ++ ·))) ⟨"scene", "scene.h"⟩
        ⟨0⟩) := by
  have hf : Set.InjOn ("scene." ++ ·) {n | ∃ i ∈ Declarations.sceneListing, n ∈ i.idNames} :=
    fun n _ m _ h => (String.append_right_inj "scene.").mp h
  exact ⟨hf, products_rename hf _ _⟩

end Module
end ShaderReflection
