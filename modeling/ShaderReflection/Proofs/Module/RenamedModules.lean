import ShaderReflection.Module.Slots
import ShaderReflection.Proofs.Module.Renaming

/-! Modules of listings in which ids go by other names. Only the operands of decorations keep the
names, and no question looks at them, so the two modules are one shader. -/
namespace ShaderReflection.Module

open Assembly (Instruction Operand agree_idAt agree_intAt agree_textAt)

theorem moduleScope_rename (f : String → String) (inFunction : Bool) (is : List Instruction) :
    moduleScope inFunction (is.map (·.rename f)) =
      (moduleScope inFunction is).map (·.rename f) := by
  induction is generalizing inFunction with
  | nil => rfl
  | cons i is ih =>
    have hopcode : (i.rename f).opcode = i.opcode := rfl
    rw [List.map_cons, moduleScope, moduleScope, hopcode]
    split
    · exact ih true
    · split
      · exact ih false
      · split
        · exact ih true
        · rw [ih, List.map_cons]

namespace Declarations

/-- `e` says what `d` says under other names of the ids. -/
structure RenamedModules (f : String → String) (S : Set String) (d e : Declarations) : Prop extends
    Renamed f S d e where
  memberNames : e.memberNames = d.memberNames
  decorations : LikeEntries Eq (fun os os' => os' = os.map (Operand.rename f)) d.decorations
    e.decorations
  memberDecorations : LikeEntries Eq (fun os os' => os' = os.map (Operand.rename f))
    d.memberDecorations e.memberDecorations

theorem renamedModules_empty (f : String → String) (S : Set String) :
    RenamedModules f S .empty .empty where
  known := fun _ hn => by cases hn
  ids := rfl
  names := rfl
  types := rfl
  pointees := rfl
  imageSampled := rfl
  constants := rfl
  globals := rfl
  entryPoints := rfl
  roots := rfl
  memberNames := rfl
  decorations := .nil
  memberDecorations := .nil

section Run

variable {f : String → String} {S : Set String} {d e : Declarations}
  (h : RenamedModules f S d e) (hf : Set.InjOn f S)
include h hf

section

variable {i : Instruction} (hi : ∀ n ∈ i.idNames, n ∈ S)
include hi

theorem agree_target : Agree SameDeclarationError
    (fun p q => p.1 = q.1 ∧ RenamedModules f S p.2 q.2) (d.operandId i 0)
    (e.operandId (i.rename f) 0) := by
  apply (agree_operandId hf h.toRenamed hi 0).imp
  rintro p q hp hq ⟨hid, hr⟩
  obtain ⟨ns, -, hns⟩ := interned_operandId hp
  obtain ⟨ms, -, hms⟩ := interned_operandId hq
  refine ⟨hid, { hr with memberNames := ?_, decorations := ?_, memberDecorations := ?_ }⟩
  · rw [hms, hns]
    exact h.memberNames
  · rw [hms, hns]
    exact h.decorations
  · rw [hms, hns]
    exact h.memberDecorations

/-- An instruction does the same under other names. -/
theorem agree_declare :
    Agree SameDeclarationError (RenamedModules f S) (d.declare i) (e.declare (i.rename f)) := by
  by_cases ha : annotates i = true
  · have hopcode : (i.rename f).opcode = i.opcode := rfl
    have hdrop (n : Nat) : (i.rename f).operands.drop n = (i.operands.drop n).map (·.rename f) :=
      List.map_drop.symm
    unfold declare
    unfold annotates at ha
    rw [hopcode]
    split at ha
    case h_1 ho =>
      rw [ho]
      refine (agree_target h hf hi).bind fun p q ⟨hid, h⟩ => ?_
      refine (agree_ask (agree_textAt 2)).bind fun text _ htext => ?_
      refine (agree_ask (agree_intAt 1)).bind fun index _ hindex => ?_
      rw [← hid, ← htext, ← hindex]
      exact .ok { h with memberNames := congrArg (·.set (p.1, index) text) h.memberNames }
    case h_2 ho =>
      rw [ho]
      refine (agree_target h hf hi).bind fun p q ⟨hid, h⟩ => ?_
      refine (agree_ask (agree_textAt 1)).bind fun kind _ hkind => ?_
      rw [← hid, ← hkind]
      exact .ok { h with decorations := h.decorations.set biUnique_eq rfl (hdrop 2) }
    case h_3 ho =>
      rw [ho]
      refine (agree_target h hf hi).bind fun p q ⟨hid, h⟩ => ?_
      refine (agree_ask (agree_intAt 1)).bind fun index _ hindex => ?_
      refine (agree_ask (agree_textAt 2)).bind fun kind _ hkind => ?_
      rw [← hid, ← hindex, ← hkind]
      exact .ok { h with
        memberDecorations := h.memberDecorations.set biUnique_eq rfl (hdrop 3) }
    case h_4 => cases ha
  · have ha : annotates i = false := Bool.eq_false_iff.mpr ha
    apply (agree_declare_plain h.toRenamed hf hi ha).imp
    intro d' e' hd he hr
    obtain ⟨hm, hd₁, hd₂⟩ := declare_annotations hd ha
    obtain ⟨hm', he₁, he₂⟩ := declare_annotations (i := i.rename f) he ha
    refine { hr with memberNames := ?_, decorations := ?_, memberDecorations := ?_ }
    · rw [hm, hm', h.memberNames]
    · rw [hd₁, he₁]
      exact h.decorations
    · rw [hd₂, he₂]
      exact h.memberDecorations

end

theorem agree_declareAll {is : List Instruction} (his : ∀ i ∈ is, ∀ n ∈ i.idNames, n ∈ S) :
    Agree SameDeclarationError (RenamedModules f S) (d.declareAll is)
      (e.declareAll (is.map (·.rename f))) := by
  induction is generalizing d e with
  | nil => exact .ok h
  | cons i is ih =>
    rw [List.forall_mem_cons] at his
    exact (agree_declare h hf his.1).bind fun d' e' h => ih h his.2

end Run

section Queries

variable {f : String → String} {S : Set String} {d e : Declarations} (h : RenamedModules f S d e)
include h

theorem decoration_renamed (id : Id) (kind : Decoration) :
    e.decoration id kind = d.decoration id kind := by
  have hos := h.decorations.get? biUnique_eq (Eq.refl (id, kind.name))
  unfold decoration
  generalize d.decorations.get? (id, kind.name) = a at hos ⊢
  generalize e.decorations.get? (id, kind.name) = b at hos ⊢
  cases hos with
  | none => rfl
  | @some os os' hos =>
    rw [hos]
    cases os with
    | nil => rfl
    | cons o os => cases o <;> rfl

theorem isDecorated_renamed (id : Id) (kind : String) :
    e.isDecorated id kind = d.isDecorated id kind := by
  have hos := h.decorations.get? biUnique_eq (Eq.refl (id, kind))
  unfold isDecorated Table.contains
  generalize d.decorations.get? (id, kind) = a at hos ⊢
  generalize e.decorations.get? (id, kind) = b at hos ⊢
  cases hos <;> rfl

theorem hasMemberDecorated_renamed (id : Id) (kind : String) :
    e.hasMemberDecorated id kind = d.hasMemberDecorated id kind := by
  have hkeys : e.memberDecorations.keys = d.memberDecorations.keys := by
    have hes := h.memberDecorations
    unfold LikeEntries at hes
    unfold Table.keys
    symm
    rw [← List.forall₂_eq_eq_eq, List.forall₂_map_left_iff, List.forall₂_map_right_iff]
    exact hes.imp fun _ _ hp => hp.1
  unfold hasMemberDecorated
  rw [hkeys]

theorem name_renamed (id : Id) : e.name id = d.name id := by
  unfold Declarations.name
  rw [h.names]

theorem baseTypeId_renamed (v : Variable) : e.baseTypeId v = d.baseTypeId v := by
  unfold baseTypeId
  rw [h.pointees]

theorem category?_renamed (v : Variable) : e.category? v = d.category? v := by
  have hb : e.isBuiltIn v = d.isBuiltIn v := by
    unfold isBuiltIn
    rw [baseTypeId_renamed h, isDecorated_renamed h, hasMemberDecorated_renamed h]
  have hc (typeId : Id) (t : TypeDescriptor) :
      e.constantCategory? typeId t = d.constantCategory? typeId t := by
    unfold constantCategory?
    rw [h.imageSampled]
  have hc : e.constantCategory? = d.constantCategory? := funext fun x => funext (hc x)
  unfold category?
  rw [baseTypeId_renamed h, isDecorated_renamed h, h.types, hb, hc]

theorem resources_renamed (c : Category) : e.resources c = d.resources c := by
  have hresource (v : Variable) : e.resource c v = d.resource c v := by
    unfold resource bufferName
    rw [baseTypeId_renamed h, name_renamed h, name_renamed h]
  unfold resources
  rw [h.globals]
  simp only [category?_renamed h, funext hresource]

theorem slotTable_renamed : e.slotTable = d.slotTable := by
  have hkey (id : Id) : e.slotKey id = d.slotKey id := by
    unfold slotKey
    rw [decoration_renamed h, decoration_renamed h, h.globals]
  have hclaimants : e.claimants = d.claimants := by
    unfold claimants
    simp only [resources_renamed h]
  unfold slotTable
  simp only [hclaimants, hkey]

/-- Reflection asks the same and is told the same. -/
theorem shader_renamed : e.shader = d.shader := by
  have hmember (id : Id) (index : Int) : e.memberName? id index = d.memberName? id index := by
    unfold memberName?
    rw [h.memberNames]
  have hstructs : e.structIds = d.structIds := by
    unfold structIds
    rw [h.types]
  unfold shader
  dsimp only
  rw [h.entryPoints, funext (resources_renamed h), h.types, funext (name_renamed h),
    funext fun id => funext (decoration_renamed h id), slotTable_renamed h,
    funext fun id => funext (hmember id), hstructs]

end Queries

end Declarations
end ShaderReflection.Module
