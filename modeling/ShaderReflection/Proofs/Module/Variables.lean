import ShaderReflection.Proofs.Module.Allocation
import ShaderReflection.Proofs.Module.TypeTable

/-! The variables of a listing. The globals of a module are the variables that its listing declares,
in order, so that the place of a variable is the place of its declaration. -/
namespace ShaderReflection.Module

open Assembly (Instruction)

def isVariable (i : Instruction) : Bool := i.opcode = "OpVariable"

theorem isVariable_iff {i : Instruction} :
    isVariable i = true ↔ Opcode.ofName i.opcode = .variable := by
  rw [ofName_eq_variable_iff, isVariable, decide_eq_true_eq]

def variablesOf (is : List Instruction) : List Instruction := (moduleScope false is).filter isVariable

def variableNames (is : List Instruction) : List String := (variablesOf is).filterMap (·.result)

namespace Declarations

structure VariableOf (d : Declarations) (i : Instruction) (v : Variable) : Prop where
  id : ∃ name, i.result = some name ∧ d.idOf? name = some v.id
  typeId : ∃ name, i.idAt 0 = .ok name ∧ d.idOf? name = some v.typeId
  storage : ∃ name, i.textAt 1 = .ok name ∧ v.storage = .ofName name

section Run

variable {d e : Declarations} {i : Instruction} {is : List Instruction}

theorem VariableOf.mono {v : Variable} (hp : d.ids <+: e.ids) (h : VariableOf d i v) :
    VariableOf e i v where
  id := h.id.imp fun _ ⟨hn, hx⟩ => ⟨hn, idOf?_mono hp hx⟩
  typeId := h.typeId.imp fun _ ⟨hn, hx⟩ => ⟨hn, idOf?_mono hp hx⟩
  storage := h.storage

/-- An instruction adds the variable that it declares. -/
theorem declare_globals (h : d.declare i = .ok e) :
    (isVariable i = false ∧ e.globals = d.globals) ∨
      isVariable i = true ∧ ∃ v, VariableOf e i v ∧ e.globals = d.globals ++ [v] := by
  have hd := declare_ok h
  have ho := isVariable_iff (i := i)
  generalize Opcode.ofName i.opcode = o at hd ho
  have hother (hne : o ≠ .variable) : isVariable i = false := Bool.eq_false_iff.mpr (mt ho.mp hne)
  cases hd with
  | @global ids _ _ _ _ _ hp hr hid ht htid hs =>
    have hids : ids <+: ids := List.prefix_refl ids
    exact .inr ⟨ho.mpr rfl, _, ⟨⟨_, hr, idOf?_mono hids hid⟩, ⟨_, ht, idOf?_mono hids htid⟩,
      _, hs, rfl⟩, rfl⟩
  | type ht =>
    obtain ⟨_, _, _, _, _, -, rfl, -⟩ := declareType_frame ht
    exact .inl ⟨hother (by simp), rfl⟩
  | _ => exact .inl ⟨hother (by simp), rfl⟩

/-- The globals of a module are the variables that its listing declares. -/
theorem globals_ofInstructions (h : ofInstructions is = .ok d) :
    List.Forall₂ (VariableOf d) (variablesOf is) d.globals := by
  have hrun : List.Forall₂ (VariableOf d) ((moduleScope false is).filter isVariable) d.globals := by
    refine declareAll_induction
      (P := fun done s => List.Forall₂ (VariableOf s) (done.filter isVariable) s.globals)
      [] h .nil fun before i after s s' _ hp hs _ => ?_
    have hp : List.Forall₂ (VariableOf s') (before.filter isVariable) s.globals :=
      hp.imp fun _ _ hv => hv.mono (declare_ids hs)
    rcases declare_globals hs with ⟨hi, hg⟩ | ⟨hi, v, hv, hg⟩
    · rw [hg, List.filter_append, List.filter_cons_of_neg (by simp [hi]), List.filter_nil,
        List.append_nil]
      exact hp
    · rw [hg, List.filter_append, List.filter_cons_of_pos hi, List.filter_nil]
      exact List.rel_append hp (.cons hv .nil)
  exact hrun

theorem exists_variable_of_mem (h : ofInstructions is = .ok d) (hi : i ∈ variablesOf is) :
    ∃ v ∈ d.globals, VariableOf d i v := exists_of_mem_related (globals_ofInstructions h) hi

def variableIds (d : Declarations) (is : List Instruction) : List Id :=
  (variableNames is).filterMap d.idOf?

theorem variableIds_eq (h : ofInstructions is = .ok d) :
    d.variableIds is = d.globals.map (·.id) := by
  have hg := globals_ofInstructions h
  unfold variableIds variableNames
  generalize variablesOf is = vs at hg
  generalize d.globals = gs at hg
  induction hg with
  | nil => rfl
  | cons hv _ ih =>
    obtain ⟨name, hn, hx⟩ := hv.id
    rw [List.filterMap_cons_some hn, List.filterMap_cons_some hx, List.map_cons, ih]

theorem nodup_globals (h : ofInstructions is = .ok d) (hn : (variableNames is).Nodup) :
    (d.globals.map (·.id)).Nodup := by
  rw [← variableIds_eq h]
  exact hn.filterMap fun _ _ _ hx hx' => idOf?_injective hx hx'

end Run

end Declarations
end ShaderReflection.Module
