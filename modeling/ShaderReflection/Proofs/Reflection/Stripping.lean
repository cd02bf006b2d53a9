import ShaderReflection.Proofs.Reflection.AlikeDocuments
import ShaderReflection.Proofs.Reflection.AlikeModules

/-! Listings without their names. Names decide how resources, structs and members are called and
which structs are left out as reserved, and nothing else. -/
namespace ShaderReflection.Module

open Assembly (Instruction)

def isName (i : Instruction) : Bool := i.opcode = "OpName" || i.opcode = "OpMemberName"

theorem isName_iff {i : Instruction} :
    isName i = true ↔ Opcode.ofName i.opcode = .name ∨ Opcode.ofName i.opcode = .memberName := by
  rw [ofName_eq_name_iff, ofName_eq_memberName_iff, isName, Bool.or_eq_true, decide_eq_true_eq,
    decide_eq_true_eq]

def stripNames (is : List Instruction) : List Instruction := is.filter (!isName ·)

def reservesName (i : Instruction) : Bool :=
  i.opcode = "OpName" &&
    match i.textAt 1 with
    | .ok text => isReserved text
    | .error _ => false

theorem mem_of_mem_moduleScope {inFunction : Bool} {is : List Instruction} {i : Instruction}
    (h : i ∈ moduleScope inFunction is) : i ∈ is := by
  induction is generalizing inFunction with
  | nil => exact h
  | cons j is ih =>
    unfold moduleScope at h
    split at h
    · exact List.mem_cons_of_mem _ (ih h)
    · split at h
      · exact List.mem_cons_of_mem _ (ih h)
      · split at h
        · exact List.mem_cons_of_mem _ (ih h)
        · rcases List.mem_cons.mp h with rfl | h
          · exact List.mem_cons_self
          · exact List.mem_cons_of_mem _ (ih h)

theorem moduleScope_stripNames (inFunction : Bool) (is : List Instruction) :
    moduleScope inFunction (stripNames is) = (moduleScope inFunction is).filter (!isName ·) := by
  unfold stripNames
  induction is generalizing inFunction with
  | nil => rfl
  | cons i is ih =>
    by_cases hi : isName i = true
    · have hopcode : i.opcode = "OpName" ∨ i.opcode = "OpMemberName" := by simpa [isName] using hi
      have hf : i.opcode ≠ "OpFunction" := by rcases hopcode with h | h <;> rw [h] <;> decide
      have he : i.opcode ≠ "OpFunctionEnd" := by rcases hopcode with h | h <;> rw [h] <;> decide
      rw [List.filter_cons_of_neg (by simpa using hi), ih, moduleScope, if_neg hf, if_neg he]
      cases inFunction with
      | true => rfl
      | false =>
        rw [if_neg Bool.false_ne_true, List.filter_cons_of_neg (by simpa using hi)]
    · rw [List.filter_cons_of_pos (by simpa using hi), moduleScope, moduleScope]
      split
      · exact ih true
      · split
        · exact ih false
        · split
          · exact ih true
          · rw [List.filter_cons_of_pos (by simpa using hi), ih]

theorem variablesOf_stripNames (is : List Instruction) :
    variablesOf (stripNames is) = variablesOf is := by
  unfold variablesOf
  rw [moduleScope_stripNames, List.filter_filter]
  refine List.filter_congr fun i _ => ?_
  cases hv : isVariable i with
  | false => rfl
  | true =>
    have ho := isVariable_iff.mp hv
    have hn : isName i = false := Bool.eq_false_iff.mpr (mt isName_iff.mp (by rw [ho]; simp))
    rw [hn]
    rfl

namespace Declarations

/-- A listing is aligned with what is left of it without its names. -/
theorem aligned_stripped {is : List Instruction}
    (hv : ∀ i ∈ is, isVariable i = true → HasVariable i) :
    Aligned False is (is.filter (!isName ·)) := by
  induction is with
  | nil => exact .nil
  | cons i is ih =>
    have ih := ih fun j hj => hv j (List.mem_cons_of_mem _ hj)
    by_cases hn : isName i = true
    · rw [List.filter_cons_of_neg (by simpa using hn)]
      exact .left i (.inr ⟨not_false, isName_iff.mp hn⟩) ih
    · rw [List.filter_cons_of_pos (by simpa using hn)]
      by_cases hi : isVariable i = true
      · exact .right i (isVariable_iff.mp hi) (hv i List.mem_cons_self hi)
          (.left i (.inl (isVariable_iff.mp hi)) ih)
      · exact .both i i.line (mt isVariable_iff.mpr hi) (mt isName_iff.mpr hn) ih

section Stripped

variable {is : List Instruction} {d : Declarations} (h : ofInstructions is = .ok d)
include h

/-- A listing makes a module without its names, too: one that says the same about the same ids. -/
theorem exists_alikeModules_stripNames :
    ∃ e, ofInstructions (stripNames is) = .ok e ∧ AlikeModules False d e := by
  have hv : ∀ i ∈ moduleScope false is, isVariable i = true → HasVariable i := fun i hi hv => by
    obtain ⟨v, -, hv⟩ := exists_variable_of_mem h (List.mem_filter.mpr ⟨hi, hv⟩)
    exact hv.hasVariable
  obtain ⟨e, he, halike⟩ := (aligned_stripped hv).declareAll (alike_empty False) h
  rw [← moduleScope_stripNames] at he
  have hg := globals_ofInstructions (d := e) he
  rw [variablesOf_stripNames] at hg
  refine ⟨e, he, halike, trans_of_related (S := VariableOf e) (fun v i w hv hw => ?_)
    (globals_ofInstructions h).flip hg⟩
  exact sameVariable_of_variableOf hv hw

theorem isReserved_name_eq_false (hr : ∀ i ∈ is, reservesName i = false) (x : Id) :
    isReserved (d.name x) = false := by
  have hrun : ∀ x text, d.names.get? x = some text → isReserved text = false := by
    refine declareAll_induction
      (P := fun _ s => ∀ x text, s.names.get? x = some text → isReserved text = false) []
      h (fun x text hx => by cases hx) fun before i after s s' he hs hstep _ => ?_
    have hi : reservesName i = false :=
      hr i (mem_of_mem_moduleScope (he ▸ List.mem_append_right _ List.mem_cons_self))
    have ho : Opcode.ofName i.opcode = .name ↔ i.opcode = "OpName" := ofName_eq_name_iff
    have hd := declare_ok hstep
    generalize Opcode.ofName i.opcode = o at hd ho
    cases hd with
    | @name ids _ text id _ _ _ ht =>
      intro x text' hx
      rw [Table.get?_set] at hx
      split at hx
      · obtain rfl := Option.some.inj hx
        simpa [reservesName, ho.mp rfl, ht] using hi
      · exact hs x text' hx
    | type ht =>
      obtain ⟨_, _, _, _, _, -, rfl, -⟩ := declareType_frame ht
      exact hs
    | _ => exact hs
  unfold Declarations.name
  cases hx : d.names.get? x with
  | none => decide
  | some text => exact hrun x text hx

end Stripped

/-- Without its names a listing still makes a module, and its document is the same without names,
or missing for the same reason. Only the namer can tell the two apart: a run is broken off where a
number that it hands out cannot be written. -/
theorem stripNames_keeps_interface {is : List Instruction} {d : Declarations}
    (h : ofInstructions is = .ok d) (hr : ∀ i ∈ is, reservesName i = false) :
    ∃ e, ofInstructions (stripNames is) = .ok e ∧ ∀ (o : ReflectionOptions) (n m : Namer),
      SameAnswer SameDocument (d.shader.reflect o n).1 (e.shader.reflect o m).1 ∨
        BrokenOff n (d.shader.reflect o n) ∨ BrokenOff m (e.shader.reflect o m) := by
  obtain ⟨e, he, halike⟩ := exists_alikeModules_stripNames h
  refine ⟨e, he, fun o n m => ?_⟩
  have hreserved : ∀ x y, SameId d.ids e.ids x y →
      isReserved (d.name x) = isReserved (e.name y) := fun x y _ => by
    have hname : e.name y = "" := by
      unfold Declarations.name
      rw [halike.alike.noNames not_false]
      rfl
    rw [isReserved_name_eq_false h hr x, hname]
    decide
  exact (Shader.reflect_alike (shader_alike halike hreserved) o n m).2.2

/-- A vertex shader with a uniform block, an input, and a struct that repeats the block. -/
def sceneListing : List Instruction := [
  ⟨"OpEntryPoint", [.word "Vertex", .id "main", .string "main"], none, 1⟩,
  ⟨"OpName", [.id "position", .string "position"], none, 2⟩,
  ⟨"OpName", [.id "lamp", .string "Light"], none, 3⟩,
  ⟨"OpName", [.id "lantern", .string "Light"], none, 4⟩,
  ⟨"OpMemberName", [.id "lamp", .int 0, .string "intensity"], none, 5⟩,
  ⟨"OpDecorate", [.id "lamp", .word "Block"], none, 6⟩,
  ⟨"OpDecorate", [.id "position", .word "Location", .int 0], none, 7⟩,
  ⟨"OpDecorate", [.id "lamps", .word "Binding", .int 2], none, 8⟩,
  ⟨"OpTypeFloat", [.int 32], some "float", 9⟩,
  ⟨"OpTypeVector", [.id "float", .int 3], some "direction", 10⟩,
  ⟨"OpTypeStruct", [.id "float", .id "direction"], some "lamp", 11⟩,
  ⟨"OpTypeStruct", [.id "float", .id "direction"], some "lantern", 12⟩,
  ⟨"OpTypePointer", [.word "Input", .id "direction"], some "toDirection", 13⟩,
  ⟨"OpTypePointer", [.word "Uniform", .id "lamp"], some "toLamp", 14⟩,
  ⟨"OpVariable", [.id "toDirection", .word "Input"], some "position", 15⟩,
  ⟨"OpVariable", [.id "toLamp", .word "Uniform"], some "lamps", 16⟩]

/-- The repeated struct is an alias only as long as it has its name. -/
theorem sceneListing_keeps_interface :
    (∀ i ∈ sceneListing, reservesName i = false) ∧
    ∃ d, ofInstructions sceneListing = .ok d ∧ d.types.values.filterMap (·.aliasOf) = [2] ∧
      ∃ e, ofInstructions (stripNames sceneListing) = .ok e ∧
        ∀ (o : ReflectionOptions) (n m : Namer),
          SameAnswer SameDocument (d.shader.reflect o n).1 (e.shader.reflect o m).1 ∨
            BrokenOff n (d.shader.reflect o n) ∨ BrokenOff m (e.shader.reflect o m) := by
  have hr : ∀ i ∈ sceneListing, reservesName i = false := by decide +kernel
  obtain ⟨d, hd, halias⟩ := exists_ok_of_any (x := ofInstructions sceneListing)
    (p := fun d => d.types.values.filterMap (·.aliasOf) = [2]) (by decide +kernel)
  exact ⟨hr, d, hd, halias, stripNames_keeps_interface hd hr⟩

def namedListing : List Instruction := [
  ⟨"OpEntryPoint", [.word "Fragment", .id "main", .string "main"], none, 1⟩,
  ⟨"OpName", [.id "light", .string "Light"], none, 2⟩,
  ⟨"OpMemberName", [.id "light", .int 0, .string "color"], none, 3⟩,
  ⟨"OpMemberName", [.id "light", .int 1, .string "intensity"], none, 4⟩,
  ⟨"OpTypeFloat", [.int 32], some "float", 5⟩,
  ⟨"OpTypeStruct", [.id "float", .id "float"], some "light", 6⟩]

/-- With few numbers left to a namer, names make the difference: the fields that lose theirs take
numbers, and the last one cannot be written. -/
theorem stripNames_exhausts_namer :
    (∀ i ∈ namedListing, reservesName i = false) ∧
    ∃ d e, ofInstructions namedListing = .ok d ∧ ofInstructions (stripNames namedListing) = .ok e ∧
      ∃ (o : ReflectionOptions) (n : Namer),
        ¬SameAnswer SameDocument (d.shader.reflect o n).1 (e.shader.reflect o n).1 := by
  obtain ⟨d, hd, hok⟩ := exists_ok_of_any (x := ofInstructions namedListing)
    (p := fun d => (d.shader.reflect ⟨"s", "s.h"⟩ ⟨(Nat.pow 10 4300 : Nat) - 1⟩).1.isOk = true)
    (by decide +kernel)
  obtain ⟨e, he, hfail⟩ := exists_ok_of_any (x := ofInstructions (stripNames namedListing))
    (p := fun e => (e.shader.reflect ⟨"s", "s.h"⟩ ⟨(Nat.pow 10 4300 : Nat) - 1⟩).1.isOk = false)
    (by decide +kernel)
  refine ⟨by decide +kernel, d, e, hd, he, ⟨"s", "s.h"⟩, ⟨(Nat.pow 10 4300 : Nat) - 1⟩, fun h => ?_⟩
  rw [h.isOk_eq, hfail] at hok
  cases hok

end Declarations
end ShaderReflection.Module
