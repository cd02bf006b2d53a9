import ShaderReflection.Module.Slots
import ShaderReflection.Proofs.Module.StructIdentities
import ShaderReflection.Proofs.Reflection.Unwritable

/-! The struct definitions of a module: one for each struct declaration, in order, unless the
compiler made the struct or the type of a member is not known. -/
namespace ShaderReflection.Module.Declarations

open Assembly (Instruction Operand)

def typeNamed? (d : Declarations) (name : String) : Option TypeDescriptor :=
  (d.idOf? name).bind d.types.get?

/-- Whether a struct declaration has a definition: the name of the struct is not reserved, and the
types of all members are known. -/
def isReflectable (d : Declarations) (i : Instruction) : Bool :=
  (i.result.bind d.idOf?).any (fun x => !isReserved (d.name x)) &&
    (idNames i.operands).all fun m => (d.typeNamed? m).isSome

structure Reflects (d : Declarations) (i : Instruction) (s : StructDefinition) : Prop where
  run : ∃ x n n', i.result.bind d.idOf? = some x ∧ d.shader.structDefinition x n = (.ok s, n')
  name : ∀ x, i.result.bind d.idOf? = some x → s.name = d.name x

/-- A struct declaration with a member that takes padding of a size that cannot be written. -/
def DeclaresOversized (d : Declarations) (i : Instruction) : Prop :=
  ∃ m ∈ idNames i.operands, ∃ t, d.typeNamed? m = some t ∧ t.Oversized

private theorem map_eq_map_some_iff {f : α → Option β} {xs : List α} :
    (∃ ys : List β, xs.map f = ys.map some) ↔ ∀ x ∈ xs, (f x).isSome = true := by
  constructor
  · rintro ⟨ys, h⟩ x hx
    have hmem : f x ∈ ys.map some := h ▸ List.mem_map_of_mem hx
    obtain ⟨y, -, hy⟩ := List.mem_map.mp hmem
    rw [← hy]
    rfl
  · intro h
    induction xs with
    | nil => exact ⟨[], rfl⟩
    | cons x xs ih =>
      obtain ⟨y, hy⟩ := Option.isSome_iff_exists.mp (h x List.mem_cons_self)
      obtain ⟨ys, hys⟩ := ih fun x hx => h x (List.mem_cons_of_mem _ hx)
      exact ⟨y :: ys, by rw [List.map_cons, List.map_cons, hy, hys]⟩

section Struct

variable {d : Declarations} {i : Instruction} {x : Id}

theorem StructOf.result_id (h : StructOf d i x) : i.result.bind d.idOf? = some x := by
  obtain ⟨name, hn, hx⟩ := h.id
  rw [hn]
  exact hx

theorem members_known_iff {names : List String} {ids : List Id}
    (h : List.Forall₂ (fun n y => d.idOf? n = some y) names ids) :
    (∀ y ∈ ids, (d.types.get? y).isSome = true) ↔
      ∀ n ∈ names, (d.typeNamed? n).isSome = true := by
  induction h with
  | nil => simp
  | @cons n y _ _ hn _ ih =>
    have hhead : d.typeNamed? n = d.types.get? y := by rw [typeNamed?, hn, Option.bind_some]
    rw [List.forall_mem_cons, List.forall_mem_cons, ih, hhead]

/-- The structs that reflection defines are those whose declarations are reflectable. -/
theorem StructOf.definable_iff (h : StructOf d i x) :
    (∃ t ts, d.shader.Definable x t ts) ↔ d.isReflectable i = true := by
  obtain ⟨t, ht, hs, hm⟩ := h.type
  have hknown : (∃ ts : List TypeDescriptor, t.members.map d.types.get? = ts.map some) ↔
      ∀ n ∈ idNames i.operands, (d.typeNamed? n).isSome = true :=
    map_eq_map_some_iff.trans (members_known_iff hm)
  unfold isReflectable
  rw [h.result_id, Bool.and_eq_true, List.all_eq_true, ← hknown, Option.any_some,
    Bool.not_eq_true']
  constructor
  · rintro ⟨t', ts, hd⟩
    obtain rfl : t = t' := Option.some.inj (ht.symm.trans hd.type)
    exact ⟨hd.notReserved, ts, hd.members⟩
  · rintro ⟨hr, ts, hts⟩
    exact ⟨t, ts, ht, hs, hr, hts⟩

theorem StructOf.declaresOversized (h : StructOf d i x) (ho : d.shader.OversizedStruct x) :
    d.isReflectable i = true ∧ d.DeclaresOversized i := by
  obtain ⟨t, ts, hd, u, hu, ho⟩ := ho
  obtain ⟨t', ht', -, hm⟩ := h.type
  obtain rfl : t = t' := Option.some.inj (hd.type.symm.trans ht')
  refine ⟨h.definable_iff.mp ⟨t, ts, hd⟩, ?_⟩
  have hmem : some u ∈ t.members.map d.types.get? := hd.members ▸ List.mem_map_of_mem hu
  obtain ⟨y, hy, hyu⟩ := List.mem_map.mp hmem
  obtain ⟨m, hmem, hmy⟩ := exists_of_mem_related hm.flip hy
  exact ⟨m, hmem, u, by rw [typeNamed?, hmy, Option.bind_some, hyu], ho⟩

/-- What becomes of a struct declaration: a definition if it is reflectable, and else nothing. -/
theorem StructOf.outcome (h : StructOf d i x)
    {outcome : Except (Absence StructSkip) StructDefinition}
    (ho : d.shader.Outcome x outcome) :
    Option.Rel d.Reflects (Option.guard d.isReflectable i) outcome.toOption := by
  unfold Option.guard
  obtain ⟨n, n', hrun⟩ := ho.run
  rcases d.shader.structDefinition_cases x n with ⟨t, ts, hd⟩ | ⟨hnone, reason, hskip⟩
  · rw [if_pos (h.definable_iff.mp ⟨t, ts, hd⟩)]
    have heq := hd.structDefinition_eq n
    rw [hrun] at heq
    cases hl : (d.shader.layOut x ts n).1 with
    | none =>
      rw [hl] at heq
      exact absurd (congrArg Prod.fst heq) ho.writable
    | some members =>
      rw [hl] at heq
      obtain rfl := congrArg Prod.fst heq
      refine .some ⟨⟨x, n, n', h.result_id, hrun⟩, fun y hy => ?_⟩
      obtain rfl : x = y := Option.some.inj (h.result_id.symm.trans hy)
      rfl
  · rw [if_neg (fun hr => hnone (h.definable_iff.mpr hr))]
    rw [hrun] at hskip
    obtain rfl := congrArg Prod.fst hskip
    exact .none

end Struct

theorem definitionsOf_eq_filterMap (outcomes : List (Except (Absence ρ) StructDefinition)) :
    definitionsOf outcomes = outcomes.filterMap Except.toOption := by
  unfold definitionsOf
  congr 1
  funext o
  cases o <;> rfl

/-- Each declared struct is reflected once, in order of declaration: the definitions are those of
the struct declarations whose names are not reserved and whose members are all known. Only a number
that cannot be written breaks this off: the size of padding in one of these structs, or a number that
the namer hands out on the way. -/
theorem reflects_every_struct {is : List Instruction} {d : Declarations}
    (once : (typeResults (moduleScope false is)).Nodup)
    (hv : empty.stacksNoStructs (moduleScope false is) = true) (h : ofInstructions is = .ok d)
    (n : Namer) :
    (isBroken (d.shader.allStructOutcomes n).1 = false ∧
      List.Forall₂ d.Reflects ((structsOf is).filter d.isReflectable)
        (definitionsOf (d.shader.allStructOutcomes n).1)) ∨
    (isBroken (d.shader.allStructOutcomes n).1 = true ∧
      ((∃ i ∈ (structsOf is).filter d.isReflectable, d.DeclaresOversized i) ∨
        Overflows n (d.shader.allStructOutcomes n).2)) := by
  have hstructs : List.Forall₂ (StructOf d) (structsOf is) d.shader.structIds.eraseDups :=
    structs_ofInstructions once hv h
  unfold Shader.allStructOutcomes
  cases hb : isBroken (d.shader.structOutcomes n d.shader.structIds.eraseDups).1 with
  | true =>
    refine .inr ⟨rfl, ?_⟩
    rcases Shader.structOutcomes_broken hb with ⟨x, hx, ho⟩ | ho
    · left
      obtain ⟨i, hi, hix⟩ := exists_of_mem_related hstructs.flip hx
      obtain ⟨hr, hdeclares⟩ := StructOf.declaresOversized hix ho
      exact ⟨i, List.mem_filter.mpr ⟨hi, hr⟩, hdeclares⟩
    · exact .inr ho
  | false =>
    refine .inl ⟨rfl, ?_⟩
    have houtcomes := Shader.structOutcomes_related hb
    have hreflected : List.Forall₂ (fun i o =>
        Option.Rel d.Reflects (Option.guard d.isReflectable i) (Except.toOption o)) (structsOf is)
        (d.shader.structOutcomes n d.shader.structIds.eraseDups).1 := by
      refine trans_of_related (fun i x o hi ho => ?_) hstructs houtcomes
      exact StructOf.outcome hi ho
    rw [definitionsOf_eq_filterMap, ← List.filterMap_eq_filter]
    exact List.rel_filterMap (fun i o hio => hio) hreflected

/-- A light, pointers to it and arrays of it, a struct that the compiler made, one with a member
that is never declared, and a scene whose last member is declared behind it. -/
def sceneStructs : List Instruction := [
  ⟨"OpName", [.id "hidden", .string "_RESERVED_IDENTIFIER_FIXUP_hidden"], none, 1⟩,
  ⟨"OpName", [.id "light", .string "Light"], none, 2⟩,
  ⟨"OpTypeFloat", [.int 32], some "float", 3⟩,
  ⟨"OpTypeVector", [.id "float", .int 3], some "direction", 4⟩,
  ⟨"OpTypeStruct", [.id "direction", .id "float"], some "light", 5⟩,
  ⟨"OpTypePointer", [.word "Uniform", .id "light"], some "toLight", 6⟩,
  ⟨"OpTypeRuntimeArray", [.id "toLight"], some "toLights", 7⟩,
  ⟨"OpTypeStruct", [.id "float"], some "hidden", 8⟩,
  ⟨"OpTypeRuntimeArray", [.id "light"], some "lights", 9⟩,
  ⟨"OpTypePointer", [.word "Uniform", .id "lights"], some "arrayOfLights", 10⟩,
  ⟨"OpTypeStruct", [.id "missing"], some "open", 11⟩,
  ⟨"OpTypeStruct", [.id "lights", .id "switch"], some "scene", 12⟩,
  ⟨"OpTypeBool", [], some "switch", 13⟩]

def sceneDefinitions : List StructDefinition := [
  { name := "Light", byteLength := 16
    members := [⟨"unnamed_0", "Vector3", 0, 12⟩, ⟨"unnamed_1", "Scalar", 12, 4⟩] },
  { name := "", byteLength := 4
    members := [⟨"unnamed_2", "Padding<0>", 0, 0⟩, ⟨"unnamed_3", "bool", 0, 1⟩,
      ⟨"unnamed_4_pad", "Padding<3>", 1, 3⟩] }]

theorem sceneStructs_reflected :
    (typeResults (moduleScope false sceneStructs)).Nodup ∧
    empty.stacksNoStructs (moduleScope false sceneStructs) = true ∧
    ∃ d, ofInstructions sceneStructs = .ok d ∧
      d.structIds = [2, 2, 2, 1, 2, 2, 9, 11] ∧
      ((structsOf sceneStructs).filter d.isReflectable).map (·.line) = [5, 12] ∧
      definitionsOf (d.shader.allStructOutcomes ⟨0⟩).1 = sceneDefinitions ∧
      List.Forall₂ d.Reflects ((structsOf sceneStructs).filter d.isReflectable)
        sceneDefinitions := by
  have once : (typeResults (moduleScope false sceneStructs)).Nodup := by decide +kernel
  have hv : empty.stacksNoStructs (moduleScope false sceneStructs) = true := by decide +kernel
  obtain ⟨d, hd, ⟨hids, hlines⟩, hb, hs⟩ := exists_ok_of_any
    (x := ofInstructions sceneStructs)
    (p := fun d => (d.structIds = [2, 2, 2, 1, 2, 2, 9, 11] ∧
      ((structsOf sceneStructs).filter d.isReflectable).map (·.line) = [5, 12]) ∧
      isBroken (d.shader.allStructOutcomes ⟨0⟩).1 = false ∧
      definitionsOf (d.shader.allStructOutcomes ⟨0⟩).1 = sceneDefinitions) (by decide +kernel)
  refine ⟨once, hv, d, hd, hids, hlines, hs, ?_⟩
  rcases reflects_every_struct once hv hd ⟨0⟩ with ⟨-, h⟩ | ⟨hbroken, -⟩
  · rwa [hs] at h
  · rw [hb] at hbroken
    cases hbroken

/-- A struct with an integer of so many bits that the bytes of its padding cannot be written. -/
def wideStruct : List Instruction := [
  ⟨"OpTypeInt", [.int (Int.pow 10 4301), .int 0], some "wide", 1⟩,
  ⟨"OpTypeStruct", [.id "wide"], some "holder", 2⟩]

/-- The one struct of the listing is not reflected, though it is reflectable. -/
theorem wideStruct_not_reflected :
    (typeResults (moduleScope false wideStruct)).Nodup ∧
    empty.stacksNoStructs (moduleScope false wideStruct) = true ∧
    ∃ d, ofInstructions wideStruct = .ok d ∧
      (d.shader.allStructOutcomes ⟨0⟩).1 = [.error .unwritable] ∧
      ¬ List.Forall₂ d.Reflects ((structsOf wideStruct).filter d.isReflectable)
        (definitionsOf (d.shader.allStructOutcomes ⟨0⟩).1) := by
  obtain ⟨d, hd, ho, hlen⟩ := exists_ok_of_any (x := ofInstructions wideStruct)
    (p := fun d => (d.shader.allStructOutcomes ⟨0⟩).1 = [.error .unwritable] ∧
      ((structsOf wideStruct).filter d.isReflectable).length = 1) (by decide +kernel)
  refine ⟨by decide +kernel, by decide +kernel, d, hd, ho, fun h => ?_⟩
  have hsame := h.length_eq
  rw [hlen, ho] at hsame
  cases hsame

end Declarations
end ShaderReflection.Module
