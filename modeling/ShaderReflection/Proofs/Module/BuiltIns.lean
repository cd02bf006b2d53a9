import ShaderReflection.Proofs.Module.Annotations
import ShaderReflection.Proofs.Module.Pointers
import ShaderReflection.Proofs.Module.Variables

/-! Built-ins among the inputs and outputs of a stage. A variable is left out if it is a built-in
itself, whatever its type, or if the type that it points to has a member that is one. Decorations of
members belong to the struct; an array of the struct has an id of its own, and none of them. -/
namespace ShaderReflection.Module

open Assembly (Instruction)

def builtIn : String := "BuiltIn"

def Decorates (is : List Instruction) (name kind : String) : Prop :=
  ∃ i ∈ moduleScope false is, noteKey? i = some (.decoration name kind)

def DecoratesMember (is : List Instruction) (name kind : String) : Prop :=
  ∃ i ∈ moduleScope false is, ∃ index, noteKey? i = some (.memberDecoration name index kind)

def DeclaresPointer (is : List Instruction) (name pointee : String) : Prop :=
  ∃ i ∈ moduleScope false is, isPointerDeclaration i = true ∧ i.result = some name ∧
    i.idAt 1 = .ok pointee

/-- What a type points to. One that is not declared as a pointer stands for itself. -/
inductive PointsTo (is : List Instruction) (name : String) : String → Prop where
  | pointer {pointee : String} (h : DeclaresPointer is name pointee) : PointsTo is name pointee
  | plain (h : ∀ pointee, ¬DeclaresPointer is name pointee) : PointsTo is name name

theorem exists_pointsTo (is : List Instruction) (name : String) :
    ∃ pointee, PointsTo is name pointee := by
  by_cases h : ∃ pointee, DeclaresPointer is name pointee
  · obtain ⟨pointee, h⟩ := h
    exact ⟨pointee, .pointer h⟩
  · exact ⟨name, .plain (not_exists.mp h)⟩

def VariablePointsTo (is : List Instruction) (i : Instruction) (pointee : String) : Prop :=
  ∃ typeName, i.idAt 0 = .ok typeName ∧ PointsTo is typeName pointee

structure StageVariable (is : List Instruction) (i : Instruction) (name pointee : String) :
    Prop where
  mem : i ∈ variablesOf is
  result : i.result = some name
  storage : i.textAt 1 = .ok "Input" ∨ i.textAt 1 = .ok "Output"
  type : VariablePointsTo is i pointee

private theorem Notes.isSome_get?_addAll (t : Notes) (k : NoteKey) (is : List Instruction) :
    ((t.addAll is).get? k).isSome = true ↔
      (t.get? k).isSome = true ∨ ∃ i ∈ is, noteKey? i = some k := by
  induction is generalizing t with
  | nil => simp [Notes.addAll]
  | cons i is ih =>
    cases hm : note? i with
    | none =>
      have hi : noteKey? i ≠ some k := by simp [noteKey?, hm]
      have hall : t.addAll (i :: is) = t.addAll is := by
        unfold Notes.addAll
        rw [List.filterMap_cons_none hm]
      rw [hall, ih]
      simp [hi]
    | some m =>
      have hkey : noteKey? i = some m.key := by simp [noteKey?, hm]
      have hall : t.addAll (i :: is) = (t.add m).addAll is := by
        unfold Notes.addAll
        rw [List.filterMap_cons_some hm, List.foldl_cons]
      rw [hall, ih, Notes.get?_add]
      by_cases hk : k = m.key
      · simp [hk, hkey]
      · simp [hk, hkey, Ne.symm hk]

theorem Notes.isSome_get?_of_listing (is : List Instruction) (k : NoteKey) :
    ((Notes.empty.addAll (moduleScope false is)).get? k).isSome = true ↔
      ∃ i ∈ moduleScope false is, noteKey? i = some k := by
  rw [Notes.isSome_get?_addAll]
  cases k <;> simp [Notes.get?, Notes.empty]

namespace Declarations

section Queries

variable {is : List Instruction} {d : Declarations} (h : ofInstructions is = .ok d)
  {name kind : String} {x : Id} (hx : d.idOf? name = some x)
include h hx

theorem isDecorated_iff : d.isDecorated x kind = true ↔ Decorates is name kind := by
  have hkey : NamedKey d (x, kind) (name, kind) := ⟨hx, rfl⟩
  have hget := eq_of_optionRel_eq
    ((noted_declareAll h).decorations.get? (biUnique_namedKey d) hkey)
  have hsome := Notes.isSome_get?_of_listing is (.decoration name kind)
  rw [Notes.get?, Option.isSome_map] at hsome
  unfold isDecorated Table.contains
  rw [hget]
  exact hsome

theorem hasMemberDecorated_iff :
    d.hasMemberDecorated x kind = true ↔ DecoratesMember is name kind := by
  have hmember (index : Int) : ((d.memberDecorations.get? (x, index, kind)).isSome = true) ↔
      ∃ i ∈ moduleScope false is, noteKey? i = some (.memberDecoration name index kind) := by
    have hkey : NamedKey d (x, index, kind) (name, index, kind) := ⟨hx, rfl⟩
    have hget := eq_of_optionRel_eq
      ((noted_declareAll h).memberDecorations.get? (biUnique_namedKey d) hkey)
    have hsome := Notes.isSome_get?_of_listing is (.memberDecoration name index kind)
    rw [Notes.get?, Option.isSome_map] at hsome
    rw [hget]
    exact hsome
  simp only [hasMemberDecorated, List.any_eq_true, Bool.and_eq_true, decide_eq_true_eq,
    ← Table.get?_isSome_iff]
  constructor
  · rintro ⟨⟨y, index, kind'⟩, hsome, rfl, rfl⟩
    obtain ⟨i, hi, hk⟩ := (hmember index).mp hsome
    exact ⟨i, hi, index, hk⟩
  · rintro ⟨i, hi, index, hk⟩
    exact ⟨(x, index, kind), (hmember index).mpr ⟨i, hi, hk⟩, rfl, rfl⟩

end Queries

def InStage (d : Declarations) (name : String) : Prop :=
  ∃ r ∈ d.resources .stageInputs ++ d.resources .stageOutputs, d.idOf? name = some r.id

instance (d : Declarations) (name : String) : Decidable (d.InStage name) :=
  inferInstanceAs (Decidable (∃ r ∈ d.resources .stageInputs ++ d.resources .stageOutputs, _))

section Stage

variable {is : List Instruction} {d : Declarations} (h : ofInstructions is = .ok d)
include h

section Pointees

variable (once : (typeResults (moduleScope false is)).Nodup) {typeName pointee : String}
include once

private theorem get?_pointees_of_declaresPointer {x : Id} (hx : d.idOf? typeName = some x)
    (hp : DeclaresPointer is typeName pointee) :
    ∃ c, d.idOf? pointee = some c ∧ d.pointees.get? x = some c := by
  obtain ⟨p, hp, hopcode, hresult, hpointee⟩ := hp
  obtain ⟨y, c, hpointer, hc⟩ := (pointersTrue h once).kept p hp hopcode
  obtain ⟨_, hy, hyid⟩ := hpointer.id
  obtain rfl := Option.some.inj (hresult.symm.trans hy)
  obtain ⟨_, hcn, hcid⟩ := hpointer.pointee
  obtain rfl := Except.ok.inj (hpointee.symm.trans hcn)
  obtain rfl := Option.some.inj (hx.symm.trans hyid)
  exact ⟨c, hcid, hc⟩

private theorem exists_declaresPointer {x c : Id} (hx : d.idOf? typeName = some x)
    (hc : d.pointees.get? x = some c) : ∃ pointee, DeclaresPointer is typeName pointee := by
  obtain ⟨p, hp, hpointer⟩ := (pointersTrue h once).declared x c hc
  obtain ⟨_, hresult, hyid⟩ := hpointer.id
  obtain ⟨pointee, hpointee, -⟩ := hpointer.pointee
  rw [idOf?_injective hyid hx] at hresult
  exact ⟨pointee, p, hp, hpointer.opcode, hresult, hpointee⟩

/-- The base type of a variable is what its type points to. -/
theorem idOf?_baseTypeId {v : Variable} (hx : d.idOf? typeName = some v.typeId)
    (hp : PointsTo is typeName pointee) : d.idOf? pointee = some (d.baseTypeId v) := by
  unfold baseTypeId
  cases hp with
  | pointer hp =>
    obtain ⟨c, hid, hc⟩ := get?_pointees_of_declaresPointer h once hx hp
    rw [hc]
    exact hid
  | plain hp =>
    cases hc : d.pointees.get? v.typeId with
    | none => exact hx
    | some c =>
      obtain ⟨pointee, hdeclares⟩ := exists_declaresPointer h once hx hc
      exact absurd hdeclares (hp pointee)

theorem exists_variable_pointing {i : Instruction} (hi : i ∈ variablesOf is) {name : String}
    (hn : i.result = some name) (hp : VariablePointsTo is i pointee) :
    ∃ v ∈ d.globals, VariableOf d i v ∧ d.idOf? name = some v.id ∧
      d.idOf? pointee = some (d.baseTypeId v) := by
  obtain ⟨v, hv, hof⟩ := exists_variable_of_mem h hi
  obtain ⟨_, hn', hid⟩ := hof.id
  obtain rfl := Option.some.inj (hn.symm.trans hn')
  obtain ⟨_, htype, hp⟩ := hp
  obtain ⟨_, htype', htid⟩ := hof.typeId
  obtain rfl := Except.ok.inj (htype.symm.trans htype')
  exact ⟨v, hv, hof, hid, idOf?_baseTypeId h once htid hp⟩

end Pointees

/-- In a module, each variable for the input or the output of a stage has a name, and a type that
points to something. -/
theorem exists_stageVariable {i : Instruction} (hi : i ∈ variablesOf is)
    (hs : i.textAt 1 = .ok "Input" ∨ i.textAt 1 = .ok "Output") :
    ∃ name pointee, StageVariable is i name pointee := by
  obtain ⟨v, -, hof⟩ := exists_variable_of_mem h hi
  obtain ⟨name, hn, -⟩ := hof.id
  obtain ⟨typeName, htype, -⟩ := hof.typeId
  obtain ⟨pointee, hp⟩ := exists_pointsTo is typeName
  exact ⟨name, pointee, hi, hn, hs, typeName, htype, hp⟩

theorem inStage_iff (hn : (variableNames is).Nodup) {v : Variable} (hv : v ∈ d.globals)
    {name : String} (hid : d.idOf? name = some v.id)
    (hs : v.storage = .input ∨ v.storage = .output) :
    d.InStage name ↔ d.isBuiltIn v = false := by
  have hcategory : d.category? v = some .stageInputs ∨ d.category? v = some .stageOutputs ↔
      d.isBuiltIn v = false := by
    unfold category?
    rcases hs with hs | hs
    · rw [hs]
      cases d.isBuiltIn v <;> simp
    · rw [hs]
      cases d.isBuiltIn v <;> simp
  have hmem (c : Category) : (∃ r ∈ d.resources c, d.idOf? name = some r.id) ↔
      d.category? v = some c := by
    constructor
    · rintro ⟨r, hr, hname⟩
      obtain ⟨w, hw, hc, rfl⟩ := mem_resources.mp hr
      have hvw : w.id = v.id := Option.some.inj (hname.symm.trans hid)
      rwa [eq_of_id_eq (nodup_globals h hn) hw hv hvw] at hc
    · intro hc
      exact ⟨d.resource c v, mem_resources.mpr ⟨v, hv, hc, rfl⟩, hid⟩
  rw [← hcategory, ← hmem, ← hmem]
  unfold InStage
  simp only [List.mem_append, or_and_right, exists_or]

/-- Which inputs and outputs of a stage are left out as built-ins: those that are decorated so, and
those whose type points to one with a member that is. Where that type is an array, only decorations of
members of the array itself count, not those of its elements. -/
theorem stageVariable_inStage_iff (once : (typeResults (moduleScope false is)).Nodup)
    (hn : (variableNames is).Nodup) {i : Instruction} {name pointee : String}
    (hi : StageVariable is i name pointee) :
    d.InStage name ↔ ¬Decorates is name builtIn ∧ ¬DecoratesMember is pointee builtIn := by
  obtain ⟨v, hv, hof, hid, hbase⟩ := exists_variable_pointing h once hi.mem hi.result hi.type
  obtain ⟨s, hs, hstorage⟩ := hof.storage
  have hs : v.storage = .input ∨ v.storage = .output := by
    rcases hi.storage with hin | hout
    · obtain rfl := Except.ok.inj (hin.symm.trans hs)
      exact .inl (hstorage.trans (by decide))
    · obtain rfl := Except.ok.inj (hout.symm.trans hs)
      exact .inr (hstorage.trans (by decide))
  have hdecorated : d.isDecorated v.id builtIn = true ↔ Decorates is name builtIn :=
    isDecorated_iff h hid
  have hmember : d.hasMemberDecorated (d.baseTypeId v) builtIn = true ↔
      DecoratesMember is pointee builtIn := hasMemberDecorated_iff h hbase
  rw [inStage_iff h hn hv hid hs, ← hdecorated, ← hmember]
  unfold isBuiltIn builtIn
  rw [Bool.or_eq_false_iff, Bool.not_eq_true, Bool.not_eq_true]

end Stage

/-- A shader that takes the built-ins of several vertices in an array and gives out those of one. -/
def patchListing : List Instruction := [
  ⟨"OpMemberDecorate", [.id "block", .int 0, .word "BuiltIn", .word "Position"], none, 1⟩,
  ⟨"OpTypeFloat", [.int 32], some "float", 2⟩,
  ⟨"OpTypeVector", [.id "float", .int 4], some "vec4", 3⟩,
  ⟨"OpTypeStruct", [.id "vec4"], some "block", 4⟩,
  ⟨"OpTypeInt", [.int 32, .int 0], some "uint", 5⟩,
  ⟨"OpConstant", [.id "uint", .int 3], some "three", 6⟩,
  ⟨"OpTypeArray", [.id "block", .id "three"], some "blocks", 7⟩,
  ⟨"OpTypePointer", [.word "Input", .id "blocks"], some "toBlocks", 8⟩,
  ⟨"OpTypePointer", [.word "Output", .id "block"], some "toBlock", 9⟩,
  ⟨"OpVariable", [.id "toBlocks", .word "Input"], some "corners", 10⟩,
  ⟨"OpVariable", [.id "toBlock", .word "Output"], some "corner", 11⟩]

theorem patchListing_stageVariables :
    StageVariable patchListing patchListing[9] "corners" "blocks" ∧
      StageVariable patchListing patchListing[10] "corner" "block" := by
  constructor
  · exact ⟨by decide +kernel, by decide, .inl (by decide),
      "toBlocks", by decide,
      .pointer ⟨patchListing[7], by decide +kernel, by decide, by decide, by decide⟩⟩
  · exact ⟨by decide +kernel, by decide, .inr (by decide),
      "toBlock", by decide,
      .pointer ⟨patchListing[8], by decide +kernel, by decide, by decide, by decide⟩⟩

/-- The output is left out, and the input is not. -/
theorem patchListing_inStage_iff :
    (typeResults (moduleScope false patchListing)).Nodup ∧ (variableNames patchListing).Nodup ∧
    ∃ d, ofInstructions patchListing = .ok d ∧ d.InStage "corners" ∧ ¬d.InStage "corner" ∧
      (d.InStage "corners" ↔ ¬Decorates patchListing "corners" builtIn ∧
        ¬DecoratesMember patchListing "blocks" builtIn) ∧
      (d.InStage "corner" ↔ ¬Decorates patchListing "corner" builtIn ∧
        ¬DecoratesMember patchListing "block" builtIn) := by
  have once : (typeResults (moduleScope false patchListing)).Nodup := by decide +kernel
  have hn : (variableNames patchListing).Nodup := by decide +kernel
  obtain ⟨d, hd, hin, hout⟩ := exists_ok_of_any (x := ofInstructions patchListing)
    (p := fun d => d.InStage "corners" ∧ ¬d.InStage "corner") (by decide +kernel)
  obtain ⟨hcorners, hcorner⟩ := patchListing_stageVariables
  exact ⟨once, hn, d, hd, hin, hout, stageVariable_inStage_iff hd once hn hcorners,
    stageVariable_inStage_iff hd once hn hcorner⟩

/-- A struct with a member that is a built-in, or an array of such structs, or of such arrays. -/
inductive BuiltInBlock (is : List Instruction) : String → Prop where
  | struct {i : Instruction} {name : String} (hi : i ∈ moduleScope false is)
      (ho : i.opcode = "OpTypeStruct") (hn : i.result = some name)
      (hd : DecoratesMember is name builtIn) : BuiltInBlock is name
  | array {i : Instruction} {name element : String} (hi : i ∈ moduleScope false is)
      (ho : i.opcode = "OpTypeArray" ∨ i.opcode = "OpTypeRuntimeArray") (hn : i.result = some name)
      (he : i.idAt 0 = .ok element) (h : BuiltInBlock is element) : BuiltInBlock is name

/-- An array of built-in blocks is taken for an ordinary input. -/
theorem builtInBlocks_inStage :
    ((moduleScope false patchListing).filterMap (·.result)).Nodup ∧
    StageVariable patchListing patchListing[9] "corners" "blocks" ∧
    BuiltInBlock patchListing "blocks" ∧
    ∃ d, ofInstructions patchListing = .ok d ∧ d.InStage "corners" := by
  have hblock : BuiltInBlock patchListing "block" :=
    .struct (i := patchListing[3]) (by decide +kernel) (by decide) (by decide)
      ⟨patchListing[0], by decide +kernel, 0, by decide +kernel⟩
  have hblocks : BuiltInBlock patchListing "blocks" :=
    .array (i := patchListing[6]) (by decide +kernel) (.inl (by decide)) (by decide) (by decide)
      hblock
  obtain ⟨d, hd, hin⟩ := exists_ok_of_any (x := ofInstructions patchListing)
    (p := fun d => d.InStage "corners") (by decide +kernel)
  exact ⟨by decide +kernel, patchListing_stageVariables.1, hblocks, d, hd, hin⟩

end Declarations
end ShaderReflection.Module
