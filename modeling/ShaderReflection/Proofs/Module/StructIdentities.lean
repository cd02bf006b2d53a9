import ShaderReflection.Proofs.Module.Aliasing

/-! The identities of structs. Arrays of a struct and pointers to it repeat its identity, so without
repetitions the identities in the type table are those of the struct declarations, in order. -/
namespace ShaderReflection.Module

open Assembly (Instruction Operand)

def isStructDeclaration (i : Instruction) : Bool := i.opcode = "OpTypeStruct"

def structsOf (is : List Instruction) : List Instruction :=
  (moduleScope false is).filter isStructDeclaration

namespace Declarations

/-- Whether an instruction makes a vector or a matrix of a type that is known as a struct. -/
def stacksStruct (d : Declarations) (i : Instruction) : Bool :=
  (i.opcode = "OpTypeVector" || i.opcode = "OpTypeMatrix") &&
    match i.idAt 0 with
    | .ok name => ((d.idOf? name).bind d.types.get?).any (·.isStruct)
    | .error _ => false

/-- Whether no instruction of a listing makes a vector or a matrix of structs, as the types are
known where it stands. -/
def stacksNoStructs (d : Declarations) : List Instruction → Bool
  | [] => true
  | i :: is =>
    !d.stacksStruct i &&
      match d.declare i with
      | .ok e => e.stacksNoStructs is
      | .error _ => true

theorem stacksStruct_eq_false {d e : Declarations} {before after : List Instruction}
    {i : Instruction} (hv : d.stacksNoStructs (before ++ i :: after) = true)
    (h : d.declareAll before = .ok e) : e.stacksStruct i = false := by
  induction before generalizing d with
  | nil =>
    obtain rfl : d = e := pure_eq_ok.mp h
    rw [List.nil_append, stacksNoStructs, Bool.and_eq_true, Bool.not_eq_true'] at hv
    exact hv.1
  | cons j before ih =>
    obtain ⟨d₁, hj, h⟩ := bind_eq_ok.mp h
    rw [List.cons_append, stacksNoStructs, hj, Bool.and_eq_true] at hv
    exact ih hv.2 h

structure StructOf (d : Declarations) (i : Instruction) (x : Id) : Prop where
  id : ∃ name, i.result = some name ∧ d.idOf? name = some x
  type : ∃ t, d.types.get? x = some t ∧ t.isStruct = true ∧
    List.Forall₂ (fun n y => d.idOf? n = some y) (idNames i.operands) t.members

theorem StructOf.mono {d e : Declarations} {i : Instruction} {x : Id} (hp : d.ids <+: e.ids)
    (ht : e.types.get? x = d.types.get? x) (h : StructOf d i x) : StructOf e i x where
  id := h.id.imp fun _ ⟨hn, hx⟩ => ⟨hn, idOf?_mono hp hx⟩
  type := by
    obtain ⟨t, hx, hs, hm⟩ := h.type
    exact ⟨t, ht.trans hx, hs, hm.imp fun _ _ hy => idOf?_mono hp hy⟩

/-- Every type has an id that was given out for a name. -/
def Scoped (d : Declarations) : Prop :=
  ∀ x t, d.types.get? x = some t → ∃ name, d.idOf? name = some x

theorem scoped_empty : Scoped empty := fun _ _ h => by cases h

theorem declareAll_snoc {d e f : Declarations} {is : List Instruction} {i : Instruction}
    (h : d.declareAll is = .ok e) (hi : e.declare i = .ok f) :
    d.declareAll (is ++ [i]) = .ok f := by
  unfold declareAll at h ⊢
  rw [List.foldlM_append]
  exact bind_eq_ok.mpr ⟨e, h, bind_eq_ok.mpr ⟨f, hi, rfl⟩⟩

section Step

variable {d e m : Declarations} {before after : List Instruction} {i : Instruction}

theorem Scoped.step (hs : Scoped d) (h : d.declare i = .ok e) : Scoped e := by
  have hids := declare_ids h
  have hold : ∀ x t, d.types.get? x = some t → ∃ name, e.idOf? name = some x := fun x t hx => by
    obtain ⟨name, hn⟩ := hs x t hx
    exact ⟨name, idOf?_mono hids hn⟩
  intro x t hx
  rcases declare_types h with hsame | ⟨_, name, y, u, -, -, hy, -, hset⟩
  · exact hold x t (hsame ▸ hx)
  · by_cases hxy : x = y
    · exact ⟨name, hxy ▸ hy⟩
    · rw [hset, Table.get?_set_of_ne _ hxy] at hx
      exact hold x t hx

private theorem isStruct_ofInt (width : Int) (signed : Bool) (id : Id) :
    TypeDescriptor.isStruct { baseType := .ofInt width signed, width, selfId := id } = false := by
  simp only [TypeDescriptor.isStruct, BaseType.ofInt]
  cases signed <;> split_ifs <;> decide

private theorem isStruct_ofFloat (width : Int) (id : Id) :
    TypeDescriptor.isStruct { baseType := .ofFloat width, width, selfId := id } = false := by
  simp only [TypeDescriptor.isStruct, BaseType.ofFloat]
  split_ifs <;> decide

/-- A type that is made of another one and counts as a struct repeats the identity of a struct. -/
def RepeatsStruct (types : Table Id TypeDescriptor) (t : TypeDescriptor) : Prop :=
  ∃ c u, types.get? c = some u ∧ u.isStruct = true ∧ u.selfId = t.selfId

/-- A type is a struct only as it is declared as one, repeats one, or is made of structs that are
stacked. -/
theorem Described.isStruct {types : Table Id TypeDescriptor} {id : Id} {kind : TypeOpcode}
    {t : TypeDescriptor} (h : Described types id kind t) (ht : t.isStruct = true) :
    kind = .struct ∨ (kind = .vector ∨ kind = .matrix) ∨ RepeatsStruct types t := by
  cases h with
  | plain hb =>
    simp only [List.mem_cons, Prod.mk.injEq, List.not_mem_nil, or_false] at hb
    rcases hb with ⟨-, rfl⟩ | ⟨-, rfl⟩ | ⟨-, rfl⟩ | ⟨-, rfl⟩ | ⟨-, rfl⟩ <;> cases ht
  | bool => cases ht
  | int width signed =>
    rw [isStruct_ofInt] at ht
    cases ht
  | float width =>
    rw [isStruct_ofFloat] at ht
    cases ht
  | struct => exact .inl rfl
  | vector => exact .inr (.inl (.inl rfl))
  | matrix => exact .inr (.inl (.inr rfl))
  | array hc | runtimeArray hc | pointer hc => exact .inr (.inr ⟨_, _, hc, ht, rfl⟩)

private theorem ofName_eq_stacked {name : String} {kind : TypeOpcode}
    (hk : kind = .vector ∨ kind = .matrix) (h : Opcode.ofName name = .type kind) :
    name = "OpTypeVector" ∨ name = "OpTypeMatrix" := by
  have hall : ∀ p ∈ TypeOpcode.named, p.2 = .vector ∨ p.2 = .matrix →
      p.1 = "OpTypeVector" ∨ p.1 = "OpTypeMatrix" := by decide
  rcases ofName_eq_type h with hm | ⟨-, rfl⟩
  · exact hall _ hm hk
  · rcases hk with hk | hk <;> cases hk

/-- Where no structs are stacked, an instruction that declares no struct adds at most a type that
repeats one. -/
theorem declare_other_types (hs : Scoped d) (hi : d.stacksStruct i = false)
    (ho : isStructDeclaration i = false) (h : d.declare i = .ok e) :
    e.types = d.types ∨ ∃ name x t, isTypeDeclaration i = true ∧ i.result = some name ∧
      e.idOf? name = some x ∧ e.types = d.types.set x t ∧
      (t.isStruct = true → RepeatsStruct d.types t) := by
  rcases declare_described h with
    hsame | ⟨kind, name, x, ids, d₁, t, hkind, hn, hx, hp, hdescribe, hids, hset⟩
  · exact .inl hsame
  refine .inr ⟨name, x, t, isTypeDeclaration_of_ofName hkind, hn, hx, hset, fun hstruct => ?_⟩
  obtain ⟨ids', _, _, _, hp', rfl, -, ht⟩ := describe_ok hdescribe
  rcases (ht t rfl).isStruct hstruct with rfl | hk | hrepeats
  · have hopcode := ofName_eq_struct_iff.mp hkind
    simp [isStructDeclaration, hopcode] at ho
  · obtain ⟨operand, c, u, _, _, hoperand, hc, hu, rfl⟩ := describe_stacked_ok hk hdescribe
    -- The operand had its id before, since that id has a type.
    have hknown : d.idOf? operand = some c := by
      obtain ⟨operand', hc'⟩ := hs c u hu
      have hlater := idOf?_mono (e := { d with ids := ids' }) (hp.trans hp') hc'
      rwa [idOf?_injective hlater hc] at hc'
    have hu' : u.isStruct = true := hstruct
    rcases ofName_eq_stacked hk hkind with hopcode | hopcode <;>
      simp [stacksStruct, hopcode, hoperand, hknown, hu, hu'] at hi
  · exact hrepeats

theorem structIds_set {x : Id} (hx : d.types.get? x = none) (t : TypeDescriptor)
    (he : e.types = d.types.set x t) :
    e.structIds = d.structIds ++ if t.isStruct then [t.selfId] else [] := by
  unfold structIds Table.values
  rw [he, Table.entries_set_of_get?_eq_none hx, List.map_append, List.filter_append,
    List.map_append]
  congr 1
  by_cases ht : t.isStruct = true <;> simp [ht]

private theorem mem_structIds {c : Id} {u : TypeDescriptor} (hc : d.types.get? c = some u)
    (hu : u.isStruct = true) : u.selfId ∈ d.structIds := by
  unfold structIds Table.values
  have hmem : (c, u) ∈ d.types.entries := Table.mem_entries_of_get? hc
  exact List.mem_map_of_mem (List.mem_filter.mpr ⟨List.mem_map_of_mem hmem, hu⟩)

/-- Where the search for structs stands: the identities so far, without repetitions, are those of
the structs that were declared, in order. -/
structure StructsListed (m : Declarations) (done : List Instruction) (d : Declarations) : Prop where
  run : empty.declareAll done = .ok d
  named : Scoped d
  settled : ∀ x t, d.types.get? x = some t → m.Settled done x
  listed : List.Forall₂ (StructOf d) (done.filter isStructDeclaration) d.structIds.eraseDups

theorem structsListed_empty (m : Declarations) : m.StructsListed [] empty where
  run := rfl
  named := scoped_empty
  settled := fun _ _ h => by cases h
  listed := .nil

/-- The structs that are listed stay as they are when another type is added. -/
theorem StructsListed.listed_set (hl : m.StructsListed before d) (hp : d.ids <+: e.ids) {x : Id}
    {t : TypeDescriptor} (hx : ¬ m.Settled before x) (he : e.types = d.types.set x t) :
    List.Forall₂ (StructOf e) (before.filter isStructDeclaration) d.structIds.eraseDups := by
  refine hl.listed.imp fun i y hy => hy.mono hp ?_
  obtain ⟨u, hu, -, -⟩ := hy.type
  have hne : y ≠ x := by
    rintro rfl
    exact hx (hl.settled y u hu)
  rw [he, Table.get?_set_of_ne _ hne]

/-- A type that repeats a struct adds no identity. -/
private theorem eraseDups_structIds_of_repeats {x : Id} {t : TypeDescriptor}
    (hx : d.types.get? x = none)
    (he : e.types = d.types.set x t) (ht : t.isStruct = true → RepeatsStruct d.types t) :
    e.structIds.eraseDups = d.structIds.eraseDups := by
  rw [structIds_set hx t he]
  by_cases hstruct : t.isStruct = true
  · obtain ⟨c, u, hc, hu, hself⟩ := ht hstruct
    have hmem : t.selfId ∈ d.structIds := hself ▸ mem_structIds hc hu
    rw [if_pos hstruct, List.eraseDups_append]
    simp [List.removeAll, hmem]
  · rw [if_neg hstruct, List.append_nil]

/-- A new struct adds its own identity at the end. -/
private theorem eraseDups_structIds_of_new {x : Id} {t : TypeDescriptor}
    (hx : d.types.get? x = none)
    (he : e.types = d.types.set x t) (ht : t.isStruct = true) (hself : t.selfId = x)
    (hnew : x ∉ d.structIds) : e.structIds.eraseDups = d.structIds.eraseDups ++ [x] := by
  rw [structIds_set hx t he, if_pos ht, hself, List.eraseDups_append]
  simp [List.removeAll, hnew, List.eraseDups_cons]

theorem StructsListed.not_mem_structIds (hl : m.StructsListed before d) {x : Id}
    (hx : ¬ m.Settled before x) : x ∉ d.structIds := by
  intro hmem
  obtain ⟨i, -, hi⟩ := exists_of_mem_related hl.listed.flip (List.mem_eraseDups.mpr hmem)
  obtain ⟨t, ht, -, -⟩ := hi.type
  exact hx (hl.settled x t ht)

/-- A struct declaration adds its struct at the end. -/
theorem StructsListed.step_struct (once : (typeResults (before ++ i :: after)).Nodup)
    (hs : isStructDeclaration i = true) (h : d.declare i = .ok e) (hm : e.declareAll after = .ok m)
    (hl : m.StructsListed before d) : m.StructsListed (before ++ [i]) e := by
  have hrun : empty.declareAll (before ++ [i]) = .ok e := declareAll_snoc hl.run h
  have ho : i.opcode = "OpTypeStruct" := of_decide_eq_true hs
  have htype := isTypeDeclaration_of_ofName (ofName_eq_struct_iff.mpr ho)
  obtain ⟨ids, name, x, members, d₁, t, hp, hn, hx, hmembers, hdescribed, he⟩ :=
    declare_struct_ok ho h
  obtain ⟨roots, aliasOf, rfl, rfl⟩ := hdescribed.frame
  have htypes : e.types =
      d.types.set x { baseType := .struct, selfId := x, members, aliasOf } := by rw [he]
  have hids : ids = e.ids := by rw [he]
  have hxe : e.idOf? name = some x := by rw [he]; exact hx
  have hxm := idOf?_mono (ids_declareAll hm) hxe
  have hnew := not_settled_of_once once htype hn hxm
  have hnone := types_get?_eq_none hl.settled hnew
  have hstruct : StructOf e i x := by
    refine ⟨⟨name, hn, hxe⟩, _, by rw [htypes, Table.get?_set_self], rfl, ?_⟩
    rw [he]
    exact hmembers
  refine ⟨hrun, hl.named.step h, fun _ _ hy => settled_step hl.settled once h hm hy, ?_⟩
  rw [List.filter_append, List.filter_cons_of_pos hs, List.filter_nil,
    eraseDups_structIds_of_new hnone htypes rfl rfl (hl.not_mem_structIds hnew)]
  exact List.rel_append (hl.listed_set (declare_ids h) hnew htypes) (.cons hstruct .nil)

/-- Another instruction adds no struct, unless it stacks structs. -/
theorem StructsListed.step_other (once : (typeResults (before ++ i :: after)).Nodup)
    (hi : d.stacksStruct i = false) (hs : isStructDeclaration i = false) (h : d.declare i = .ok e)
    (hm : e.declareAll after = .ok m) (hl : m.StructsListed before d) :
    m.StructsListed (before ++ [i]) e := by
  have hids := declare_ids h
  have hrun : empty.declareAll (before ++ [i]) = .ok e := declareAll_snoc hl.run h
  have hfilter : (before ++ [i]).filter isStructDeclaration =
      before.filter isStructDeclaration := by simp [hs]
  rcases declare_other_types hl.named hi hs h with
    hsame | ⟨name, x, t, htype, hn, hx, htypes, ht⟩
  · refine ⟨hrun, hl.named.step h, fun _ _ hy => settled_step hl.settled once h hm hy, ?_⟩
    have hlisted : e.structIds = d.structIds := by unfold structIds; rw [hsame]
    rw [hfilter, hlisted]
    exact hl.listed.imp fun _ y hy => hy.mono hids (by rw [hsame])
  · have hxm := idOf?_mono (ids_declareAll hm) hx
    have hnew := not_settled_of_once once htype hn hxm
    have hnone := types_get?_eq_none hl.settled hnew
    refine ⟨hrun, hl.named.step h, fun _ _ hy => settled_step hl.settled once h hm hy, ?_⟩
    rw [hfilter, eraseDups_structIds_of_repeats hnone htypes ht]
    exact hl.listed_set hids hnew htypes

theorem StructsListed.step (once : (typeResults (before ++ i :: after)).Nodup)
    (hi : d.stacksStruct i = false) (h : d.declare i = .ok e) (hm : e.declareAll after = .ok m)
    (hl : m.StructsListed before d) : m.StructsListed (before ++ [i]) e := by
  cases hs : isStructDeclaration i with
  | true => exact hl.step_struct once hs h hm
  | false => exact hl.step_other once hi hs h hm

end Step

/-- Where every type is declared once and no structs are stacked, the identities of structs, without
repetitions, are those of the struct declarations, in order. -/
theorem structs_ofInstructions {is : List Instruction} {d : Declarations}
    (once : (typeResults (moduleScope false is)).Nodup)
    (hv : empty.stacksNoStructs (moduleScope false is) = true) (h : ofInstructions is = .ok d) :
    List.Forall₂ (StructOf d) (structsOf is) d.structIds.eraseDups := by
  have hlisted : d.StructsListed (moduleScope false is) d := by
    refine declareAll_induction [] h (structsListed_empty d) ?_
    intro before i after d₁ d₂ he hl h₁ h₂
    rw [List.nil_append] at he
    rw [he] at once hv
    exact hl.step once (stacksStruct_eq_false hv hl.run) h₁ h₂
  exact hlisted.listed

end Declarations
end ShaderReflection.Module
