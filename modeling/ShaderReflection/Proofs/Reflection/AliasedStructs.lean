import ShaderReflection.Proofs.Layout.SameLayout
import ShaderReflection.Proofs.Module.AliasChains
import ShaderReflection.Proofs.Reflection.Unwritable

/-! Structs that are aliases. Where names come first, an alias and the struct that it repeats have
one name, members of the same layouts, and the same declared member names, so that they have one
definition on the host. -/
namespace ShaderReflection

namespace Module

variable {types : Table Id TypeDescriptor} {n : Nat} {a b : TypeDescriptor}

theorem sameLayout_of_sameShape (h : sameShape a b = true) : SameLayout a b := by
  simp only [sameShape, Bool.and_eq_true, decide_eq_true_eq] at h
  obtain ⟨⟨⟨⟨⟨hbase, hwidth⟩, hvecsize⟩, hcolumns⟩, harray⟩, -⟩ := h
  exact ⟨hbase, hwidth, hvecsize, hcolumns, harray⟩

/-- Types that were found equivalent agree on everything that a layout reads. -/
theorem sameLayout_of_equivalentTo? (h : equivalentTo? types n a b = some true) :
    SameLayout a b := by
  cases n with
  | zero => cases h
  | succ n => exact sameLayout_of_sameShape (equivalentTo?_succ_eq_true_iff.mp h).1

/-- Members that were found equivalent in pairs are known, and have the same layouts. -/
theorem exists_sameLayouts {xs ys : List Id}
    (h : List.Forall₂ (fun x y => membersTo? types n (x, y) = some true) xs ys) :
    ∃ ts us, xs.map types.get? = ts.map some ∧ ys.map types.get? = us.map some ∧
      List.Forall₂ SameLayout ts us := by
  induction h with
  | nil => exact ⟨[], [], rfl, rfl, .nil⟩
  | @cons x y xs ys hxy _ ih =>
    obtain ⟨t, u, ht, hu, htu⟩ := membersTo?_eq_true_iff.mp hxy
    obtain ⟨ts, us, hts, hus, hsame⟩ := ih
    refine ⟨t :: ts, u :: us, ?_, ?_, .cons (sameLayout_of_equivalentTo? htu) hsame⟩
    · rw [List.map_cons, List.map_cons, ht, hts]
    · rw [List.map_cons, List.map_cons, hu, hus]

end Module

namespace Shader

/-- Two structs of one name, whose members have the same layouts in pairs and the same declared
names. -/
structure Mirrors (s : Shader) (x y : Id) : Prop where
  name : s.name x = s.name y
  declaredName? : s.declaredName? x = s.declaredName? y
  types : ∃ t u, s.type? x = some t ∧ s.type? y = some u ∧ t.isStruct = u.isStruct ∧
    ∃ ts us, t.members.map s.type? = ts.map some ∧ u.members.map s.type? = us.map some ∧
      List.Forall₂ SameLayout ts us

/-- Structs that mirror each other have the same definition, or lack it for the same reason, and
take the same numbers. -/
theorem Mirrors.structDefinition_eq {s : Shader} {x y : Id} (h : s.Mirrors x y) (n : Namer) :
    s.structDefinition x n = s.structDefinition y n := by
  obtain ⟨t, u, ht, hu, hstruct, ts, us, hts, hus, hsame⟩ := h.types
  unfold structDefinition
  rw [ht, hu, Option.filter_some, Option.filter_some, hstruct]
  cases u.isStruct with
  | false => rfl
  | true =>
    simp only [if_pos]
    rw [h.name, resolveAll_eq_iff.mpr hts, resolveAll_eq_iff.mpr hus]
    dsimp only
    rw [layOut_congr h.declaredName? hsame, map_naturalSize_of_sameLayout hsame]

end Shader

namespace Module.Declarations

open Assembly (Instruction)

variable {is : List Instruction} {d : Declarations}

/-- In a listing that declares every type once, a name is the result of one type declaration. -/
private theorem eq_of_result_eq (once : (typeResults is).Nodup) {i j : Instruction} (hi : i ∈ is)
    (hj : j ∈ is) (hti : isTypeDeclaration i = true) (htj : isTypeDeclaration j = true)
    {name : String} (hni : i.result = some name) (hnj : j.result = some name) : i = j := by
  by_contra hne
  unfold typeResults List.Nodup at once
  rw [List.pairwise_filterMap] at once
  have hsymm : Std.Symm fun i j : Instruction =>
      ∀ b, i.result = some b → ∀ b', j.result = some b' → b ≠ b' :=
    ⟨fun _ _ h b hb b' hb' => (h b' hb' b hb).symm⟩
  have hapart := once.forall (List.mem_filter.mpr ⟨hi, hti⟩) (List.mem_filter.mpr ⟨hj, htj⟩) hne
  exact hapart name hni name hnj rfl

private theorem opcode_of_copiedOperand? {i : Instruction} {operand : String}
    (h : copiedOperand? i = some operand) :
    isTypeDeclaration i = true ∧ i.opcode ≠ "OpTypeStruct" := by
  unfold copiedOperand? at h
  split at h
  case h_6 => cases h
  all_goals
    rename_i ho
    refine ⟨isTypeDeclaration_of_ofName ho, fun hs => ?_⟩
    rw [ofName_eq_struct_iff.mpr hs] at ho
    cases ho

/-- A declared struct is made of no other one. -/
theorem CopiedFrom.eq_of_declared (once : (typeResults is).Nodup) {x s : Id}
    (h : d.CopiedFrom is x s) (hx : x ∈ d.declaredStructs is) : s = x := by
  cases h with
  | struct => rfl
  | @layer i name operand _ c _ hi hn hid ho _ _ =>
    obtain ⟨hti, hother⟩ := opcode_of_copiedOperand? ho
    obtain ⟨j, hj, hxj⟩ := List.mem_filterMap.mp hx
    obtain ⟨hj, hstruct⟩ := List.mem_filter.mp hj
    obtain ⟨name', hn', hid'⟩ := Option.bind_eq_some_iff.mp hxj
    have hopcode := of_decide_eq_true hstruct
    have htj := isTypeDeclaration_of_ofName (ofName_eq_struct_iff.mpr hopcode)
    have hname : name' = name := idOf?_injective hid' hid
    have hsame : i = j := eq_of_result_eq once hi hj hti htj hn (hname ▸ hn')
    exact absurd (hsame ▸ hopcode) hother

/-- An alias has the name of the struct that it repeats, if no name comes behind a type. The two
were compared when the alias was declared, and have kept their names. -/
theorem AliasedTo.name_eq (h : ofInstructions is = .ok d)
    (once : (typeResults (moduleScope false is)).Nodup)
    (namesFirst : (moduleScope false is).Pairwise fun i j =>
      isTypeDeclaration i = true → j.opcode ≠ "OpName")
    {s r : Id} (ha : d.AliasedTo (moduleScope false is) d.types s r) : d.name s = d.name r := by
  obtain ⟨before, i, after, hsplit, -, ho, hs⟩ := ha.before
  obtain ⟨t, ht, halias⟩ := ha.aliased
  have hrun : empty.declareAll (before ++ i :: after) = .ok d := hsplit ▸ h
  obtain ⟨d₁, d₂, -, hstep, hrest⟩ := exists_states hrun
  obtain ⟨ids, name, x, members, d₃, u, -, hn, hx, -, hu, he⟩ := declare_struct_ok ho hstep
  obtain ⟨roots, aliasOf, hd₃, -⟩ := hu.frame
  have hi := isTypeDeclaration_of_ofName (ofName_eq_struct_iff.mpr ho)
  have hids : ids <+: d.ids := by
    have hadded := ids_declareAll hrest
    rwa [he, hd₃] at hadded
  have hxd : d.idOf? name = some x := idOf?_mono (d := { d₁ with ids }) hids hx
  obtain rfl : x = s := by
    rw [hn, Option.bind_some, hxd] at hs
    exact Option.some.inj hs
  have hkept : d.types.get? x = some u := by
    have honce : (typeResults (before ++ [i] ++ after)).Nodup := by
      rwa [hsplit, List.append_cons] at once
    rw [get?_of_settled types_writtenByTypes honce hrest (settled_of_result hi hn hxd), he,
      Table.get?_set_self]
  obtain rfl : u = t := Option.some.inj (hkept.symm.trans ht)
  rw [name_eq_of_namesFirst (hsplit ▸ namesFirst) ho hstep hrest]
  cases hu with
  | anonymous | root => cases halias
  | aliased hnon hf =>
    obtain rfl := Option.some.inj halias
    exact ((names_get?_eq_some_iff hnon).mp (findRoot_eq_some hf).2.1).symm

/-- An alias is reflected exactly as the struct that it repeats: from one start of the namer the two
have the same definition, or lack it for the same reason, and the namer ends at the same number. The
member names that are declared for the alias itself count for neither. -/
theorem structDefinition_alias (h : ofInstructions is = .ok d)
    (once : (typeResults (moduleScope false is)).Nodup)
    (namesFirst : (moduleScope false is).Pairwise fun i j =>
      isTypeDeclaration i = true → j.opcode ≠ "OpName")
    {s r : Id} {t : TypeDescriptor} (hs : s ∈ d.declaredStructs (moduleScope false is))
    (ht : d.shader.type? s = some t) (hr : t.aliasOf = some r) (n : Namer) :
    d.shader.structDefinition s n = d.shader.structDefinition r n := by
  have hd := shallowAliases h once
  obtain ⟨s', hcopied, haliased⟩ := hd.aliases s t r ht hr
  obtain rfl : s' = s := hcopied.eq_of_declared once hs
  obtain ⟨t', u, ht', hu, hequivalent⟩ := haliased.equivalent
  obtain rfl : t = t' := Option.some.inj (ht.symm.trans ht')
  obtain ⟨u', hu', hroot, hself⟩ := haliased.root
  obtain rfl : u = u' := Option.some.inj (hu.symm.trans hu')
  have hmirrors : d.shader.Mirrors s' r := by
    refine ⟨haliased.name_eq h once namesFirst, ?_, t, u, ht, hu,
      (sameLayout_of_equivalentTo? hequivalent).isStruct,
      exists_sameLayouts (equivalentTo?_succ_eq_true_iff.mp hequivalent).2⟩
    have hlent (x : Id) (v : TypeDescriptor) (hx : d.types.get? x = some v) (index : Int) :
        d.shader.declaredName? x index = d.memberName? (v.aliasOf.getD v.selfId) index := by
      rw [Shader.declaredName?, Shader.maxAliasHops, hd.memberNameWithin 30, hx, Option.bind_some]
    funext index
    rw [hlent s' t ht, hlent r u hu, hr, hroot, hself]
    rfl
  exact hmirrors.structDefinition_eq n

/-- A lamp and its copy, which has member names of its own. A member of the lamp has no name. -/
def lampListing : List Instruction := [
  ⟨"OpMemberName", [.id "copy", .int 0, .string "strength"], none, 1⟩,
  ⟨"OpName", [.id "lamp", .string "Lamp"], none, 2⟩,
  ⟨"OpName", [.id "copy", .string "Lamp"], none, 3⟩,
  ⟨"OpTypeFloat", [.int 32], some "float", 4⟩,
  ⟨"OpTypeBool", [], some "switch", 5⟩,
  ⟨"OpTypeStruct", [.id "float", .id "switch"], some "lamp", 6⟩,
  ⟨"OpTypeStruct", [.id "float", .id "switch"], some "copy", 7⟩,
  ⟨"OpMemberName", [.id "lamp", .int 1, .string "lit"], none, 8⟩]

def lampDefinition : StructDefinition where
  name := "Lamp"
  byteLength := 8
  members := [⟨"unnamed_9", "Scalar", 0, 4⟩, ⟨"lit", "bool", 4, 1⟩, ⟨"lit_pad", "Padding<3>", 5, 3⟩]

theorem lampListing_structDefinition : (typeResults (moduleScope false lampListing)).Nodup ∧
    ((moduleScope false lampListing).Pairwise fun i j =>
      isTypeDeclaration i = true → j.opcode ≠ "OpName") ∧
    ∃ d t, ofInstructions lampListing = .ok d ∧
      1 ∈ d.declaredStructs (moduleScope false lampListing) ∧
      d.shader.type? 1 = some t ∧ t.aliasOf = some 2 ∧
      d.shader.structDefinition 1 ⟨9⟩ = (.ok lampDefinition, ⟨10⟩) ∧
      d.shader.structDefinition 2 ⟨9⟩ = (.ok lampDefinition, ⟨10⟩) := by
  have once : (typeResults (moduleScope false lampListing)).Nodup := by decide +kernel
  have namesFirst : (moduleScope false lampListing).Pairwise fun i j =>
      isTypeDeclaration i = true → j.opcode ≠ "OpName" := by decide +kernel
  obtain ⟨d, hd, hs, ⟨t, ht, hr⟩, hlamp⟩ := exists_ok_of_any (x := ofInstructions lampListing)
    (p := fun d => 1 ∈ d.declaredStructs (moduleScope false lampListing) ∧
      (∃ t ∈ d.shader.type? 1, t.aliasOf = some 2) ∧
      d.shader.structDefinition 2 ⟨9⟩ = (.ok lampDefinition, ⟨10⟩)) (by decide +kernel)
  refine ⟨once, namesFirst, d, t, hd, hs, ht, hr, ?_, hlamp⟩
  rw [structDefinition_alias hd once namesFirst hs ht hr, hlamp]

end Module.Declarations
end ShaderReflection
