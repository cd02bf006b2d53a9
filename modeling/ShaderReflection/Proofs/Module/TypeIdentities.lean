import ShaderReflection.Proofs.Module.AliasChains

/-! The identities of types. An array keeps the identity of its element, and a pointer that of what
it points to. In a listing that declares every type once, the type that a descriptor stands for is
therefore in the table, and it is the same up to the lengths of the arrays and the flag of the
pointers in between. -/
namespace ShaderReflection.Module

open Assembly (Instruction)

/-- The descriptor of a type under arrays, whose lengths are counted from the innermost, and under
pointers, if there are any. -/
def wrapped (t : TypeDescriptor) (lengths : List Int) (pointed : Bool) : TypeDescriptor :=
  { t with array := t.array ++ lengths, pointer := t.pointer || pointed }

section Wrapping

variable (t : TypeDescriptor) (lengths : List Int) (pointed : Bool)

private theorem wrapped_nil : wrapped t [] false = t := by
  unfold wrapped
  rw [List.append_nil, Bool.or_false]

private theorem array_wrapped (length : Int) :
    { wrapped t lengths pointed with array := (wrapped t lengths pointed).array ++ [length] } =
      wrapped t (lengths ++ [length]) pointed := by
  unfold wrapped
  rw [List.append_assoc]

private theorem pointer_wrapped :
    { wrapped t lengths pointed with pointer := true } = wrapped t lengths true := by
  unfold wrapped
  rw [Bool.or_true]

end Wrapping

namespace Declarations

/-- A type is declared over another one by arrays of some lengths and by pointers, if there are any.
The other one is neither an array nor a pointer. -/
inductive LayeredOver (m : Declarations) (is : List Instruction) :
    Id → Id → List Int → Bool → Prop where
  | own {i : Instruction} {name : String} {x : Id} (hi : i ∈ is)
      (ht : isTypeDeclaration i = true) (ha : isArrayDeclaration i = false)
      (hp : isPointerDeclaration i = false) (hn : i.result = some name)
      (hx : m.idOf? name = some x) : LayeredOver m is x x [] false
  | array {i : Instruction} {name element : String} {x c s : Id} {lengths : List Int}
      {pointed : Bool} (hi : i ∈ is) (ha : isArrayDeclaration i = true) (hn : i.result = some name)
      (hx : m.idOf? name = some x) (he : i.idAt 0 = .ok element) (hc : m.idOf? element = some c)
      (h : LayeredOver m is c s lengths pointed) (length : Int) :
      LayeredOver m is x s (lengths ++ [length]) pointed
  | pointer {i : Instruction} {x c s : Id} {lengths : List Int} {pointed : Bool} (hi : i ∈ is)
      (hx : PointerOf m i x c) (h : LayeredOver m is c s lengths pointed) :
      LayeredOver m is x s lengths true

theorem LayeredOver.append {m : Declarations} {is : List Instruction} {x s : Id}
    {lengths : List Int} {pointed : Bool} (h : m.LayeredOver is x s lengths pointed)
    (js : List Instruction) : m.LayeredOver (is ++ js) x s lengths pointed := by
  induction h with
  | own hi ht ha hp hn hx => exact .own (List.mem_append_left _ hi) ht ha hp hn hx
  | array hi ha hn hx he hc _ length ih =>
    exact .array (List.mem_append_left _ hi) ha hn hx he hc ih length
  | pointer hi hx _ ih => exact .pointer (List.mem_append_left _ hi) hx ih

/-- A type stands for one that is in the table, stands for itself, and differs only by the arrays and
pointers in between. -/
def Identified (m : Declarations) (is : List Instruction) (types : Table Id TypeDescriptor)
    (x : Id) (t : TypeDescriptor) : Prop :=
  ∃ u lengths pointed, types.get? t.selfId = some u ∧ u.selfId = t.selfId ∧
    m.LayeredOver is x t.selfId lengths pointed ∧ t = wrapped u lengths pointed

inductive Layer (d e : Declarations) (i : Instruction) (x : Id) : TypeDescriptor → Prop where
  | own {t : TypeDescriptor} (ha : isArrayDeclaration i = false)
      (hp : isPointerDeclaration i = false) (hself : t.selfId = x) : Layer d e i x t
  | array {element : String} {c : Id} {t : TypeDescriptor} (ha : isArrayDeclaration i = true)
      (he : i.idAt 0 = .ok element) (hc : e.idOf? element = some c) (ht : d.types.get? c = some t)
      (length : Int) : Layer d e i x { t with array := t.array ++ [length] }
  | pointer {c : Id} {t : TypeDescriptor} (hx : PointerOf e i x c) (ht : d.types.get? c = some t) :
      Layer d e i x { t with pointer := true }

section Step

variable {m d e : Declarations} {before after : List Instruction} {i : Instruction}

/-- An instruction leaves the types as they are, or adds one layer to them. -/
theorem declare_layer (h : d.declare i = .ok e) :
    e.types = d.types ∨ ∃ name x t, isTypeDeclaration i = true ∧ i.result = some name ∧
      e.idOf? name = some x ∧ e.types = d.types.set x t ∧ Layer d e i x t := by
  rcases declare_described h with
    hsame | ⟨kind, name, x, ids, d₁, t, hk, hn, hx, -, hdescribe, hids, hset⟩
  · exact .inl hsame
  refine .inr ⟨name, x, t, isTypeDeclaration_of_ofName hk, hn, hx, hset, ?_⟩
  have hlater : d₁.ids <+: e.ids := hids ▸ List.prefix_refl _
  have harray : isArrayDeclaration i = true ↔ kind = .array ∨ kind = .runtimeArray := by
    rw [isArrayDeclaration_iff, hk, Opcode.type.injEq, Opcode.type.injEq]
  have hpointer : isPointerDeclaration i = true ↔ kind = .pointer := by
    rw [isPointerDeclaration_iff, hk, Opcode.type.injEq]
  have hdescribed : Described d.types x kind t := by
    obtain ⟨_, _, _, _, -, -, -, ht⟩ := describe_ok hdescribe
    exact ht t rfl
  cases kind with
  | array | runtimeArray =>
    obtain ⟨element, c, length, he, hc, ht⟩ := describe_array_ok (by simp) hdescribe
    obtain ⟨u, (hu : d.types.get? c = some u), rfl⟩ := Option.map_eq_some_iff.mp ht.symm
    exact .array (harray.mpr (by simp)) he (idOf?_mono hlater hc) hu length
  | pointer =>
    obtain ⟨operand, c, _, -, hoperand, hc, rfl, ht⟩ := describe_pointer_ok hdescribe
    obtain ⟨u, (hu : d.types.get? c = some u), rfl⟩ := Option.map_eq_some_iff.mp ht.symm
    exact .pointer ⟨hpointer.mpr rfl, ⟨name, hn, hx⟩, ⟨operand, hoperand, idOf?_mono hlater hc⟩⟩ hu
  | _ =>
    have ha : isArrayDeclaration i = false := by simp [Bool.eq_false_iff, harray]
    have hp : isPointerDeclaration i = false := by simp [Bool.eq_false_iff, hpointer]
    cases hdescribed <;> exact .own ha hp rfl

/-- Types are identified as before when others are added. -/
theorem Identified.grow {is : List Instruction} {types types' : Table Id TypeDescriptor} {x : Id}
    {t : TypeDescriptor} (h : m.Identified is types x t) (he : Extends types types')
    (js : List Instruction) : m.Identified (is ++ js) types' x t := by
  obtain ⟨u, lengths, pointed, hu, hself, hlayers, ht⟩ := h
  exact ⟨u, lengths, pointed, he.get? _ u hu, hself, hlayers.append js, ht⟩

/-- What is added over types that are identified is identified too. -/
theorem Identified.of_layer {x : Id} {t : TypeDescriptor} (hm : e.ids <+: m.ids) {name : String}
    (hi : isTypeDeclaration i = true) (hn : i.result = some name) (hid : e.idOf? name = some x)
    (hself : e.types.get? x = some t) (h : Layer d e i x t)
    (hd : ∀ y u, d.types.get? y = some u → m.Identified (before ++ [i]) e.types y u) :
    m.Identified (before ++ [i]) e.types x t := by
  have hmem : i ∈ before ++ [i] := by simp
  have hx := idOf?_mono hm hid
  cases h with
  | own ha hp ht =>
    subst ht
    exact ⟨t, [], false, hself, rfl, .own hmem hi ha hp hn hx, (wrapped_nil t).symm⟩
  | @array element c v ha he hc hv length =>
    obtain ⟨u, lengths, pointed, hu, huself, hlayers, rfl⟩ := hd c v hv
    have hc' := idOf?_mono hm hc
    exact ⟨u, lengths ++ [length], pointed, hu, huself,
      .array hmem ha hn hx he hc' hlayers length, array_wrapped u lengths pointed length⟩
  | @pointer c v hpointer hv =>
    obtain ⟨u, lengths, pointed, hu, huself, hlayers, rfl⟩ := hd c v hv
    exact ⟨u, lengths, true, hu, huself, .pointer hmem (hpointer.mono hm) hlayers,
      pointer_wrapped u lengths pointed⟩

end Step

/-- Where a run stands: types that have descriptors have been declared, and are identified. The ids
are those of the whole module `m`. -/
structure TypesIdentified (m : Declarations) (done : List Instruction) (d : Declarations) :
    Prop where
  settled : ∀ x t, d.types.get? x = some t → m.Settled done x
  identified : ∀ x t, d.types.get? x = some t → m.Identified done d.types x t

theorem typesIdentified_empty (m : Declarations) : m.TypesIdentified [] empty where
  settled := fun _ _ h => by cases h
  identified := fun _ _ h => by cases h

theorem TypesIdentified.step {m d e : Declarations} {before after : List Instruction}
    {i : Instruction} (once : (typeResults (before ++ i :: after)).Nodup) (h : d.declare i = .ok e)
    (hm : e.declareAll after = .ok m) (hd : m.TypesIdentified before d) :
    m.TypesIdentified (before ++ [i]) e := by
  have hext := extends_step hd.settled once h hm
  have hold : ∀ y u, d.types.get? y = some u → m.Identified (before ++ [i]) e.types y u :=
    fun y u hy => (hd.identified y u hy).grow hext [i]
  refine ⟨fun _ _ hy => settled_step hd.settled once h hm hy, fun y u hy => ?_⟩
  rcases declare_layer h with hsame | ⟨name, x, t, hi, hn, hid, hset, hlayer⟩
  · exact hold y u (hsame ▸ hy)
  · by_cases hyx : y = x
    · subst hyx
      have hself : e.types.get? y = some t := by rw [hset, Table.get?_set_self]
      obtain rfl := Option.some.inj (hself.symm.trans hy)
      exact Identified.of_layer (ids_declareAll hm) hi hn hid hself hlayer hold
    · rw [hset, Table.get?_set_of_ne _ hyx] at hy
      exact hold y u hy

/-- If no type is declared twice, then what a descriptor stands for is in the table and stands for
itself. It is neither an array nor a pointer, and the type is declared over it by arrays and
pointers only. In their descriptors the two differ by one length for each of these arrays, after the
lengths that were there, and by the flag of the pointers. -/
theorem types_keep_identity {is : List Instruction} {d : Declarations}
    (h : ofInstructions is = .ok d) (once : (typeResults (moduleScope false is)).Nodup) {x : Id}
    {t : TypeDescriptor} (hx : d.types.get? x = some t) :
    ∃ u lengths pointed, d.types.get? t.selfId = some u ∧ u.selfId = t.selfId ∧
      t = { u with array := u.array ++ lengths, pointer := u.pointer || pointed } ∧
      d.LayeredOver (moduleScope false is) x t.selfId lengths pointed := by
  have hd : d.TypesIdentified (moduleScope false is) d := by
    refine declareAll_induction (P := d.TypesIdentified) [] h (typesIdentified_empty d)
      fun before i after s s' he hs hstep hrest => ?_
    have honce : (typeResults (before ++ i :: after)).Nodup := he ▸ once
    exact hs.step honce hstep hrest
  obtain ⟨u, lengths, pointed, hu, hself, hlayers, ht⟩ := hd.identified x t hx
  exact ⟨u, lengths, pointed, hu, hself, ht, hlayers⟩

/-- An array over vectors that have an array in them, with a pointer in between, and an array that
is declared before its element. -/
def gridListing : List Instruction := [
  ⟨"OpTypeFloat", [.int 32], some "float", 1⟩,
  ⟨"OpTypeInt", [.int 32, .int 0], some "uint", 2⟩,
  ⟨"OpConstant", [.id "uint", .int 3], some "three", 3⟩,
  ⟨"OpTypeArray", [.id "row", .id "three"], some "early", 4⟩,
  ⟨"OpTypeArray", [.id "float", .id "three"], some "row", 5⟩,
  ⟨"OpTypeVector", [.id "row", .int 4], some "block", 6⟩,
  ⟨"OpTypePointer", [.word "Uniform", .id "block"], some "toBlock", 7⟩,
  ⟨"OpTypeArray", [.id "toBlock", .id "three"], some "blocks", 8⟩,
  ⟨"OpTypeRuntimeArray", [.id "blocks"], some "grid", 9⟩]

theorem gridListing_keeps_identity : (typeResults (moduleScope false gridListing)).Nodup ∧
    ∃ d x block t, ofInstructions gridListing = .ok d ∧
      (d.idOf? "early").bind d.types.get? = none ∧ d.idOf? "grid" = some x ∧
      d.idOf? "block" = some block ∧ d.types.get? x = some t ∧
      t = {
        baseType := .float, width := 32, vecsize := 4, selfId := block, array := [3, 3, 0],
        pointer := true } ∧
      ∃ u lengths pointed, d.types.get? block = some u ∧ u.selfId = block ∧
        t = { u with array := u.array ++ lengths, pointer := u.pointer || pointed } ∧
        d.LayeredOver (moduleScope false gridListing) x block lengths pointed := by
  have once : (typeResults (moduleScope false gridListing)).Nodup := by decide +kernel
  obtain ⟨d, hd, hearly, hgrid, hblock, hx⟩ := exists_ok_of_any (x := ofInstructions gridListing)
    (p := fun d => (d.idOf? "early").bind d.types.get? = none ∧ d.idOf? "grid" = some 9 ∧
      d.idOf? "block" = some 6 ∧ d.types.get? 9 = some {
        baseType := .float, width := 32, vecsize := 4, selfId := 6, array := [3, 3, 0],
        pointer := true }) (by decide +kernel)
  have hidentity := types_keep_identity hd once hx
  exact ⟨once, d, 9, 6, _, hd, hearly, hgrid, hblock, hx, rfl, hidentity⟩

end Declarations
end ShaderReflection.Module
