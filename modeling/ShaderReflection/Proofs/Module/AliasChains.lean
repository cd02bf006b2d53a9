import ShaderReflection.Module.Slots
import ShaderReflection.Naming
import ShaderReflection.Proofs.Module.Aliasing
import ShaderReflection.Proofs.Module.Annotations
import ShaderReflection.Proofs.Module.ImageTypes
import ShaderReflection.Proofs.Module.Pointers

/-! Chains of aliases. In a listing that declares every type once, in whatever order and with names
wherever they stand, an alias leads to a struct that was declared before and is no alias itself, so
that one step finds the struct that lends its member names. -/
namespace ShaderReflection.Module

open Assembly (Instruction)

section Extension

variable {types types' : Table Id TypeDescriptor}

structure Extends (types types' : Table Id TypeDescriptor) : Prop where
  get? : ∀ x t, types.get? x = some t → types'.get? x = some t
  count : compoundCount types ≤ compoundCount types'

private theorem Extends.refl (types : Table Id TypeDescriptor) : Extends types types :=
  ⟨fun _ _ h => h, Nat.le_refl _⟩

private theorem extends_set {x : Id} (hx : types.get? x = none) (t : TypeDescriptor) :
    Extends types (types.set x t) where
  get? := fun y u hy => by
    have hne : y ≠ x := by
      rintro rfl
      rw [hx] at hy
      cases hy
    rw [Table.get?_set_of_ne _ hne, hy]
  count := compoundCount_le_set hx t

/-- Types that are equivalent stay so: their comparison has met known types only. -/
theorem Extends.equivalentTo? (h : Extends types types') {n : Nat} {a b : TypeDescriptor}
    (hab : Module.equivalentTo? types n a b = some true) :
    Module.equivalentTo? types' n a b = some true := by
  induction n generalizing a b with
  | zero => cases hab
  | succ n ih =>
    rw [equivalentTo?_succ_eq_true_iff] at hab ⊢
    refine ⟨hab.1, hab.2.imp fun x y hxy => ?_⟩
    obtain ⟨s, t, hs, ht, hst⟩ := membersTo?_eq_true_iff.mp hxy
    exact membersTo?_eq_true_iff.mpr ⟨s, t, h.get? x s hs, h.get? y t ht, ih hst⟩

theorem Extends.equivalent? (h : Extends types types') {a b : TypeDescriptor}
    (hab : Module.equivalent? types a b = some true) :
    Module.equivalent? types' a b = some true := by
  have hle := Nat.mul_le_mul h.count h.count
  exact equivalentTo?_mono (h.equivalentTo? hab) (by omega)

theorem Extends.verdict (h : Extends types types') {x y : Id} (hxy : Verdict types true x y) :
    Verdict types' true x y := by
  obtain ⟨t, u, ht, hu, htu⟩ := hxy
  exact ⟨t, u, h.get? x t ht, h.get? y u hu, h.equivalent? htu⟩

end Extension

/-- The operand whose descriptor a type declaration copies. -/
def copiedOperand? (i : Instruction) : Option String :=
  match Opcode.ofName i.opcode with
  | .type .vector | .type .matrix | .type .array | .type .runtimeArray => (i.idAt 0).toOption
  | .type .pointer => (i.idAt 1).toOption
  | _ => none

namespace Declarations

/-- A type is a struct, or made of it by vectors, matrices, arrays and pointers. -/
inductive CopiedFrom (m : Declarations) (is : List Instruction) : Id → Id → Prop where
  | struct {x : Id} (hx : x ∈ m.declaredStructs is) : CopiedFrom m is x x
  | layer {i : Instruction} {name operand : String} {x c s : Id} (hi : i ∈ is)
      (hn : i.result = some name) (hx : m.idOf? name = some x)
      (ho : copiedOperand? i = some operand) (hc : m.idOf? operand = some c)
      (h : CopiedFrom m is c s) : CopiedFrom m is x s

def DeclaredBefore (m : Declarations) (is : List Instruction) (r s : Id) : Prop :=
  ∃ before i after, is = before ++ i :: after ∧ r ∈ m.declaredStructs before ∧
    i.opcode = "OpTypeStruct" ∧ i.result.bind m.idOf? = some s

def IsRoot (types : Table Id TypeDescriptor) (r : Id) : Prop :=
  ∃ u, types.get? r = some u ∧ u.aliasOf = none ∧ u.selfId = r

/-- A struct is an alias of an earlier one, to which it is equivalent. -/
structure AliasedTo (m : Declarations) (is : List Instruction) (types : Table Id TypeDescriptor)
    (s r : Id) : Prop where
  before : m.DeclaredBefore is r s
  aliased : ∃ t, types.get? s = some t ∧ t.aliasOf = some r
  root : IsRoot types r
  equivalent : Verdict types true s r

section Growth

variable {m : Declarations} {is : List Instruction} {types types' : Table Id TypeDescriptor}

theorem mem_declaredStructs_append {x : Id} (h : x ∈ m.declaredStructs is)
    (js : List Instruction) : x ∈ m.declaredStructs (is ++ js) := by
  unfold declaredStructs at h ⊢
  rw [List.filter_append, List.filterMap_append]
  exact List.mem_append_left _ h

theorem CopiedFrom.append {x s : Id} (h : m.CopiedFrom is x s) (js : List Instruction) :
    m.CopiedFrom (is ++ js) x s := by
  induction h with
  | struct hx => exact .struct (mem_declaredStructs_append hx js)
  | layer hi hn hx ho hc _ ih => exact .layer (List.mem_append_left _ hi) hn hx ho hc ih

theorem DeclaredBefore.append {r s : Id} (h : m.DeclaredBefore is r s) (js : List Instruction) :
    m.DeclaredBefore (is ++ js) r s := by
  obtain ⟨before, i, after, rfl, hr, hi⟩ := h
  exact ⟨before, i, after ++ js, by simp, hr, hi⟩

theorem IsRoot.mono {r : Id} (h : IsRoot types r) (he : Extends types types') : IsRoot types' r :=
  h.imp fun u ⟨hr, hu⟩ => ⟨he.get? r u hr, hu⟩

theorem AliasedTo.grow {r s : Id} (h : m.AliasedTo is types s r) (he : Extends types types')
    (js : List Instruction) : m.AliasedTo (is ++ js) types' s r where
  before := h.before.append js
  aliased := h.aliased.imp fun t ⟨hs, ht⟩ => ⟨he.get? s t hs, ht⟩
  root := h.root.mono he
  equivalent := he.verdict h.equivalent

end Growth

section Describing

variable {d e : Declarations} {i : Instruction}

/-- A type that is made of another one is an alias of the same struct. -/
theorem describe_copied_ok {kind : TypeOpcode} (ho : Opcode.ofName i.opcode = .type kind)
    (hk : kind ∈ [TypeOpcode.vector, .matrix, .array, .runtimeArray, .pointer]) {x : Id}
    {t : TypeDescriptor} (h : d.describe x kind i = .ok (e, some t)) :
    ∃ operand c u, copiedOperand? i = some operand ∧ e.idOf? operand = some c ∧
      d.types.get? c = some u ∧ t.aliasOf = u.aliasOf := by
  unfold copiedOperand?
  rw [ho]
  cases kind with
  | vector | matrix =>
    obtain ⟨operand, c, u, _, _, hn, hid, hu, rfl⟩ := describe_stacked_ok (by simp) h
    exact ⟨operand, c, u, toOption_eq_some.mpr hn, hid, hu, rfl⟩
  | array | runtimeArray =>
    obtain ⟨operand, c, length, hn, hid, ht⟩ := describe_array_ok (by simp) h
    obtain ⟨u, hu, rfl⟩ := Option.map_eq_some_iff.mp ht.symm
    exact ⟨operand, c, u, toOption_eq_some.mpr hn, hid, hu, rfl⟩
  | pointer =>
    obtain ⟨operand, c, ids, -, hn, hid, rfl, ht⟩ := describe_pointer_ok h
    obtain ⟨u, hu, rfl⟩ := Option.map_eq_some_iff.mp ht.symm
    exact ⟨operand, c, u, toOption_eq_some.mpr hn, hid, hu, rfl⟩
  | _ => simp at hk

/-- Apart from structs, a type is no alias, or it is made of another type and an alias of the same
struct. -/
theorem declare_copied (hs : i.opcode ≠ "OpTypeStruct") (h : d.declare i = .ok e) :
    e.types = d.types ∨ ∃ name x t, isTypeDeclaration i = true ∧ i.result = some name ∧
      e.idOf? name = some x ∧ e.types = d.types.set x t ∧
      (t.aliasOf = none ∨ ∃ operand c u, copiedOperand? i = some operand ∧
        e.idOf? operand = some c ∧ d.types.get? c = some u ∧ t.aliasOf = u.aliasOf) := by
  rcases declare_described h with
    hsame | ⟨kind, name, x, ids, d₁, t, ho, hn, hx, -, hdescribe, hids, hset⟩
  · exact .inl hsame
  refine .inr ⟨name, x, t, isTypeDeclaration_of_ofName ho, hn, hx, hset, ?_⟩
  by_cases hk : kind ∈ [TypeOpcode.vector, .matrix, .array, .runtimeArray, .pointer]
  · obtain ⟨operand, c, u, hoperand, hc, hu, hcopy⟩ := describe_copied_ok ho hk hdescribe
    exact .inr ⟨operand, c, u, hoperand, idOf?_mono (hids ▸ List.prefix_refl _) hc, hu, hcopy⟩
  · obtain ⟨_, _, _, _, -, rfl, -, ht⟩ := describe_ok hdescribe
    have hdescribed := ht t rfl
    cases hdescribed with
    | plain | bool | int | float => exact .inl rfl
    | struct => exact absurd (ofName_eq_struct_iff.mp ho) hs
    | vector | matrix | array | runtimeArray | pointer => simp at hk

end Describing

/-- Where the search for aliases stands: roots are structs that are no aliases, and whatever is an
alias is made of a struct that is an alias of a root. The ids are those of the whole module `m`. -/
structure ShallowAliases (m : Declarations) (done : List Instruction) (d : Declarations) :
    Prop where
  settled : ∀ x t, d.types.get? x = some t → m.Settled done x
  roots : ∀ r ∈ d.roots, r ∈ m.declaredStructs done ∧ IsRoot d.types r
  aliases : ∀ x t r, d.types.get? x = some t → t.aliasOf = some r →
    ∃ s, m.CopiedFrom done x s ∧ m.AliasedTo done d.types s r

theorem shallowAliases_empty (m : Declarations) : m.ShallowAliases [] empty where
  settled := fun _ _ h => by cases h
  roots := fun _ h => by cases h
  aliases := fun _ _ _ h => by cases h

section Step

variable {m d e : Declarations} {before after : List Instruction} {i : Instruction}

/-- Where every type is declared once, an instruction at most adds a type. -/
theorem extends_step (hs : ∀ x t, d.types.get? x = some t → m.Settled before x)
    (once : (typeResults (before ++ i :: after)).Nodup) (h : d.declare i = .ok e)
    (hm : e.declareAll after = .ok m) : Extends d.types e.types := by
  rcases declare_types_once once h hm with hsame | ⟨_, x, t, -, hx, -, -, hset⟩
  · exact hsame ▸ .refl _
  · exact hset ▸ extends_set (types_get?_eq_none hs hx) t

/-- What is known of the types that are there stays when types are added. -/
theorem ShallowAliases.aliases_kept (h : m.ShallowAliases before d)
    (he : Extends d.types e.types) {x r : Id} {t : TypeDescriptor} (hx : d.types.get? x = some t)
    (ht : t.aliasOf = some r) :
    ∃ s, m.CopiedFrom (before ++ [i]) x s ∧ m.AliasedTo (before ++ [i]) e.types s r := by
  obtain ⟨s, hs, hr⟩ := h.aliases x t r hx ht
  exact ⟨s, hs.append [i], hr.grow he [i]⟩

theorem ShallowAliases.roots_kept (h : m.ShallowAliases before d) (he : Extends d.types e.types)
    {r : Id} (hr : r ∈ d.roots) : r ∈ m.declaredStructs (before ++ [i]) ∧ IsRoot e.types r := by
  obtain ⟨hmem, hroot⟩ := h.roots r hr
  exact ⟨mem_declaredStructs_append hmem [i], hroot.mono he⟩

/-- What is known of the types that are there, and of a new one, is known of all. -/
theorem ShallowAliases.set (h : m.ShallowAliases before d)
    (once : (typeResults (before ++ i :: after)).Nodup) (hi : d.declare i = .ok e)
    (hm : e.declareAll after = .ok m) {x : Id} {t : TypeDescriptor}
    (he : e.types = d.types.set x t)
    (hroots : ∀ r ∈ e.roots, r ∈ d.roots ∨
      r ∈ m.declaredStructs (before ++ [i]) ∧ IsRoot e.types r)
    (hnew : ∀ r, t.aliasOf = some r →
      ∃ s, m.CopiedFrom (before ++ [i]) x s ∧ m.AliasedTo (before ++ [i]) e.types s r) :
    m.ShallowAliases (before ++ [i]) e := by
  have hext := extends_step h.settled once hi hm
  refine ⟨fun _ _ hy => settled_step h.settled once hi hm hy,
    fun r hr => (hroots r hr).elim (h.roots_kept hext) id, fun y u r hy hu => ?_⟩
  by_cases hyx : y = x
  · subst hyx
    rw [he, Table.get?_set_self] at hy
    exact hnew r (Option.some.inj hy ▸ hu)
  · rw [he, Table.get?_set_of_ne _ hyx] at hy
    exact h.aliases_kept hext hy hu

theorem ShallowAliases.step_struct (once : (typeResults (before ++ i :: after)).Nodup)
    (ho : i.opcode = "OpTypeStruct") (h : d.declare i = .ok e) (hm : e.declareAll after = .ok m)
    (hd : m.ShallowAliases before d) : m.ShallowAliases (before ++ [i]) e := by
  obtain ⟨ids, name, x, members, d₁, t, -, hn, hid, -, hs, he⟩ := declare_struct_ok ho h
  obtain ⟨roots, aliasOf, hd₁, ht⟩ := hs.frame
  have hids : ids <+: m.ids := by
    have hadded := ids_declareAll hm
    rwa [he, hd₁] at hadded
  have htypes : e.types = d.types.set x t := by rw [he, hd₁]
  have hroots : e.roots = d₁.roots := by rw [he]
  have hxm : m.idOf? name = some x := idOf?_mono (d := { d with ids }) hids hid
  have hmem : x ∈ m.declaredStructs (before ++ [i]) := by
    rw [declaredStructs_append_struct m before ho hn hxm]
    simp
  have hext := extends_step hd.settled once h hm
  have hself : e.types.get? x = some t := by rw [htypes, Table.get?_set_self]
  refine hd.set once h hm htypes ?_ ?_
  · intro r hr
    rw [hroots] at hr
    cases hs with
    | anonymous | aliased => exact .inl hr
    | root =>
      rcases List.mem_append.mp hr with hr | hr
      · exact .inl hr
      · rw [List.mem_singleton.mp hr]
        exact .inr ⟨hmem, _, hself, rfl, rfl⟩
  · intro r hr
    refine ⟨x, .struct hmem, ?_⟩
    cases hs with
    | anonymous | root => cases hr
    | aliased _ hf =>
      obtain ⟨hroot, -, u, hu, heq⟩ := findRoot_eq_some hf
      obtain rfl := Option.some.inj hr
      obtain ⟨hearlier, hisRoot⟩ := hd.roots _ hroot
      -- The comparison was made before the struct was known to be an alias.
      exact ⟨⟨before, i, [], rfl, hearlier, ho, by simp [hn, hxm]⟩, ⟨_, hself, rfl⟩,
        hisRoot.mono hext, _, u, hself, hext.get? _ u hu, hext.equivalent? heq⟩

theorem ShallowAliases.step_other (once : (typeResults (before ++ i :: after)).Nodup)
    (ho : i.opcode ≠ "OpTypeStruct") (h : d.declare i = .ok e) (hm : e.declareAll after = .ok m)
    (hd : m.ShallowAliases before d) : m.ShallowAliases (before ++ [i]) e := by
  have hroots := declare_roots ho h
  have hids := ids_declareAll hm
  have hext := extends_step hd.settled once h hm
  rcases declare_copied ho h with hsame | ⟨name, x, t, hi, hn, hid, he, ht⟩
  · exact ⟨fun _ _ hy => settled_step hd.settled once h hm hy,
      fun r hr => hd.roots_kept hext (hroots ▸ hr),
      fun y u r hy hu => hd.aliases_kept hext (hsame ▸ hy) hu⟩
  · have hxm := idOf?_mono hids hid
    refine hd.set once h hm he (fun r hr => .inl (hroots ▸ hr)) ?_
    intro r hr
    rcases ht with hnone | ⟨operand, c, u, hoperand, hc, hu, hcopy⟩
    · rw [hnone] at hr
      cases hr
    · obtain ⟨s, hs, hsr⟩ := hd.aliases_kept (i := i) hext hu (hcopy ▸ hr)
      exact ⟨s, .layer (by simp) hn hxm hoperand (idOf?_mono hids hc) hs, hsr⟩

theorem ShallowAliases.step (once : (typeResults (before ++ i :: after)).Nodup)
    (h : d.declare i = .ok e) (hm : e.declareAll after = .ok m)
    (hd : m.ShallowAliases before d) : m.ShallowAliases (before ++ [i]) e := by
  by_cases ho : i.opcode = "OpTypeStruct"
  · exact hd.step_struct once ho h hm
  · exact hd.step_other once ho h hm

end Step

section Listing

variable {is : List Instruction} {d : Declarations}

theorem shallowAliases (h : ofInstructions is = .ok d)
    (once : (typeResults (moduleScope false is)).Nodup) :
    d.ShallowAliases (moduleScope false is) d := by
  refine declareAll_induction (P := d.ShallowAliases) [] h (shallowAliases_empty d)
    fun before i after s s' he hs hstep hrest => ?_
  have honce : (typeResults (before ++ i :: after)).Nodup := he ▸ once
  exact hs.step honce hstep hrest

/-- Two types on the way are enough to find the name of a member: an alias, and the struct that it
leads to. -/
theorem ShallowAliases.memberNameWithin (h : d.ShallowAliases is d) (hops : Nat) (x : Id)
    (index : Int) : d.shader.memberNameWithin (hops + 2) x index =
      (d.types.get? x).bind fun t => d.memberName? (t.aliasOf.getD t.selfId) index := by
  have htype : d.shader.type? = d.types.get? := rfl
  have hname : d.shader.memberName? = d.memberName? := rfl
  unfold Shader.memberNameWithin
  rw [htype, hname]
  cases hx : d.types.get? x with
  | none => rfl
  | some t =>
    cases hr : t.aliasOf with
    | none => simp [hr]
    | some r =>
      obtain ⟨s, -, hs⟩ := h.aliases x t r hx hr
      obtain ⟨u, hu, hnone, hself⟩ := hs.root
      simp only [Shader.memberNameWithin, htype, hname, hr, hu, hnone, hself, Option.bind_some,
        Option.getD_some]

/-- If no type is declared twice, then whatever is an alias is made of a struct that is an alias of
a struct declared before it. That one is no alias itself, and the two are still equivalent when the
whole listing has been read. So the declared name of a member is that of the alias' target or of
the struct itself, and following aliases through two types finds it. -/
theorem aliases_reach_roots (h : ofInstructions is = .ok d)
    (once : (typeResults (moduleScope false is)).Nodup) {x : Id} {t : TypeDescriptor}
    (hx : d.types.get? x = some t) :
    (∀ r, t.aliasOf = some r → ∃ s, d.CopiedFrom (moduleScope false is) x s ∧
      d.AliasedTo (moduleScope false is) d.types s r) ∧
    ∀ index, d.shader.declaredName? x index = d.memberName? (t.aliasOf.getD t.selfId) index ∧
      ∀ hops, 2 ≤ hops →
        d.shader.memberNameWithin hops x index = d.shader.declaredName? x index := by
  have hd := shallowAliases h once
  have hname : ∀ hops, 2 ≤ hops → ∀ index, d.shader.memberNameWithin hops x index =
      d.memberName? (t.aliasOf.getD t.selfId) index := by
    intro hops hle index
    obtain ⟨n, rfl⟩ := Nat.exists_eq_add_of_le' hle
    rw [hd.memberNameWithin, hx, Option.bind_some]
  have hdeclared := hname Shader.maxAliasHops (by decide)
  refine ⟨fun r hr => hd.aliases x t r hx hr, fun index => ⟨hdeclared index, ?_⟩⟩
  intro hops hle
  exact (hname hops hle index).trans (hdeclared index).symm

/-- A struct that repeats another one, with a pointer to an array of it. The struct is renamed when
it has become an alias, and only then are the members named. -/
def renamedListing : List Instruction := [
  ⟨"OpName", [.id "light", .string "Light"], none, 1⟩,
  ⟨"OpName", [.id "copy", .string "Light"], none, 2⟩,
  ⟨"OpTypeFloat", [.int 32], some "float", 3⟩,
  ⟨"OpTypeStruct", [.id "float"], some "light", 4⟩,
  ⟨"OpTypeStruct", [.id "float"], some "copy", 5⟩,
  ⟨"OpTypeRuntimeArray", [.id "copy"], some "copies", 6⟩,
  ⟨"OpTypePointer", [.word "Uniform", .id "copies"], some "toCopies", 7⟩,
  ⟨"OpName", [.id "copy", .string "Lamp"], none, 8⟩,
  ⟨"OpMemberName", [.id "copy", .int 0, .string "power"], none, 9⟩,
  ⟨"OpMemberName", [.id "light", .int 0, .string "brightness"], none, 10⟩]

theorem renamedListing_reach_roots : (typeResults (moduleScope false renamedListing)).Nodup ∧
    ∃ d t, ofInstructions renamedListing = .ok d ∧ d.types.get? 5 = some t ∧
      t.aliasOf = some 1 ∧
      (∃ s, d.CopiedFrom (moduleScope false renamedListing) 5 s ∧
        d.AliasedTo (moduleScope false renamedListing) d.types s 1) ∧
      d.shader.declaredName? 5 0 = some "brightness" := by
  have once : (typeResults (moduleScope false renamedListing)).Nodup := by decide +kernel
  obtain ⟨d, hd, t, hx, halias, hname⟩ := exists_ok_of_any (x := ofInstructions renamedListing)
    (p := fun d => ∃ t ∈ d.types.get? 5, t.aliasOf = some 1 ∧
      d.memberName? (t.aliasOf.getD t.selfId) 0 = some "brightness") (by decide +kernel)
  obtain ⟨hroots, hnames⟩ := aliases_reach_roots hd once hx
  refine ⟨once, d, t, hd, hx, halias, hroots 1 halias, ?_⟩
  rw [(hnames 0).1, hname]

end Listing

end Declarations
end ShaderReflection.Module
